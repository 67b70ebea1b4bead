import DotQuery.Proofs.Predicate.Terms

/-!
# Canonical conditions

A condition is canonical if it is the wildcard, or a comparison whose key and value are trimmed and
hold nothing that would be read as a connective or as an operator instead. What parsing gives is
canonical (`canonical_of_parse`), and a canonical condition is read back from its text, with blanks
around it or not (`parse_text`).
-/

namespace DotQuery

namespace Operator

/-- The operators that a term is searched for before this one. -/
def before (op : Operator) : List Operator := byPriority.takeWhile (· ≠ op)

theorem token_ne_nil (op : Operator) : op.token ≠ [] := by cases op <;> exact List.cons_ne_nil _ _

theorem blank_not_mem_token (op : Operator) : ' ' ∉ op.token := by cases op <;> decide

theorem mem_byPriority (op : Operator) : op ∈ byPriority := by cases op <;> decide

theorem plain_token (op : Operator) : Plain op.token := by
  intro k
  cases k <;> cases op <;> decide

/-- No operator occurs in one that is searched for after it. -/
theorem not_infix_token_of_before (op : Operator) :
    ∀ other ∈ op.before, ¬ other.token <:+: op.token := by
  cases op <;> decide

/-! ## The first operator -/

/-- The first item of a list for which `f` gives something: it gives nothing for those before. -/
theorem findSome?_pair_eq_some_iff {α β : Type} [DecidableEq α] {f : α → Option β} {l : List α}
    {x : α} {y : β} :
    (l.findSome? fun a => (f a).map fun b => (a, b)) = some (x, y) ↔
      x ∈ l ∧ f x = some y ∧ ∀ z ∈ l.takeWhile (· ≠ x), f z = none := by
  induction l with
  | nil => simp
  | cons a l ih =>
    rw [List.findSome?_cons]
    by_cases hax : a = x
    · subst hax
      cases hf : f a with
      | none => simp [ih, hf]
      | some b => simp
    · have hxa : x ≠ a := Ne.symm hax
      cases hf : f a with
      | none => simp [ih, hf, hax, hxa]
      | some b => simp [hf, hax]

theorem cut?_eq_some_iff {t key value : Text} {op : Operator} :
    cut? t = some (op, key, value) ↔
      Text.cutAtFirst op.token t = some (key, value) ∧
        ∀ other ∈ op.before, ¬ other.token <:+: t := by
  unfold cut?
  rw [findSome?_pair_eq_some_iff]
  simp only [mem_byPriority, true_and, Text.cutAtFirst_eq_none_iff (token_ne_nil _), before]

theorem cut?_blank_cons (t : Text) :
    cut? (' ' :: t) = (cut? t).map (Prod.map id (Prod.map (' ' :: ·) id)) := by
  have h (op : Operator) : Text.cutAtFirst op.token (' ' :: t) =
      (Text.cutAtFirst op.token t).map (Prod.map (' ' :: ·) id) :=
    Text.cutAtFirst_append_cons op.blank_not_mem_token op.token_ne_nil (a := [])
      (by simpa using op.token_ne_nil) t
  unfold cut?
  simp only [h, List.map_findSome?, Function.comp_def, Option.map_map]
  rfl

theorem cut?_concat_blank (t : Text) :
    cut? (t ++ [' ']) = (cut? t).map (Prod.map id (Prod.map id (· ++ [' ']))) := by
  have h (op : Operator) : Text.cutAtFirst op.token (t ++ [' ']) =
      (Text.cutAtFirst op.token t).map (Prod.map id (· ++ [' '])) :=
    Text.cutAtFirst_concat op.blank_not_mem_token op.token_ne_nil t
  unfold cut?
  simp only [h, List.map_findSome?, Function.comp_def, Option.map_map]
  rfl

end Operator

namespace Condition

/-- The condition of a term that is cut at an operator. -/
def ofParts (op : Operator) (key value : Text) : Condition :=
  if op = .any then wildcard else ⟨key.trim, op, value.trim⟩

theorem parse_eq (t : Text) :
    Condition.parse t =
      match Operator.cut? t with
      | none => .error ⟨t.trim⟩
      | some (op, key, value) => .ok (ofParts op key value) := by
  unfold Condition.parse
  rcases Operator.cut? t with _ | ⟨op, key, value⟩
  · rfl
  · cases op <;> rfl

theorem parse_blank_cons (t : Text) : Condition.parse (' ' :: t) = Condition.parse t := by
  rw [parse_eq, parse_eq, Operator.cut?_blank_cons, Text.trim_cons_blank isBlank_space]
  rcases Operator.cut? t with _ | ⟨op, key, value⟩
  · rfl
  · simp only [Option.map_some, Prod.map_apply, id_eq, ofParts, Text.trim_cons_blank isBlank_space]

theorem parse_concat_blank (t : Text) : Condition.parse (t ++ [' ']) = Condition.parse t := by
  rw [parse_eq, parse_eq, Operator.cut?_concat_blank, Text.trim_concat_blank isBlank_space]
  rcases Operator.cut? t with _ | ⟨op, key, value⟩
  · rfl
  · simp only [Option.map_some, Prod.map_apply, id_eq, ofParts,
      Text.trim_concat_blank isBlank_space]

/-! ## Canonical conditions -/

/-- A comparison whose key and value hold nothing that would be read otherwise. -/
structure Clean (c : Condition) : Prop where
  operator : c.operator ≠ .any
  key_trimmed : c.key.trim = c.key
  value_trimmed : c.value.trim = c.value
  key_plain : Plain c.key
  value_plain : Plain c.value
  key_before : ∀ op ∈ c.operator.before, ¬ op.token <:+: c.key
  value_before : ∀ op ∈ c.operator.before, ¬ op.token <:+: c.value
  key_own : ¬ c.operator.token <:+: c.key

def Canonical (c : Condition) : Prop := c = wildcard ∨ c.Clean

theorem canonical_of_parse {t : Text} {c : Condition} (ht : Plain t)
    (h : Condition.parse t = .ok c) : c.Canonical := by
  rw [parse_eq] at h
  rcases hcut : Operator.cut? t with _ | ⟨op, key, value⟩
  · simp [hcut] at h
  · simp only [hcut, Except.ok.injEq] at h
    subst h
    obtain ⟨hfirst, hbefore⟩ := Operator.cut?_eq_some_iff.mp hcut
    obtain ⟨rfl, hkey⟩ := Text.cutAtFirst_eq_some op.token_ne_nil hfirst
    have hk : key.trim <:+: key ++ op.token ++ value := by
      rw [List.append_assoc]
      exact (Text.trim_isInfix key).trans List.infix_append_left
    have hv : value.trim <:+: key ++ op.token ++ value :=
      (Text.trim_isInfix value).trans List.infix_append_right
    unfold ofParts
    split
    · exact .inl rfl
    · next hop =>
      exact .inr
        { operator := hop
          key_trimmed := Text.trim_trim key
          value_trimmed := Text.trim_trim value
          key_plain := ht.of_isInfix hk
          value_plain := ht.of_isInfix hv
          key_before := fun other hother hin => hbefore other hother (hin.trans hk)
          value_before := fun other hother hin => hbefore other hother (hin.trans hv)
          key_own := fun hin => hkey (hin.trans (Text.trim_isInfix key)) }

theorem text_of_ne_any {c : Condition} (h : c.operator ≠ .any) :
    c.text = c.key ++ ' ' :: (c.operator.token ++ ' ' :: c.value) := by
  simp [text, h]

theorem Clean.cut?_text {c : Condition} (h : c.Clean) :
    Operator.cut? c.text = some (c.operator, c.key ++ [' '], ' ' :: c.value) := by
  have hsep := fun op : Operator => op.blank_not_mem_token
  have hne := fun op : Operator => op.token_ne_nil
  rw [text_of_ne_any h.operator, Operator.cut?_eq_some_iff]
  constructor
  · rw [Text.cutAtFirst_append_cons (hsep _) (hne _) h.key_own,
      Text.cutAtFirst_token_append (hne _)]
    rfl
  · intro op hop
    rw [Text.infix_append_cons_iff (hsep op) (hne op),
      Text.infix_append_cons_iff (hsep op) (hne op)]
    rintro (hin | hin | hin)
    · exact h.key_before op hop hin
    · exact c.operator.not_infix_token_of_before op hop hin
    · exact h.value_before op hop hin

theorem Canonical.parse_text {c : Condition} (h : c.Canonical) :
    Condition.parse c.text = .ok c := by
  rcases h with rfl | h
  · rfl
  · rw [parse_eq, h.cut?_text]
    simp only [ofParts, h.operator, if_false, Text.trim_concat_blank isBlank_space,
      Text.trim_cons_blank isBlank_space, h.key_trimmed, h.value_trimmed]

theorem Canonical.plain_text {c : Condition} (h : c.Canonical) : Plain c.text := by
  rcases h with rfl | h
  · exact Operator.plain_token .any
  · rw [text_of_ne_any h.operator, plain_join_iff, plain_join_iff]
    exact ⟨h.key_plain, c.operator.plain_token, h.value_plain⟩

end Condition

end DotQuery
