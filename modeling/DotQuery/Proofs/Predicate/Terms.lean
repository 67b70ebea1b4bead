import DotQuery.Predicate.Parser
import DotQuery.Proofs.Text.Cut

/-!
# Terms and connectives

`Plain t` says that no connective occurs in `t`. A plain text is its only term, and a connective
separates behind a plain text that does not end in the character of which the connective is two
(`splitTerms_append_token`). Statements about the terms of a text are proved by
`splitTerms_induction`.
-/

namespace DotQuery

namespace Connective

theorem token_ne_nil (k : Connective) : k.token ≠ [] := by cases k <;> exact List.cons_ne_nil _ _

theorem blank_not_mem_token (k : Connective) : ' ' ∉ k.token := by cases k <;> decide

/-- The character of which a connective is two. -/
def sign : Connective → Char
  | and => '&'
  | or => '|'

theorem token_eq (k : Connective) : k.token = [k.sign, k.sign] := by cases k <;> rfl

theorem blank_ne_sign (k : Connective) : ' ' ≠ k.sign := by cases k <;> decide

theorem token_isPrefix_cons_iff {k : Connective} {c : Char} {t : Text} :
    k.token <+: c :: t ↔ c = k.sign ∧ t.head? = some k.sign := by
  cases t with
  | nil => simp [token_eq, List.cons_prefix_cons]
  | cons d t => simp [token_eq, List.cons_prefix_cons, eq_comm]

end Connective

/-- No connective occurs in the text. -/
def Plain (t : Text) : Prop := ∀ k : Connective, ¬ k.token <:+: t

theorem Plain.of_isInfix {t u : Text} (h : Plain u) (ht : t <:+: u) : Plain t :=
  fun k hk => h k (hk.trans ht)

theorem plain_nil : Plain [] := fun k hk => k.token_ne_nil (List.infix_nil.mp hk)

theorem plain_cons_iff {c : Char} {t : Text} :
    Plain (c :: t) ↔ (∀ k : Connective, ¬ k.token <+: c :: t) ∧ Plain t := by
  simp only [Plain, List.infix_cons_iff, not_or, forall_and]

theorem plain_join_iff {t u : Text} : Plain (t ++ ' ' :: u) ↔ Plain t ∧ Plain u := by
  simp only [Plain, fun k : Connective => Text.infix_append_cons_iff (a := t) (u := u)
    k.blank_not_mem_token k.token_ne_nil, not_or, forall_and]

theorem plain_blank_cons_iff {t : Text} : Plain (' ' :: t) ↔ Plain t := by
  have h := plain_join_iff (t := []) (u := t)
  simpa [plain_nil] using h

/-! ## Cutting at connectives -/

theorem splitTerms_token (k : Connective) (t : Text) :
    splitTerms (k.token ++ t) = ([], (k, (splitTerms t).1) :: (splitTerms t).2) := by
  cases k <;> rfl

theorem splitTerms_cons {c : Char} {t : Text} (h : ∀ k : Connective, ¬ k.token <+: c :: t) :
    splitTerms (c :: t) = (c :: (splitTerms t).1, (splitTerms t).2) := by
  rw [splitTerms]
  · rintro u rfl rfl
    exact h .and ⟨u, rfl⟩
  · rintro u rfl rfl
    exact h .or ⟨u, rfl⟩

/-- A text is empty, begins with a connective, or begins with a character of its first term. -/
@[elab_as_elim]
theorem splitTerms_induction {motive : Text → Prop} (nil : motive [])
    (token : ∀ (k : Connective) t, motive t → motive (k.token ++ t))
    (cons : ∀ c t, (∀ k : Connective, ¬ k.token <+: c :: t) → motive t → motive (c :: t))
    (t : Text) : motive t := by
  fun_induction splitTerms t with
  | case1 => exact nil
  | case2 t r ih => exact token .and t ih
  | case3 t r ih => exact token .or t ih
  | case4 c t hand hor r ih =>
    refine cons c t ?_ ih
    rintro k ⟨u, hu⟩
    cases k with
    | and => cases hu; exact hand u rfl rfl
    | or => cases hu; exact hor u rfl rfl

theorem splitTerms_of_plain {t : Text} (h : Plain t) : splitTerms t = (t, []) := by
  induction t with
  | nil => rfl
  | cons c t ih =>
    rw [plain_cons_iff] at h
    rw [splitTerms_cons h.1, ih h.2]

/-- A connective separates behind a plain text that does not end in its character. -/
theorem splitTerms_append_token {t : Text} (h : Plain t) {k : Connective}
    (hlast : t.getLast? ≠ some k.sign) (u : Text) :
    splitTerms (t ++ (k.token ++ u)) = (t, (k, (splitTerms u).1) :: (splitTerms u).2) := by
  induction t with
  | nil => exact splitTerms_token k u
  | cons c t ih =>
    rw [plain_cons_iff] at h
    have hc : ∀ l : Connective, ¬ l.token <+: c :: (t ++ (k.token ++ u)) := by
      intro l hl
      obtain ⟨rfl, hhead⟩ := Connective.token_isPrefix_cons_iff.mp hl
      -- only the last character of the text could form a connective with the token behind it
      cases t with
      | nil =>
        rw [List.nil_append, k.token_eq] at hhead
        exact hlast (congrArg some (Option.some.inj hhead).symm)
      | cons d t => exact h.1 l (Connective.token_isPrefix_cons_iff.mpr ⟨rfl, hhead⟩)
    have htail : t.getLast? ≠ some k.sign := fun ht => hlast (by rw [List.getLast?_cons, ht]; rfl)
    rw [List.cons_append, splitTerms_cons hc, ih h.2 htail]

theorem splitTerms_join {t : Text} (h : Plain t) (k : Connective) (u : Text) :
    splitTerms (t ++ ' ' :: (k.token ++ u)) =
      (t ++ [' '], (k, (splitTerms u).1) :: (splitTerms u).2) := by
  have hplain : Plain (t ++ [' ']) := plain_join_iff.mpr ⟨h, plain_nil⟩
  have hlast : (t ++ [' ']).getLast? ≠ some k.sign := by
    rw [List.getLast?_concat, Ne, Option.some.injEq]
    exact k.blank_ne_sign
  rw [List.append_cons t ' ' (k.token ++ u)]
  exact splitTerms_append_token hplain hlast u

/-! ## Parsing terms -/

section

variable {ε α β γ : Type} {x : Except ε α} {y : Except ε β} {f : α → β → γ}

theorem bind_map_eq_ok_iff {c : γ} :
    (x.bind fun a => y.map (f a)) = .ok c ↔ ∃ a b, x = .ok a ∧ y = .ok b ∧ c = f a b := by
  cases x with
  | error e => simp [Except.bind]
  | ok a => cases y <;> simp [Except.bind, Except.map, eq_comm]

/-- Of two outcomes the first error counts. -/
theorem bind_map_eq_error_iff {e : ε} :
    (x.bind fun a => y.map (f a)) = .error e ↔
      x = .error e ∨ ((∃ a, x = .ok a) ∧ y = .error e) := by
  cases x with
  | error e => simp [Except.bind]
  | ok a => cases y <;> simp [Except.bind, Except.map]

end

theorem parseTerms_cons (k : Connective) (t : Text) (ts : List (Connective × Text)) :
    parseTerms ((k, t) :: ts) =
      (Condition.parse t).bind fun c => (parseTerms ts).map fun cs => (k, c) :: cs := rfl

theorem Chain.parse_eq (t : Text) :
    Chain.parse t = (Condition.parse (splitTerms t).1).bind fun c =>
      (parseTerms (splitTerms t).2).map fun cs => ⟨c, cs⟩ := rfl

theorem parseTerms_cons_eq_ok_iff {k : Connective} {t : Text} {ts : List (Connective × Text)}
    {cs : List (Connective × Condition)} :
    parseTerms ((k, t) :: ts) = .ok cs ↔
      ∃ c cs', Condition.parse t = .ok c ∧ parseTerms ts = .ok cs' ∧ cs = (k, c) :: cs' :=
  bind_map_eq_ok_iff

theorem Chain.parse_eq_ok_iff {t : Text} {chain : Chain} :
    Chain.parse t = .ok chain ↔
      Condition.parse (splitTerms t).1 = .ok chain.first ∧
        parseTerms (splitTerms t).2 = .ok chain.rest := by
  rw [Chain.parse_eq, bind_map_eq_ok_iff]
  constructor
  · rintro ⟨first, rest, hfirst, hrest, rfl⟩
    exact ⟨hfirst, hrest⟩
  · rintro ⟨hfirst, hrest⟩
    exact ⟨chain.first, chain.rest, hfirst, hrest, rfl⟩

end DotQuery
