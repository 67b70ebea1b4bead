import DotQuery.Proofs.Query.Printing
import DotQuery.Proofs.Query.Separators

/-!
# Filters of one segment

A word and brackets around a predicate are one segment if the brackets of the predicate are matched
(`Matched`): scanned behind an opening bracket it stays above depth 0, so no dot in it separates.
Such a query narrows the field that the word names, if that is an array, to the items that satisfy
the predicate, and is the value itself otherwise (`Value.query_named_filter`).
-/

namespace DotQuery

/-! ## Matched brackets -/

/-- Each closing bracket has an opening one before it, in the text or among `depth` ahead of it. -/
def Opened (depth : Nat) (t : Text) : Prop := ∀ u v, t = u ++ ']' :: v → 0 < scanDepth depth u

/-- Each closing bracket has an opening one before it, and none is left open. -/
structure Matched (t : Text) : Prop where
  opened : Opened 0 t
  closed : scanDepth 0 t = 0

variable {t u v name condition : Text} {c : Char} {depth : Nat}

theorem opened_nil : Opened depth [] := fun u v h => by cases u <;> cases h

theorem opened_cons_iff :
    Opened depth (c :: t) ↔ (c = ']' → 0 < depth) ∧ Opened (depthAfter depth c) t := by
  constructor
  · intro h
    exact ⟨fun hc => h [] t (congrArg (· :: t) hc), fun u v huv =>
      h (c :: u) v (congrArg (c :: ·) huv)⟩
  · rintro ⟨hc, ht⟩ u v huv
    cases u with
    | nil => exact hc (List.cons_eq_cons.mp huv).1
    | cons d u =>
      obtain ⟨rfl, hrest⟩ := List.cons_eq_cons.mp huv
      exact ht u v hrest

theorem Opened.of_append (h : Opened depth (u ++ v)) : Opened depth u := fun a b hab =>
  h a (b ++ v) (by rw [hab, List.append_assoc]; rfl)

instance decidableOpened : (depth : Nat) → (t : Text) → Decidable (Opened depth t)
  | _, [] => isTrue opened_nil
  | depth, c :: t =>
    have := decidableOpened (depthAfter depth c) t
    decidable_of_iff _ opened_cons_iff.symm

instance decidableMatched : Decidable (Matched t) :=
  decidable_of_iff (Opened 0 t ∧ scanDepth 0 t = 0)
    ⟨fun h => ⟨h.1, h.2⟩, fun h => ⟨h.opened, h.closed⟩⟩

/-- A scan from further inside stays further inside. -/
theorem Opened.scanDepth_add (h : Opened depth t) (k : Nat) :
    scanDepth (depth + k) t = scanDepth depth t + k := by
  induction t generalizing depth with
  | nil => rfl
  | cons c t ih =>
    obtain ⟨hc, ht⟩ := opened_cons_iff.mp h
    have hstep : depthAfter (depth + k) c = depthAfter depth c + k := by
      by_cases hclose : c = ']'
      · subst hclose
        have hdepth : 0 < depth := hc rfl
        have hlower : ∀ n, depthAfter n ']' = n - 1 := fun _ => rfl
        rw [hlower, hlower]
        omega
      · simp only [depthAfter, if_neg hclose]
        split <;> omega
    calc scanDepth (depth + k) (c :: t)
        = scanDepth (depthAfter (depth + k) c) t := rfl
      _ = scanDepth (depthAfter depth c) t + k := by rw [hstep, ih ht]

theorem scanDepth_of_not_mem (hopen : '[' ∉ t) (hclose : ']' ∉ t) : scanDepth depth t = depth := by
  induction t with
  | nil => rfl
  | cons c t ih =>
    rw [List.mem_cons, not_or] at hopen hclose
    have hc : depthAfter depth c = depth := by
      rw [depthAfter, if_neg (Ne.symm hopen.1), if_neg (Ne.symm hclose.1)]
    have hrest : scanDepth (depthAfter depth c) t = depth := by rw [hc, ih hopen.2 hclose.2]
    exact hrest

/-! ## One segment -/

theorem not_mem_of_word (hname : ∀ c ∈ name, isWord c = true) (hc : isWord c = false) :
    c ∉ name := fun h => by
  rw [hname c h] at hc
  cases hc

/-- A dot that is not in the word stands between the brackets. -/
theorem dot_between_brackets (hdot : '.' ∉ name)
    (h : name ++ '[' :: condition ++ [']'] = u ++ '.' :: v) :
    ∃ a b, u = name ++ '[' :: a ∧ condition = a ++ b := by
  rw [List.append_assoc, List.append_eq_append_iff] at h
  rcases h with ⟨a, rfl, ha⟩ | ⟨a, rfl, ha⟩
  · cases a with
    | nil => cases ha
    | cons c a =>
      simp only [List.cons_append, List.cons.injEq] at ha
      obtain ⟨rfl, ha⟩ := ha
      rcases List.append_eq_append_iff.mp ha with ⟨b, -, hb⟩ | ⟨b, hb, -⟩
      · cases b with
        | nil => cases hb
        | cons d b => simp at hb
      · exact ⟨a, b, rfl, hb⟩
  · cases a with
    | nil => cases ha
    | cons c a =>
      simp only [List.cons_append, List.cons.injEq] at ha
      simp [← ha.1] at hdot

/-- Behind the opening bracket the scan is further inside than in the condition alone. -/
theorem undivided_brackets (hname : ∀ c ∈ name, isWord c = true) (h : Matched condition) :
    Undivided 0 (name ++ '[' :: condition ++ [']']) := by
  have hinside : ∀ a b, condition = a ++ b →
      scanDepth 0 (name ++ '[' :: a) = scanDepth 0 a + 1 := fun a b hab => by
    have ha : Opened 0 a := Opened.of_append (hab ▸ h.opened)
    rw [scanDepth_append, scanDepth_of_not_mem (not_mem_of_word hname (by decide))
      (not_mem_of_word hname (by decide))]
    exact ha.scanDepth_add 1
  constructor
  · rw [scanDepth_append, hinside condition [] (List.append_nil _).symm, h.closed]
    rfl
  · intro u v huv
    obtain ⟨a, b, rfl, hab⟩ := dot_between_brackets (not_mem_of_word hname (by decide)) huv
    rw [hinside a b hab]
    exact Nat.succ_pos _

theorem piecesFrom_of_undivided (h : Undivided depth t) : piecesFrom depth t = [t] := by
  induction t generalizing depth with
  | nil => rfl
  | cons c t ih =>
    have hc : ¬ (c = '.' ∧ depth = 0) := by
      rintro ⟨rfl, rfl⟩
      exact absurd (h.inner [] t rfl) (Nat.lt_irrefl 0)
    have hrest : Undivided (depthAfter depth c) t :=
      ⟨h.closed, fun u v huv => h.inner (c :: u) v (congrArg (c :: ·) huv)⟩
    rw [piecesFrom, if_neg hc, ih hrest]
    rfl

theorem pieces_of_undivided (h : Undivided 0 t) : pieces t = [t] := by
  rw [pieces_of_closed h.closed, piecesFrom_of_undivided h]

theorem Query.compile_brackets (hname : ∀ c ∈ name, isWord c = true) (hline : '\n' ∉ condition)
    (h : Matched condition) :
    Query.compile (name ++ '[' :: condition ++ [']']) = .ok ⟨name ++ '[' :: condition ++ [']'],
      [.filter (if name = [] then none else some name) (.ofText condition)]⟩ := by
  have hsegments : segmentsOf (name ++ '[' :: condition ++ [']']) =
      [.filter (if name = [] then none else some name) (.ofText condition)] := by
    rw [segmentsOf, pieces_of_undivided (undivided_brackets hname h), List.map_singleton,
      Segment.ofText_brackets hname hline]
  rw [compile_eq_ok_iff, hsegments]
  exact ⟨List.forall_mem_nil _, rfl⟩

/-! ## Narrowing -/

namespace Value

variable {chain : Chain} {items : List Value} {d : Value}

theorem query_brackets (hname : ∀ c ∈ name, isWord c = true) (hline : '\n' ∉ condition)
    (h : Matched condition) (hchain : Chain.parse condition = .ok chain) (d : Value) :
    d.query (name ++ '[' :: condition ++ [']']) =
      .ok (some (d.narrow (if name = [] then none else some name) chain)) := by
  have hparsed : (Predicate.ofText condition).chain = .ok chain := hchain
  rw [query_of_compile (Query.compile_brackets hname hline h), Query.execute, Run.result_cons,
    Segment.apply, hparsed]
  rfl

theorem narrow_of_array (h : d.get? name = some (array items)) (chain : Chain) :
    d.narrow (some name) chain = array (items.filter chain.holds) := by
  simp only [narrow, h]
  rfl

theorem narrow_of_not_array (h : ∀ items, d.get? name ≠ some (array items)) (chain : Chain) :
    d.narrow (some name) chain = d := by
  have hnone : narrow? chain (d.get? name) = none := by
    unfold narrow?
    split
    · next items heq => exact absurd heq (h items)
    · rfl
  simp only [narrow, hnone]
  rfl

theorem query_named_filter (hne : name ≠ []) (hname : ∀ c ∈ name, isWord c = true)
    (hchain : Chain.parse condition = .ok chain) (hline : '\n' ∉ condition)
    (hmatched : Matched condition) (d : Value) :
    (∀ items, d.get? name = some (array items) →
        d.query (name ++ '[' :: condition ++ [']']) =
            .ok (some (array (items.filter chain.holds))) ∧
          (array items).query ('[' :: condition ++ [']']) =
            d.query (name ++ '[' :: condition ++ [']'])) ∧
      ((∀ items, d.get? name ≠ some (array items)) →
        d.query (name ++ '[' :: condition ++ [']']) = .ok (some d)) := by
  have hnamed := query_brackets hname hline hmatched hchain d
  rw [if_neg hne] at hnamed
  refine ⟨fun items hitems => ?_, fun hother => ?_⟩
  · rw [narrow_of_array hitems] at hnamed
    have hunnamed := query_brackets (List.forall_mem_nil _) hline hmatched hchain (array items)
    exact ⟨hnamed, hunnamed.trans hnamed.symm⟩
  · rw [hnamed, narrow_of_not_array hother]

/-- The dots stand between brackets, one in brackets of its own. An array of such objects is no
object, so it is not narrowed. -/
theorem query_named_filter_inner_brackets :
    let condition := "a==[x.y]||b==1.5".toList
    let chain : Chain :=
      ⟨⟨['a'], .equal, "[x.y]".toList⟩, [(.or, ⟨['b'], .equal, "1.5".toList⟩)]⟩
    let row (key : Char) (t : Text) : Value := .object [([key], .string t)]
    let items : List Value := [row 'a' "[x.y]".toList, row 'b' ['2'], .null, row 'b' "1.5".toList]
    let kept : Value := .array [row 'a' "[x.y]".toList, row 'b' "1.5".toList]
    let d : Value := .object [(['n'], .array items), (['m'], .null)]
    Matched condition ∧ Chain.parse condition = .ok chain ∧
      d.query "n[a==[x.y]||b==1.5]".toList = .ok (some kept) ∧
      (array items).query "[a==[x.y]||b==1.5]".toList = .ok (some kept) ∧
      d.query "m[a==[x.y]||b==1.5]".toList = .ok (some d) ∧
      (array [d]).query "n[a==[x.y]||b==1.5]".toList = .ok (some (array [d])) := by
  intro condition chain row items kept d
  have hmatched : Matched condition := by decide
  have hparse : Chain.parse condition = .ok chain := rfl
  have hn := query_named_filter (List.cons_ne_nil 'n' []) (List.forall_mem_singleton.mpr rfl)
    hparse (by decide) hmatched
  have hm := query_named_filter (List.cons_ne_nil 'm' []) (List.forall_mem_singleton.mpr rfl)
    hparse (by decide) hmatched d
  obtain ⟨hkept, hunnamed⟩ := (hn d).1 items rfl
  exact ⟨hmatched, hparse, hkept.trans rfl, hunnamed.trans (hkept.trans rfl), hm.2 nofun,
    (hn (array [d])).2 nofun⟩

end Value

end DotQuery
