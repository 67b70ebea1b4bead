import Mathlib.Data.List.DropRight
import DotQuery.Proofs.Text.Cut
import DotQuery.Query.Compile

/-!
# The filter form

A text is a filter if one of its opening brackets is closed on its line. The name of the filter is
the word right in front of the first such bracket, and its predicate is what follows up to the last
closing bracket of the line (`FilterForm`); all other text is left out. `filterParts?` finds these
parts, and finds none only if no bracket is closed on its line (`filterParts?_eq_some_iff`,
`filterParts?_eq_none_iff`).
-/

namespace DotQuery

/-- A closing bracket comes before the end of the line. -/
def ClosedOnLine (t : Text) : Prop := ∃ v w, t = v ++ ']' :: w ∧ '\n' ∉ v

def HasClosedBracket (t : Text) : Prop := ∃ u rest, t = u ++ '[' :: rest ∧ ClosedOnLine rest

/-- Between `u` and `rest` stands the first opening bracket of `t` that is closed on its line. -/
structure FirstClosed (t u rest : Text) : Prop where
  text : t = u ++ '[' :: rest
  closed : ClosedOnLine rest
  first : ∀ u' rest', t = u' ++ '[' :: rest' → u'.length < u.length → ¬ ClosedOnLine rest'

/-- The name is all of the word in front of the first bracket that is closed on its line, and the
condition ends at the last closing bracket of that line. -/
structure FilterParts (t before name condition after : Text) : Prop where
  bracket : FirstClosed t (before ++ name) (condition ++ ']' :: after)
  word : ∀ c ∈ name, isWord c = true
  whole : ∀ c, before.getLast? = some c → isWord c = false
  line : '\n' ∉ condition
  last : ']' ∉ after.takeWhile (· ≠ '\n')

def FilterForm (t name condition : Text) : Prop :=
  ∃ before after, FilterParts t before name condition after

variable {t u rest name condition : Text} {c : Char}

/-! ## The condition -/

theorem mem_line {t : Text} (hc : c ∈ t.takeWhile (· ≠ '\n')) : c ≠ '\n' := by
  simpa using List.mem_takeWhile_imp hc

theorem takeWhile_line_append {v : Text} (h : '\n' ∉ v) (w : Text) :
    (v ++ w).takeWhile (· ≠ '\n') = v ++ w.takeWhile (· ≠ '\n') := by
  refine List.takeWhile_append_of_pos fun c hc => ?_
  simpa using fun e : c = '\n' => h (e ▸ hc)

theorem bracketed?_eq_some_iff : bracketed? t = some condition ↔
    ∃ after, t = condition ++ ']' :: after ∧ '\n' ∉ condition ∧
      ']' ∉ after.takeWhile (· ≠ '\n') := by
  rw [bracketed?, Option.map_eq_some_iff]
  constructor
  · rintro ⟨⟨_, after⟩, hcut, rfl⟩
    obtain ⟨htext, hafter⟩ := Text.cutAtLast_eq_some_iff.mp hcut
    have hline : ∀ c ∈ t.takeWhile (· ≠ '\n'), c ≠ '\n' := fun c hc => mem_line hc
    rw [htext] at hline
    have hrest : (t.dropWhile (· ≠ '\n')).takeWhile (· ≠ '\n') = [] := by
      rw [List.takeWhile_eq_nil_iff]
      intro hlength
      have hhead := List.head?_dropWhile_not (fun c => decide (c ≠ '\n')) t
      rw [List.head?_eq_getElem?, List.getElem?_eq_getElem hlength] at hhead
      simpa using hhead
    refine ⟨after ++ t.dropWhile (· ≠ '\n'), ?_, fun hmem => ?_, ?_⟩
    · rw [← List.cons_append, ← List.append_assoc, ← htext, List.takeWhile_append_dropWhile]
    · exact hline _ (List.mem_append_left _ hmem) rfl
    · have hafterLine : '\n' ∉ after := fun hmem =>
        hline _ (List.mem_append_right _ (List.mem_cons_of_mem _ hmem)) rfl
      rw [takeWhile_line_append hafterLine, hrest, List.append_nil]
      exact hafter
  · rintro ⟨after, rfl, hline, hlast⟩
    refine ⟨(condition, after.takeWhile (· ≠ '\n')), ?_, rfl⟩
    rw [takeWhile_line_append hline, List.takeWhile_cons_of_pos (by decide)]
    exact Text.cutAtLast_append_cons condition hlast

theorem closedOnLine_iff : ClosedOnLine t ↔ ∃ condition, bracketed? t = some condition := by
  constructor
  · rintro ⟨v, w, rfl, hv⟩
    cases h : bracketed? (v ++ ']' :: w) with
    | some condition => exact ⟨condition, rfl⟩
    | none =>
      rw [bracketed?, Option.map_eq_none_iff, Text.cutAtLast_eq_none_iff,
        takeWhile_line_append hv, List.takeWhile_cons_of_pos (by decide)] at h
      exact absurd (List.mem_append_right v List.mem_cons_self) h
  · rintro ⟨condition, h⟩
    obtain ⟨after, htext, hline, -⟩ := bracketed?_eq_some_iff.mp h
    exact ⟨condition, after, htext, hline⟩

theorem bracketed?_eq_none_iff : bracketed? t = none ↔ ¬ ClosedOnLine t := by
  rw [closedOnLine_iff, Option.eq_none_iff_forall_ne_some, not_exists]

/-! ## The bracket -/

theorem not_firstClosed_nil : ¬ FirstClosed [] u rest := fun h => by
  have htext := h.text
  cases u <;> cases htext

theorem firstClosed_bracket_iff (h : ClosedOnLine t) :
    FirstClosed ('[' :: t) u rest ↔ u = [] ∧ rest = t := by
  constructor
  · intro hfirst
    cases u with
    | nil => exact ⟨rfl, (List.cons_eq_cons.mp hfirst.text).2.symm⟩
    | cons c u => exact absurd h (hfirst.first [] t rfl (Nat.succ_pos _))
  · rintro ⟨rfl, rfl⟩
    exact ⟨rfl, h, fun u' rest' _ hlt => absurd hlt (Nat.not_lt_zero _)⟩

theorem firstClosed_cons_iff (h : c = '[' → ¬ ClosedOnLine t) :
    FirstClosed (c :: t) u rest ↔ ∃ u', u = c :: u' ∧ FirstClosed t u' rest := by
  constructor
  · intro hfirst
    cases u with
    | nil =>
      obtain ⟨hc, hrest⟩ := List.cons_eq_cons.mp hfirst.text
      exact absurd (hrest ▸ hfirst.closed) (h hc)
    | cons d u =>
      obtain ⟨hc, htext⟩ := List.cons_eq_cons.mp hfirst.text
      subst hc
      refine ⟨u, rfl, htext, hfirst.closed, fun u' rest' ht hlt => ?_⟩
      exact hfirst.first (c :: u') rest' (congrArg _ ht) (Nat.succ_lt_succ hlt)
  · rintro ⟨u, rfl, hfirst⟩
    refine ⟨congrArg _ hfirst.text, hfirst.closed, fun u' rest' ht hlt => ?_⟩
    cases u' with
    | nil =>
      obtain ⟨hc, hrest⟩ := List.cons_eq_cons.mp ht
      exact hrest ▸ h hc
    | cons d u' =>
      exact hfirst.first u' rest' (List.cons_eq_cons.mp ht).2 (Nat.lt_of_succ_lt_succ hlt)

theorem exists_firstClosed_iff :
    (∃ u rest, FirstClosed t u rest) ↔ HasClosedBracket t := by
  constructor
  · rintro ⟨u, rest, h⟩
    exact ⟨u, rest, h.text, h.closed⟩
  rintro ⟨u, rest, htext, hclosed⟩
  induction t generalizing u with
  | nil => cases u <;> cases htext
  | cons c t ih =>
    by_cases h : c = '[' ∧ ClosedOnLine t
    · obtain ⟨rfl, h⟩ := h
      exact ⟨[], t, (firstClosed_bracket_iff h).mpr ⟨rfl, rfl⟩⟩
    · rw [not_and] at h
      cases u with
      | nil =>
        obtain ⟨hc, hrest⟩ := List.cons_eq_cons.mp htext
        exact absurd (hrest ▸ hclosed) (h hc)
      | cons d u =>
        obtain ⟨v, rest', hfirst⟩ := ih u (List.cons_eq_cons.mp htext).2
        exact ⟨c :: v, rest', (firstClosed_cons_iff h).mpr ⟨v, rfl, hfirst⟩⟩

/-! ## The name -/

theorem takeWhile_append_cons_of_neg {p : Char → Bool} (h : p c = false) (a u : Text) :
    (a ++ c :: u).takeWhile p = a.takeWhile p := by
  induction a with
  | nil => exact List.takeWhile_cons_of_neg (by simp [h])
  | cons d a ih => simp only [List.cons_append, List.takeWhile_cons, ih]

theorem rtakeWhile_append_cons_of_neg {p : Char → Bool} (h : p c = false) (a u : Text) :
    (a ++ c :: u).rtakeWhile p = u.rtakeWhile p := by
  simp only [List.rtakeWhile, List.reverse_append, List.reverse_cons, List.append_assoc,
    List.singleton_append, takeWhile_append_cons_of_neg h]

theorem rtakeWhile_eq_iff {p : Char → Bool} : u.rtakeWhile p = name ↔
    ∃ before, u = before ++ name ∧ (∀ c ∈ name, p c = true) ∧
      ∀ c, before.getLast? = some c → p c = false := by
  constructor
  · rintro rfl
    refine ⟨u.rdropWhile p, List.rdropWhile_append_rtakeWhile.symm,
      fun c hc => List.mem_rtakeWhile_imp hc, fun c hc => ?_⟩
    have hne : u.rdropWhile p ≠ [] := fun h => by
      rw [h] at hc
      cases hc
    have hlast := List.rdropWhile_last_not p u hne
    rw [List.getLast?_eq_some_getLast hne] at hc
    cases hc
    simpa using hlast
  · rintro ⟨before, rfl, hname, hbefore⟩
    have hself : name.rtakeWhile p = name := List.rtakeWhile_eq_self_iff.mpr hname
    rcases List.eq_nil_or_concat before with rfl | ⟨before, c, rfl⟩
    · exact hself
    · have hc : p c = false := hbefore c (by simp)
      rw [List.concat_eq_append, List.append_assoc, List.singleton_append,
        rtakeWhile_append_cons_of_neg hc, hself]

/-! ## The parts -/

theorem exists_firstClosed_cons_iff {P : Text → Text → Prop}
    (h : c = '[' → ¬ ClosedOnLine t) :
    (∃ u rest, FirstClosed (c :: t) u rest ∧ P u rest) ↔
      ∃ u rest, FirstClosed t u rest ∧ P (c :: u) rest := by
  constructor
  · rintro ⟨u, rest, hfirst, hP⟩
    obtain ⟨v, rfl, hv⟩ := (firstClosed_cons_iff h).mp hfirst
    exact ⟨v, rest, hv, hP⟩
  · rintro ⟨u, rest, hfirst, hP⟩
    exact ⟨c :: u, rest, (firstClosed_cons_iff h).mpr ⟨u, rfl, hfirst⟩, hP⟩

/-- The state of the scan is the word that ends here, so the name is the word at the end of the
state and the text in front of the bracket. -/
theorem filterPartsFrom_eq_some_iff {run : Text} (hrun : ∀ c ∈ run, isWord c = true) :
    filterPartsFrom run t = some (name, condition) ↔
      ∃ u rest, FirstClosed t u rest ∧ (run.reverse ++ u).rtakeWhile isWord = name ∧
        bracketed? rest = some condition := by
  induction t generalizing run with
  | nil => simp [filterPartsFrom, not_firstClosed_nil]
  | cons c t ih =>
    by_cases hopen : c = '['
    · subst hopen
      rw [filterPartsFrom, if_pos rfl]
      cases hcondition : bracketed? t with
      | some condition' =>
        have hclosed : ClosedOnLine t := closedOnLine_iff.mpr ⟨condition', hcondition⟩
        have hself : run.reverse.rtakeWhile isWord = run.reverse :=
          List.rtakeWhile_eq_self_iff.mpr fun c hc => hrun c (List.mem_reverse.mp hc)
        simp [firstClosed_bracket_iff hclosed, hcondition, hself]
      | none =>
        have hclosed : ¬ ClosedOnLine t := bracketed?_eq_none_iff.mp hcondition
        simp only [exists_firstClosed_cons_iff fun _ => hclosed, ih (List.forall_mem_nil _),
          rtakeWhile_append_cons_of_neg (show isWord '[' = false by decide)]
        rfl
    · rw [filterPartsFrom, if_neg hopen, exists_firstClosed_cons_iff fun h => absurd h hopen]
      by_cases hword : isWord c = true
      · rw [if_pos hword, ih (List.forall_mem_cons.mpr ⟨hword, hrun⟩)]
        simp only [List.reverse_cons, List.append_assoc, List.singleton_append]
      · rw [if_neg hword, ih (List.forall_mem_nil _)]
        simp only [rtakeWhile_append_cons_of_neg (Bool.eq_false_iff.mpr hword)]
        rfl

theorem filterParts?_eq_some_iff :
    filterParts? t = some (name, condition) ↔ FilterForm t name condition := by
  rw [filterParts?, filterPartsFrom_eq_some_iff (List.forall_mem_nil _)]
  constructor
  · rintro ⟨u, rest, hfirst, hname, hcondition⟩
    obtain ⟨before, rfl, hword, hwhole⟩ := rtakeWhile_eq_iff.mp hname
    obtain ⟨after, rfl, hline, hlast⟩ := bracketed?_eq_some_iff.mp hcondition
    exact ⟨before, after, hfirst, hword, hwhole, hline, hlast⟩
  · rintro ⟨before, after, h⟩
    exact ⟨_, _, h.bracket, rtakeWhile_eq_iff.mpr ⟨before, rfl, h.word, h.whole⟩,
      bracketed?_eq_some_iff.mpr ⟨after, rfl, h.line, h.last⟩⟩

theorem firstClosed_behind_word (hname : ∀ c ∈ name, isWord c = true) (h : ClosedOnLine t) :
    FirstClosed (name ++ '[' :: t) name t := by
  refine ⟨rfl, h, fun u rest htext hlt => ?_⟩
  have hget : (name ++ '[' :: t)[u.length]? = some '[' := by
    rw [htext]
    simp
  rw [List.getElem?_append_left hlt] at hget
  exact absurd (hname '[' (List.mem_of_getElem? hget)) (by decide)

/-- Of a word and brackets around a text of one line nothing is left out. -/
theorem filterForm_brackets (hname : ∀ c ∈ name, isWord c = true) (hline : '\n' ∉ condition) :
    FilterForm (name ++ '[' :: condition ++ [']']) name condition := by
  have hclosed : ClosedOnLine (condition ++ [']']) := ⟨condition, [], rfl, hline⟩
  refine ⟨[], [], ?_, hname, fun c hc => (by cases hc), hline, List.not_mem_nil⟩
  simpa using firstClosed_behind_word hname hclosed

theorem exists_filterForm_iff :
    (∃ name condition, FilterForm t name condition) ↔ HasClosedBracket t := by
  rw [← exists_firstClosed_iff]
  constructor
  · rintro ⟨name, condition, before, after, h⟩
    exact ⟨_, _, h.bracket⟩
  · rintro ⟨u, rest, hfirst⟩
    obtain ⟨condition, hcondition⟩ := closedOnLine_iff.mp hfirst.closed
    exact ⟨_, condition, filterParts?_eq_some_iff.mp
      ((filterPartsFrom_eq_some_iff (List.forall_mem_nil _)).mpr
        ⟨u, rest, hfirst, rfl, hcondition⟩)⟩

theorem filterParts?_eq_none_iff : filterParts? t = none ↔ ¬ HasClosedBracket t := by
  rw [← exists_filterForm_iff, Option.eq_none_iff_forall_ne_some, not_exists]
  simp only [not_exists, ← filterParts?_eq_some_iff, Prod.forall, ne_eq]

end DotQuery
