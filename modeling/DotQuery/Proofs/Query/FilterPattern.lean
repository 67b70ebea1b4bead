import DotQuery.Proofs.Text.Pattern
import DotQuery.Query.Compile

/-!
# The filter form as a regular expression

`filterParts?` reads a text once and finds what a backtracking search for the regular expression
`([A-Za-z0-9_]*)\[(.*)\]` finds (`search_filterPattern`). At one place the search prefers the whole
word and the last closing bracket of the line (`groups_filterPattern`). A place inside a word has a
match exactly if the place behind that word has one, so the leftmost place is the first one of the
word in front of the first bracket that is closed.
-/

namespace DotQuery

open Text (Pattern Way runs)

/-- The expression `(.*)\]`, where a dot is every character but a line feed. -/
def conditionPattern : Pattern := .seq (.group (.many (· ≠ '\n'))) (.one (· = ']'))

/-- The expression `([A-Za-z0-9_]*)\[(.*)\]`. -/
def filterPattern : Pattern :=
  .seq (.group (.many isWord)) (.seq (.one (· = '[')) conditionPattern)

/-- The word at the beginning of a text and, if a bracket follows, the condition in it. -/
def filterPartsAt? (t : Text) : Option (Text × Text) :=
  match t.dropWhile isWord with
  | '[' :: rest => (bracketed? rest).map fun condition => (t.takeWhile isWord, condition)
  | _ => none

variable {t : Text} {c : Char}

/-! ## One place -/

theorem groups_conditionPattern (t : Text) :
    ((conditionPattern.ways t).head?).map Way.groups =
      (bracketed? t).map fun condition => [condition] := by
  have hline := Text.findSome?_runs_before (· ≠ '\n') ']' (by decide) (fun run => [run]) t
  simp only [bracketed?, Option.map_map, Function.comp_def] at hline ⊢
  rw [← hline]
  simp only [conditionPattern, Pattern.ways, List.map_map, List.flatMap_map, List.head?_flatMap,
    List.map_findSome?, Function.comp_def]
  congr 1
  funext x
  obtain ⟨run, rest⟩ := x
  cases rest with
  | nil => rfl
  | cons c rest => by_cases hc : c = ']' <;> simp [Pattern.ways, hc]

/-- A shorter word ends before a character of the word and not before a bracket. -/
theorem groups_filterPattern (t : Text) :
    ((filterPattern.ways t).head?).map Way.groups =
      (filterPartsAt? t).map fun parts => [parts.1, parts.2] := by
  have hne : ∀ c, isWord c = true → c ≠ '[' := fun c hc e => by
    subst e
    cases hc
  rw [filterPattern, Pattern.ways, Pattern.ways, Pattern.ways, List.map_map, List.flatMap_map,
    Text.flatMap_runs_of_stop fun run c rest hc => by
      simp [Pattern.ways_one_seq, hne c hc]]
  unfold filterPartsAt?
  split
  · next rest h =>
    have hcondition := congrArg (Option.map ([t.takeWhile isWord] ++ ·))
      (groups_conditionPattern rest)
    rw [Option.map_map, Option.map_map] at hcondition
    rw [h]
    simp only [Function.comp_def, Pattern.ways_one_seq, decide_true, if_true, List.head?_map,
      Option.map_map]
    exact hcondition
  · next h =>
    cases hrest : t.dropWhile isWord with
    | nil => rfl
    | cons c rest =>
      have hc : c ≠ '[' := fun e => h rest (e ▸ hrest)
      simp [Pattern.ways_one_seq, hc]

/-! ## All places -/

theorem filterPartsAt?_bracket (t : Text) :
    filterPartsAt? ('[' :: t) = (bracketed? t).map fun condition => ([], condition) := rfl

theorem filterPartsAt?_of_neither (hopen : c ≠ '[') (hword : isWord c = false) (t : Text) :
    filterPartsAt? (c :: t) = none := by
  have hdrop : (c :: t).dropWhile isWord = c :: t := List.dropWhile_cons_of_neg (by simp [hword])
  unfold filterPartsAt?
  rw [hdrop]
  split
  · next e => exact absurd (List.cons_eq_cons.mp e).1 hopen
  · rfl

/-- A word in front of a place does not change whether it has a match. -/
theorem filterPartsAt?_append {run : Text} (hrun : ∀ c ∈ run, isWord c = true) (t : Text) :
    filterPartsAt? (run ++ t) = (filterPartsAt? t).map fun parts => (run ++ parts.1, parts.2) := by
  unfold filterPartsAt?
  rw [List.dropWhile_append_of_pos hrun, List.takeWhile_append_of_pos hrun]
  split
  · rw [Option.map_map]
    rfl
  · rfl

theorem findSome?_tails_cons (h : filterPartsAt? (c :: t) = none) :
    (c :: t).tails.findSome? filterPartsAt? = t.tails.findSome? filterPartsAt? := by
  rw [List.tails_cons, List.findSome?_cons_of_isNone (Option.isNone_iff_eq_none.mpr h)]

theorem findSome?_tails_append {run : Text} (hrun : ∀ c ∈ run, isWord c = true)
    (ht : filterPartsAt? t = none) :
    (run ++ t).tails.findSome? filterPartsAt? = t.tails.findSome? filterPartsAt? := by
  induction run with
  | nil => rfl
  | cons c run ih =>
    have hnone : filterPartsAt? (c :: run ++ t) = none := by
      rw [filterPartsAt?_append hrun, ht]
      rfl
    exact (findSome?_tails_cons hnone).trans (ih fun d hd => hrun d (List.mem_cons_of_mem c hd))

/-- The state of the scan is the word that ends here; none of its places has a match yet, and all of
them have one if this place has. -/
theorem findSome?_tails_eq_filterPartsFrom {run : Text} (hrun : ∀ c ∈ run, isWord c = true) :
    (run.reverse ++ t).tails.findSome? filterPartsAt? = filterPartsFrom run t := by
  have hreverse : ∀ c ∈ run.reverse, isWord c = true := fun c hc =>
    hrun c (List.mem_reverse.mp hc)
  induction t generalizing run with
  | nil => exact findSome?_tails_append hreverse rfl
  | cons c t ih =>
    -- A place without a match ends the word, so the scan goes on with no word in front.
    have hskip (h : filterPartsAt? (c :: t) = none) :
        (run.reverse ++ c :: t).tails.findSome? filterPartsAt? = filterPartsFrom [] t := by
      rw [findSome?_tails_append hreverse h, findSome?_tails_cons h]
      exact ih (List.forall_mem_nil _) (List.forall_mem_nil _)
    by_cases hopen : c = '['
    · subst hopen
      rw [filterPartsFrom, if_pos rfl]
      cases hcondition : bracketed? t with
      | none => exact hskip (by rw [filterPartsAt?_bracket, hcondition]; rfl)
      | some condition =>
        have hfirst : filterPartsAt? (run.reverse ++ '[' :: t) = some (run.reverse, condition) := by
          rw [filterPartsAt?_append hreverse, filterPartsAt?_bracket, hcondition]
          simp
        cases hplaces : run.reverse ++ '[' :: t with
        | nil => simp at hplaces
        | cons d u =>
          rw [hplaces] at hfirst
          rw [List.tails_cons, List.findSome?_cons_of_isSome] <;> simp [hfirst]
    · rw [filterPartsFrom, if_neg hopen]
      by_cases hword : isWord c = true
      · have hlonger : ∀ d ∈ c :: run, isWord d = true := List.forall_mem_cons.mpr ⟨hword, hrun⟩
        rw [if_pos hword, ← ih hlonger fun d hd => hlonger d (List.mem_reverse.mp hd)]
        simp only [List.reverse_cons, List.append_assoc, List.singleton_append]
      · rw [if_neg hword]
        exact hskip (filterPartsAt?_of_neither hopen (Bool.eq_false_iff.mpr hword) t)

theorem search_filterPattern (t : Text) :
    filterPattern.search t = (filterParts? t).map fun parts => [parts.1, parts.2] := by
  have htails : t.tails.findSome? filterPartsAt? = filterParts? t :=
    findSome?_tails_eq_filterPartsFrom (List.forall_mem_nil _)
  rw [Pattern.search, ← htails, List.map_findSome?]
  simp only [groups_filterPattern, Function.comp_def]

/-- The first bracket is open at the end of its line. -/
example : filterPattern.search "x[\na-b[c[d]e]f".toList = some ["b".toList, "c[d]e".toList] := by
  decide

end DotQuery
