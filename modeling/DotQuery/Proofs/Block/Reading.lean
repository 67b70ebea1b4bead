import DotQuery.Block.Basic
import DotQuery.Proofs.Block.DirectiveForm

/-!
# What the lines of a block say

`Says l x`: the line `l` is the directive `x`; a line that starts as a directive and is none is
ill-formed. Reading well-formed lines adds to a draft what they say, each sort of lines on its own
(`Draft.readLines_of_wellFormed`). Reading stops at the first line that is ill-formed
(`Draft.readLines_of_ill_formed`).
-/

namespace DotQuery.Block

variable {l : Text} {ls : List Text} {x : Directive}

/-! ## Lines -/

/-- A line is a directive, with blanks around it. -/
def Says (l : Text) (x : Directive) : Prop :=
  ∃ t, l.trim = Directive.marker ++ t ∧ Directive.Form t x

/-- A line that starts as a directive is one. -/
def WellFormed (l : Text) : Prop := Directive.marker <+: l.trim → ∃ x, Says l x

theorem isDirectiveLine_iff : isDirectiveLine l = true ↔ Directive.marker <+: l.trim := by
  rw [isDirectiveLine, ← Option.ne_none_iff_isSome, ne_eq, Text.afterToken?_eq_none_iff, not_not]

/-- The directive that a line is. -/
def directive? (l : Text) : Option Directive :=
  if isDirectiveLine l then (Directive.parse l.trim).toOption else none

theorem Says.isDirectiveLine (h : Says l x) : isDirectiveLine l = true := by
  obtain ⟨t, ht, -⟩ := h
  exact isDirectiveLine_iff.mpr ⟨t, ht.symm⟩

theorem says_iff : Says l x ↔ isDirectiveLine l = true ∧ Directive.parse l.trim = .ok x := by
  constructor
  · intro h
    refine ⟨h.isDirectiveLine, ?_⟩
    obtain ⟨t, ht, hform⟩ := h
    rw [ht]
    exact Directive.parse_eq_ok_iff.mpr hform
  · rintro ⟨hl, hparse⟩
    obtain ⟨t, ht⟩ := isDirectiveLine_iff.mp hl
    rw [← ht] at hparse
    exact ⟨t, ht.symm, Directive.parse_eq_ok_iff.mp hparse⟩

theorem directive?_eq_some_iff : directive? l = some x ↔ Says l x := by
  rw [says_iff, directive?]
  cases hparse : Directive.parse l.trim <;> simp [Except.toOption]

theorem wellFormed_iff :
    WellFormed l ↔ (isDirectiveLine l = true → (directive? l).isSome = true) := by
  simp only [WellFormed, isDirectiveLine_iff, Option.isSome_iff_exists, directive?_eq_some_iff]

theorem WellFormed.says_or_body (h : WellFormed l) :
    (∃ x, Says l x) ∨ isDirectiveLine l = false := by
  cases hl : isDirectiveLine l with
  | true => exact .inl (h (isDirectiveLine_iff.mp hl))
  | false => exact .inr rfl

instance : DecidablePred WellFormed := fun _ => decidable_of_iff _ wellFormed_iff.symm

/-! ## What lines say -/

namespace Directive

@[simp] def id? : Directive → Option Text
  | .id t => some t
  | _ => none

@[simp] def description? : Directive → Option Text
  | .description t => some t
  | _ => none

@[simp] def file? : Directive → Option Text
  | .file t => some t
  | _ => none

end Directive

/-- The texts of the directives of one sort. -/
def texts (select : Directive → Option Text) (ls : List Text) : List Text :=
  ls.filterMap fun l => (directive? l).bind select

def hidesHeader (ls : List Text) : Bool := ls.any fun l => directive? l = some .hideHeader

def bodyLines (ls : List Text) : List Text :=
  ls.filter fun l => ¬ Directive.marker <+: l.trim

theorem texts_cons (select : Directive → Option Text) (l : Text) (ls : List Text) :
    texts select (l :: ls) = ((directive? l).bind select).toList ++ texts select ls := by
  rw [texts, List.filterMap_cons]
  cases (directive? l).bind select <;> rfl

theorem hidesHeader_cons (l : Text) (ls : List Text) :
    hidesHeader (l :: ls) = (directive? l = some .hideHeader || hidesHeader ls) :=
  List.any_cons

theorem bodyLines_cons_of_directive (h : isDirectiveLine l = true) (ls : List Text) :
    bodyLines (l :: ls) = bodyLines ls :=
  List.filter_cons_of_neg (by simp [isDirectiveLine_iff.mp h])

theorem bodyLines_cons_of_body (h : isDirectiveLine l = false) (ls : List Text) :
    bodyLines (l :: ls) = l :: bodyLines ls :=
  List.filter_cons_of_pos (by simp [← isDirectiveLine_iff, h])

namespace Draft

/-- A draft with what some lines say. -/
def after (d : Draft) (ls : List Text) : Draft where
  id := d.id.or (texts Directive.id? ls).head?
  description := d.description.or ((texts Directive.description? ls).find? (· ≠ []))
  showHeader := d.showHeader && !hidesHeader ls
  file := d.file.or (texts Directive.file? ls).head?
  body := (bodyLines ls).reverse ++ d.body

theorem after_nil (d : Draft) : d.after [] = d := by
  simp [after, texts, hidesHeader, bodyLines]

theorem after_cons_of_says (h : Says l x) (d : Draft) (ls : List Text) :
    d.after (l :: ls) = (d.follow x).after ls := by
  have hx : directive? l = some x := directive?_eq_some_iff.mpr h
  simp only [after, texts_cons, hidesHeader_cons, bodyLines_cons_of_directive h.isDirectiveLine, hx]
  cases x with
  | id t => simp [follow]
  | description t =>
    by_cases ht : t = []
    · simp [follow, ht]
    · simp [follow, ht]
  | hideHeader => simp [follow]
  | file t => simp [follow]

theorem after_cons_of_body (h : isDirectiveLine l = false) (d : Draft) (ls : List Text) :
    d.after (l :: ls) = { d with body := l :: d.body }.after ls := by
  have hnone : directive? l = none := if_neg (by simp [h])
  simp [after, texts_cons, hidesHeader_cons, bodyLines_cons_of_body h, hnone]

/-! ## Reading -/

theorem readLine_of_says (h : Says l x) (d : Draft) : d.readLine l = .ok (d.follow x) := by
  obtain ⟨hl, hparse⟩ := says_iff.mp h
  rw [readLine, if_pos hl, hparse]
  rfl

theorem readLine_of_body (h : isDirectiveLine l = false) (d : Draft) :
    d.readLine l = .ok { d with body := l :: d.body } :=
  if_neg (by simp [h])

theorem readLine_of_ill_formed (h : ¬ WellFormed l) (d : Draft) :
    ∃ e, Directive.parse l.trim = .error e ∧ d.readLine l = .error e := by
  obtain ⟨hl, hnone⟩ := Classical.not_imp.mp h
  have hl : isDirectiveLine l = true := isDirectiveLine_iff.mpr hl
  cases hparse : Directive.parse l.trim with
  | error e =>
    refine ⟨e, rfl, ?_⟩
    rw [readLine, if_pos hl, hparse]
    rfl
  | ok x => exact absurd ⟨x, says_iff.mpr ⟨hl, hparse⟩⟩ hnone

theorem readLines_append_of_wellFormed {before : List Text} (h : ∀ l ∈ before, WellFormed l)
    (d : Draft) (ls : List Text) :
    d.readLines (before ++ ls) = (d.after before).readLines ls := by
  induction before generalizing d with
  | nil => rw [after_nil, List.nil_append]
  | cons l before ih =>
    obtain ⟨hl, hbefore⟩ := List.forall_mem_cons.mp h
    rw [List.cons_append]
    rcases hl.says_or_body with ⟨x, hx⟩ | hbody
    · rw [readLines, readLine_of_says hx, after_cons_of_says hx]
      exact ih hbefore (d.follow x)
    · rw [readLines, readLine_of_body hbody, after_cons_of_body hbody]
      exact ih hbefore _

theorem readLines_of_wellFormed (h : ∀ l ∈ ls, WellFormed l) (d : Draft) :
    d.readLines ls = .ok (d.after ls) := by
  have hread := readLines_append_of_wellFormed h d []
  rwa [List.append_nil] at hread

theorem readLines_of_ill_formed {before : List Text} (h : ∀ k ∈ before, WellFormed k)
    (hl : ¬ WellFormed l) (d : Draft) (ls : List Text) :
    ∃ e, Directive.parse l.trim = .error e ∧ d.readLines (before ++ l :: ls) = .error e := by
  obtain ⟨e, hparse, hread⟩ := readLine_of_ill_formed hl (d.after before)
  refine ⟨e, hparse, ?_⟩
  rw [readLines_append_of_wellFormed h, readLines, hread]
  rfl

end Draft

end DotQuery.Block
