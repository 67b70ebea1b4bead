import DotQuery.Proofs.Query.Cache
import DotQuery.Proofs.Query.PlainPath

/-!
# Printing segments

The text of a segment is what was read without what reading leaves out: the text around the brackets
of a filter, the zeros in front of an index, the blanks and repetitions in a projection. It is read
as the same segment again (`Segment.normal_form`). Only the text of a projection with a single name
has no comma, so it is read as something else.
-/

namespace DotQuery.Segment

variable {t name condition : Text} {names : List Text}

/-! ## Indexes -/

theorem ofText_ofNat {place : Nat} (h : place ≤ maxIndex) :
    ofText (Text.ofNat place) = index place := by
  have hplain : ∀ c, isDigit c = false → c ∉ Text.ofNat place := fun c hc hmem => by
    rw [Text.isDigit_of_mem_ofNat hmem] at hc
    cases hc
  rw [ofText_of_not_mem (hplain _ (by decide)) (hplain _ (by decide)),
    if_pos (Text.allDigits_ofNat place), Text.natural_ofNat, Nat.min_eq_left h]

/-! ## Projections -/

theorem projectionForm_text (h : ∀ name ∈ names, ProjectionName name) (hlength : 2 ≤ names.length) :
    ProjectionForm (projection names).text (Text.joinWith [','] names) := by
  refine ⟨rfl, Text.not_mem_joinWith (by decide) fun name hname => (h name hname).closing, ?_⟩
  match names, hlength with
  | m :: n :: ns, _ => simp [Text.joinWith]

theorem ofText_text_projection (h : ∀ name ∈ names, ProjectionName name) (hnodup : names.Nodup)
    (hlength : 2 ≤ names.length) : ofText (projection names).text = projection names := by
  have hne : names ≠ [] := List.ne_nil_of_length_pos (by omega)
  have htrim : names.map Text.trim = names :=
    (List.map_congr_left fun name hname => (h name hname).trimmed).trans (List.map_id names)
  rw [ofText_projection (projectionForm_text h hlength),
    Text.splitOn_joinWith hne fun name hname => (h name hname).comma, htrim,
    firstOccurrences_of_nodup hnodup]

/-- A name has no comma, so braces around one name are no projection. -/
theorem ofText_text_single (h : ProjectionName name) (names : List Text) :
    ofText (projection [name]).text ≠ projection names := by
  intro hread
  have hform := readFrom_ofText (projection [name]).text
  rw [hread] at hform
  obtain ⟨-, -, -, inner, hform, -⟩ := hform
  have hinner : name = inner := by simpa [text, Text.joinWith] using hform.text
  exact h.comma (hinner ▸ hform.comma)

/-! ## Filters -/

theorem not_projectionForm_brackets (hname : ∀ c ∈ name, isWord c = true) (inner : Text) :
    ¬ ProjectionForm (name ++ '[' :: condition ++ [']']) inner := by
  intro h
  have hhead := congrArg List.head? h.text
  cases name with
  | nil => simp at hhead
  | cons c name =>
    obtain rfl : c = '\x7b' := by simpa using hhead
    exact absurd (hname _ List.mem_cons_self) (by decide)

theorem ofText_brackets (hname : ∀ c ∈ name, isWord c = true) (hline : '\n' ∉ condition) :
    ofText (name ++ '[' :: condition ++ [']']) =
      filter (if name = [] then none else some name) (.ofText condition) :=
  ofText_filter (not_projectionForm_brackets hname) (filterForm_brackets hname hline)

theorem ofText_text_filter {name? : Option Text} {p : Predicate}
    (hname : ∀ name, name? = some name → name ≠ [] ∧ ∀ c ∈ name, isWord c = true)
    (hline : '\n' ∉ p.source) :
    ofText (filter name? p).text = filter name? (.ofText p.source) := by
  cases name? with
  | none => exact ofText_brackets (List.forall_mem_nil _) hline
  | some name =>
    obtain ⟨hne, hword⟩ := hname name rfl
    exact (ofText_brackets hword hline).trans (by rw [if_neg hne])

/-! ## All segments -/

theorem ofText_text (h : ∀ name, ofText t ≠ projection [name]) :
    ofText (ofText t).text = ofText t := by
  have hread := readFrom_ofText t
  generalize hs : ofText t = s at h hread
  cases s with
  | field name =>
    obtain ⟨rfl, -⟩ := hread
    exact hs
  | index place =>
    obtain ⟨-, rfl⟩ := hread
    exact ofText_ofNat (Nat.min_le_right _ _)
  | projection names =>
    obtain ⟨hne, hnodup, hnames, -⟩ := hread
    match names, hne with
    | [name], _ => exact absurd rfl (h name)
    | m :: n :: ns, _ => exact ofText_text_projection hnames hnodup (by simp)
  | filter name? p =>
    obtain ⟨hname, hline, hparsed⟩ := hread
    rw [ofText_text_filter hname hline, ← Predicate.eq_ofText_of_not_parsed hparsed]

theorem ofText_text_of_single (h : ofText t = projection [name]) (names : List Text) :
    ofText (ofText t).text ≠ projection names := by
  have hread := readFrom_ofText t
  rw [h] at hread ⊢
  obtain ⟨-, -, hnames, -⟩ := hread
  exact ofText_text_single (hnames name List.mem_cons_self) names

theorem normal_form (t : Text) :
    (ofText (ofText t).text = ofText t ↔ ∀ name, ofText t ≠ projection [name]) ∧
      ∀ name, ofText t = projection [name] →
        ∀ names, ofText (ofText t).text ≠ projection names := by
  refine ⟨⟨fun hsame name h => ?_, ofText_text⟩, fun name h => ofText_text_of_single h⟩
  exact ofText_text_of_single h [name] (hsame.trans h)

/-- Braces around a single name are read as a filter if the name has the form of one. -/
theorem normal_form_single_name :
    ofText "\x7b a[x] ,a[x]\x7d".toList = projection ["a[x]".toList] ∧
      (projection ["a[x]".toList]).text = "\x7ba[x]\x7d".toList ∧
      ofText "\x7ba[x]\x7d".toList = filter (some ['a']) (.ofText ['x']) ∧
      ∀ names, ofText "\x7ba[x]\x7d".toList ≠ projection names := by
  have h : ofText "\x7b a[x] ,a[x]\x7d".toList = projection ["a[x]".toList] := by decide
  have hother := (normal_form "\x7b a[x] ,a[x]\x7d".toList).2 _ h
  rw [h] at hother
  exact ⟨h, rfl, by decide, hother⟩

end DotQuery.Segment
