import DotQuery.Proofs.Query.FilterForm
import DotQuery.Proofs.Query.FilterPattern
import DotQuery.Proofs.Query.ProjectionForm

/-!
# How a piece is read

A piece of a query is a projection if it has the form of one. Otherwise it is a filter exactly if
one of its brackets is closed on its line, and the parts of the filter are the same by the form of
the text and by a search for a regular expression; else it is an index or a field
(`Segment.ofText_of_not_projection`). `Segment.ReadFrom` says what evaluation relies on without
looking again; it holds of every segment that a text is read as (`Segment.readFrom_ofText`).
-/

namespace DotQuery

namespace Segment

/-- What holds of a segment that has been read from a text. -/
def ReadFrom (t : Text) : Segment → Prop
  | field name => name = t ∧ name.allDigits = false ∧ ∀ inner, ¬ ProjectionForm name inner
  | index place => t.allDigits = true ∧ place = min t.natural maxIndex
  | projection names => names ≠ [] ∧ names.Nodup ∧ (∀ name ∈ names, ProjectionName name) ∧
      ∃ inner, ProjectionForm t inner ∧
        FirstOccurrencesOf names ((Text.splitOn ',' inner).map Text.trim)
  | filter name? p => (∀ name, name? = some name → name ≠ [] ∧ ∀ c ∈ name, isWord c = true) ∧
      '\n' ∉ p.source ∧ p.isParsed = false

variable {t : Text}

theorem ofText_projection {inner : Text} (h : ProjectionForm t inner) :
    ofText t = projection (firstOccurrences ((Text.splitOn ',' inner).map Text.trim)) := by
  rw [ofText, projectionNames?_eq_some_iff.mpr ⟨inner, h, rfl⟩]

theorem ofText_filter (h : ∀ inner, ¬ ProjectionForm t inner) {name condition : Text}
    (hform : FilterForm t name condition) :
    ofText t = filter (if name = [] then none else some name) (.ofText condition) := by
  rw [ofText, projectionNames?_eq_none_iff.mpr h, filterParts?_eq_some_iff.mpr hform]

theorem ofText_other (h : ∀ inner, ¬ ProjectionForm t inner) (hform : ¬ HasClosedBracket t) :
    ofText t = if t.allDigits then index (min t.natural maxIndex) else field t := by
  rw [ofText, projectionNames?_eq_none_iff.mpr h, filterParts?_eq_none_iff.mpr hform]

theorem ofText_eq_filter_iff (h : ∀ inner, ¬ ProjectionForm t inner) {name? : Option Text}
    {p : Predicate} : ofText t = filter name? p ↔ ∃ name condition, FilterForm t name condition ∧
      name? = (if name = [] then none else some name) ∧ p = .ofText condition := by
  constructor
  · intro hfilter
    by_cases hform : HasClosedBracket t
    · obtain ⟨name, condition, hform⟩ := exists_filterForm_iff.mpr hform
      rw [ofText_filter h hform] at hfilter
      cases hfilter
      exact ⟨name, condition, hform, rfl, rfl⟩
    · rw [ofText_other h hform] at hfilter
      split at hfilter <;> cases hfilter
  · rintro ⟨name, condition, hform, rfl, rfl⟩
    exact ofText_filter h hform

theorem readFrom_projection {inner : Text} (h : ProjectionForm t inner) :
    (ofText t).ReadFrom t := by
  have hnames := firstOccurrencesOf_firstOccurrences ((Text.splitOn ',' inner).map Text.trim)
  rw [ofText_projection h]
  refine ⟨?_, hnames.nodup, fun name hname => ?_, inner, h, hnames⟩
  · obtain ⟨p, ps, hps⟩ := List.exists_cons_of_ne_nil (Text.splitOn_ne_nil ',' inner)
    rw [hps]
    exact List.cons_ne_nil _ _
  · exact h.projectionName ((hnames.mem_iff name).mp hname)

theorem readFrom_filter (h : ∀ inner, ¬ ProjectionForm t inner) {name condition : Text}
    (hform : FilterForm t name condition) : (ofText t).ReadFrom t := by
  obtain ⟨before, after, hparts⟩ := hform
  rw [ofText_filter h ⟨before, after, hparts⟩]
  refine ⟨fun n hn => ?_, hparts.line, rfl⟩
  split at hn
  · cases hn
  · next hname =>
    cases hn
    exact ⟨hname, hparts.word⟩

theorem readFrom_ofText (t : Text) : (ofText t).ReadFrom t := by
  by_cases h : ∃ inner, ProjectionForm t inner
  · obtain ⟨inner, h⟩ := h
    exact readFrom_projection h
  rw [not_exists] at h
  by_cases hform : HasClosedBracket t
  · obtain ⟨name, condition, hform⟩ := exists_filterForm_iff.mpr hform
    exact readFrom_filter h hform
  · rw [ofText_other h hform]
    split
    · next hdigits => exact ⟨hdigits, rfl⟩
    · next hdigits => exact ⟨rfl, Bool.eq_false_iff.mpr hdigits, h⟩

theorem search_filterPattern_eq_some_iff {groups : List Text} :
    filterPattern.search t = some groups ↔
      ∃ name condition, groups = [name, condition] ∧ FilterForm t name condition := by
  simp only [search_filterPattern, Option.map_eq_some_iff, Prod.exists, filterParts?_eq_some_iff,
    and_comm, @eq_comm _ groups]

theorem ofText_of_not_projection (h : ∀ inner, ¬ ProjectionForm t inner) :
    ((∃ name? p, ofText t = filter name? p) ↔ HasClosedBracket t) ∧
      (∀ name? p, ofText t = filter name? p ↔ ∃ name condition, FilterForm t name condition ∧
        name? = (if name = [] then none else some name) ∧ p = .ofText condition) ∧
      (¬ HasClosedBracket t →
        ofText t = if t.allDigits then index (min t.natural maxIndex) else field t) ∧
      ∀ groups, filterPattern.search t = some groups ↔
        ∃ name condition, groups = [name, condition] ∧ FilterForm t name condition := by
  refine ⟨?_, fun name? p => ofText_eq_filter_iff h, ofText_other h,
    fun groups => search_filterPattern_eq_some_iff⟩
  simp only [ofText_eq_filter_iff h, ← exists_filterForm_iff]
  constructor
  · rintro ⟨name?, p, name, condition, hform, -⟩
    exact ⟨name, condition, hform⟩
  · rintro ⟨name, condition, hform⟩
    exact ⟨_, _, name, condition, hform, rfl, rfl⟩

/-- The bracket of the first line is open at its end, the hyphen is no part of the word, and the
brackets in the condition and behind it on the line do not end it. -/
theorem ofText_of_several_brackets :
    (∀ inner, ¬ ProjectionForm "a[x\nmy-tags[tag==[x]]y]z\n]".toList inner) ∧
      ofText "a[x\nmy-tags[tag==[x]]y]z\n]".toList =
        filter (some "tags".toList) (.ofText "tag==[x]]y".toList) := by
  have hform : ∀ inner, ¬ ProjectionForm "a[x\nmy-tags[tag==[x]]y]z\n]".toList inner :=
    projectionNames?_eq_none_iff.mp (by decide)
  obtain ⟨-, hfilter, -, -⟩ := ofText_of_not_projection hform
  exact ⟨hform, (hfilter _ _).mpr ⟨"tags".toList, "tag==[x]]y".toList,
    filterParts?_eq_some_iff.mp (by decide), by decide, rfl⟩⟩

end Segment

end DotQuery
