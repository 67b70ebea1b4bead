import DotQuery.Proofs.Block.Outcome

/-!
# Repeated directives

Of several directives of one sort the first should count, and a draft stays as it is when it follows
one more (`Draft.follow_of_repeats`). The rule fails for descriptions: an empty one is passed over,
unlike an empty id or file, and the next one counts (`Draft.follow_of_firstDescription`). From these
steps, what one more line does to a block (`parse_with_repeated`).
-/

namespace DotQuery.Block

variable {source source' l t : Text} {ls before after : List Text} {x : Directive} {b : Block}

/-! ## Sorts of directives -/

/-- The same label between the marker and the text. -/
inductive Directive.SameSort : Directive → Directive → Prop where
  | id (s t : Text) : SameSort (.id s) (.id t)
  | description (s t : Text) : SameSort (.description s) (.description t)
  | hideHeader : SameSort .hideHeader .hideHeader
  | file (s t : Text) : SameSort (.file s) (.file t)

/-- One of the lines has a directive of the same sort. -/
def Repeats (ls : List Text) (x : Directive) : Prop := ∃ l ∈ ls, ∃ y, Says l y ∧ y.SameSort x

/-- A description that is not empty, where all those of the lines are. -/
def FirstDescription (ls : List Text) (t : Text) : Prop :=
  t ≠ [] ∧ ∀ s ∈ texts Directive.description? ls, s = []

theorem exists_head_texts (select : Directive → Option Text) (hl : l ∈ ls) (hx : Says l x)
    (ht : select x = some t) :
    ∃ s, (texts select ls).head? = some s := by
  have hmem : t ∈ texts select ls := by
    simp only [texts, List.mem_filterMap, Option.bind_eq_some_iff, directive?_eq_some_iff]
    exact ⟨l, hl, x, hx, ht⟩
  exact ⟨_, List.head?_eq_some_head (List.ne_nil_of_mem hmem)⟩

theorem hidesHeader_of_says (hl : l ∈ ls) (h : Says l .hideHeader) : hidesHeader ls = true :=
  List.any_eq_true.mpr ⟨l, hl, by simpa [directive?_eq_some_iff] using h⟩

theorem exists_description (ht : t ≠ []) (h : ¬ FirstDescription ls t) :
    ∃ s, (texts Directive.description? ls).find? (· ≠ []) = some s := by
  cases hfind : (texts Directive.description? ls).find? (· ≠ []) with
  | some s => exact ⟨s, rfl⟩
  | none => exact absurd ⟨ht, by simpa using hfind⟩ h

theorem FirstDescription.find_eq_none (h : FirstDescription ls t) :
    (texts Directive.description? ls).find? (· ≠ []) = none := by
  simpa using h.2

/-! ## One directive -/

namespace Draft

theorem follow_of_repeats (h : Repeats ls x)
    (hx : ∀ t, x = .description t → ¬ FirstDescription ls t) (d : Draft) :
    (d.after ls).follow x = d.after ls := by
  obtain ⟨l, hl, y, hy, hsort⟩ := h
  cases hsort with
  | id s t =>
    obtain ⟨first, hfirst⟩ := exists_head_texts Directive.id? hl hy rfl
    simp [follow, after, hfirst]
  | description s t =>
    by_cases ht : t = []
    · simp [follow, ht]
    · obtain ⟨first, hfirst⟩ := exists_description ht (hx t rfl)
      simp only [follow, if_neg ht, after, hfirst, Option.or_assoc, Option.some_or]
  | hideHeader => simp [follow, after, hidesHeader_of_says hl hy]
  | file s t =>
    obtain ⟨first, hfirst⟩ := exists_head_texts Directive.file? hl hy rfl
    simp [follow, after, hfirst]

theorem follow_of_firstDescription (h : FirstDescription ls t) :
    (empty.after ls).follow (.description t) = { empty.after ls with description := some t } := by
  simp only [follow, if_neg h.1, after, h.find_eq_none, empty, Option.or_none, Option.none_or]

/-! ## The lines behind it -/

theorem after_append (d : Draft) (ls ms : List Text) :
    d.after (ls ++ ms) = (d.after ls).after ms := by
  simp only [after, texts, hidesHeader, bodyLines, List.filterMap_append, List.head?_append,
    List.find?_append, List.any_append, List.filter_append, List.reverse_append, Option.or_assoc,
    List.append_assoc, Bool.not_or, Bool.and_assoc]

theorem after_with_description (d : Draft) (t : Text) (ls : List Text) :
    { d with description := some t }.after ls = { d.after ls with description := some t } := by
  simp only [after, Option.some_or]

theorem finish_with_description (d : Draft) (t : Option Text) :
    { d with description := t }.finish =
      d.finish.map fun b => { b with description := t } := by
  obtain ⟨_ | text, _, showHeader, file, body⟩ := d
  · rfl
  · simp only [finish]
    split <;> rfl

end Draft

/-! ## One more line -/

theorem wellFormed_of_parse_eq_ok (h : parse source = .ok b) :
    ∀ l ∈ source.lines, WellFormed l := by
  cases parse_eq_iff.mp h with
  | block good _ _ => exact good

theorem parse_with_line (hsource : source.lines = before ++ after)
    (hsource' : source'.lines = before ++ l :: after) (hl : Says l x) (h : parse source = .ok b) :
    parse source' = (((Draft.empty.after before).follow x).after after).finish := by
  have hgood := wellFormed_of_parse_eq_ok h
  have hgood' : ∀ k ∈ source'.lines, WellFormed k := by
    simp only [hsource, hsource', List.mem_append, List.mem_cons] at hgood ⊢
    rintro k (hk | rfl | hk)
    · exact hgood k (.inl hk)
    · exact fun _ => ⟨x, hl⟩
    · exact hgood k (.inr hk)
  rw [parse_of_wellFormed hgood', hsource', Draft.after_append, Draft.after_cons_of_says hl]

/-- One more line with a directive of a sort that is there before it changes nothing, except that a
description counts where all before it are empty. -/
theorem parse_with_repeated (hsource : Text.InLines (before ++ after) source)
    (hsource' : Text.InLines (before ++ l :: after) source') (hl : Says l x)
    (hx : Repeats before x) (h : parse source = .ok b) :
    ((∀ t, x = .description t → ¬ FirstDescription before t) → parse source' = .ok b) ∧
      ∀ t, x = .description t → FirstDescription before t →
        parse source' = .ok { b with description := some t } := by
  rw [Text.inLines_iff] at hsource hsource'
  have hb : ((Draft.empty.after before).after after).finish = .ok b := by
    rw [← Draft.after_append, ← hsource, ← parse_of_wellFormed (wellFormed_of_parse_eq_ok h), h]
  rw [parse_with_line hsource hsource' hl h]
  refine ⟨fun hfirst => ?_, fun t ht hfirst => ?_⟩
  · rw [Draft.follow_of_repeats hx hfirst, hb]
  · subst ht
    rw [Draft.follow_of_firstDescription hfirst, Draft.after_with_description,
      Draft.finish_with_description, hb]
    rfl

/-- A file behind an empty one is not read, a description behind an empty one is. -/
theorem parse_with_repeated_behind_empty :
    parse "#qj-id: 1\n#qj-file:\n #qj-file: a\n[]".toList = .ok ⟨1, none, true, none, "[]".toList⟩ ∧
      parse "#qj-id: 1\n#qj-id-desc:\n#qj-id-desc: a\n[]".toList =
        .ok ⟨1, some "a".toList, true, none, "[]".toList⟩ := by
  let id := "#qj-id: 1".toList
  let file := "#qj-file:".toList
  let description := "#qj-id-desc:".toList
  have hfile : Says file (.file []) := directive?_eq_some_iff.mp rfl
  have hdescription : Says description (.description []) := directive?_eq_some_iff.mp rfl
  constructor
  · have hsource : Text.InLines ([id, file] ++ ["[]".toList]) "#qj-id: 1\n#qj-file:\n[]".toList :=
      Text.inLines_iff.mpr rfl
    have hsource' : Text.InLines ([id, file] ++ " #qj-file: a".toList :: ["[]".toList])
        "#qj-id: 1\n#qj-file:\n #qj-file: a\n[]".toList := Text.inLines_iff.mpr rfl
    have hl : Says " #qj-file: a".toList (.file "a".toList) := directive?_eq_some_iff.mp rfl
    have hrepeats : Repeats [id, file] (.file "a".toList) := ⟨file, by simp, _, hfile, .file _ _⟩
    exact (parse_with_repeated hsource hsource' hl hrepeats rfl).1 nofun
  · have hsource : Text.InLines ([id, description] ++ ["[]".toList])
        "#qj-id: 1\n#qj-id-desc:\n[]".toList := Text.inLines_iff.mpr rfl
    have hsource' : Text.InLines ([id, description] ++ "#qj-id-desc: a".toList :: ["[]".toList])
        "#qj-id: 1\n#qj-id-desc:\n#qj-id-desc: a\n[]".toList := Text.inLines_iff.mpr rfl
    have hl : Says "#qj-id-desc: a".toList (.description "a".toList) :=
      directive?_eq_some_iff.mp rfl
    have hrepeats : Repeats [id, description] (.description "a".toList) :=
      ⟨description, by simp, _, hdescription, .description _ _⟩
    have hblock : parse "#qj-id: 1\n#qj-id-desc:\n[]".toList =
        .ok ⟨1, none, true, none, "[]".toList⟩ := rfl
    have hfirst : FirstDescription [id, description] "a".toList := ⟨by decide, by decide⟩
    exact (parse_with_repeated hsource hsource' hl hrepeats hblock).2 _ rfl hfirst

/-- A description behind an empty one is not the first and counts nevertheless. -/
theorem description_behind_empty_counts :
    ¬ ∀ (source source' l : Text) (before after : List Text) (x : Directive) (b : Block),
      Text.InLines (before ++ after) source → Text.InLines (before ++ l :: after) source' →
        Says l x → x ≠ .hideHeader → Repeats before x → parse source = .ok b →
          parse source' = .ok b := by
  intro h
  let lines := ["#qj-id: 1".toList, "#qj-id-desc:".toList]
  have hempty : Says "#qj-id-desc:".toList (.description []) := directive?_eq_some_iff.mp rfl
  have hsource : Text.InLines (lines ++ []) "#qj-id: 1\n#qj-id-desc:".toList :=
    Text.inLines_iff.mpr rfl
  have hsource' : Text.InLines (lines ++ "#qj-id-desc: x".toList :: [])
      "#qj-id: 1\n#qj-id-desc:\n#qj-id-desc: x".toList := Text.inLines_iff.mpr rfl
  have hl : Says "#qj-id-desc: x".toList (.description "x".toList) := directive?_eq_some_iff.mp rfl
  have hrepeats : Repeats lines (.description "x".toList) :=
    ⟨"#qj-id-desc:".toList, by simp [lines], _, hempty, .description _ _⟩
  have hsame := h _ _ _ _ _ _ ⟨1, none, true, none, []⟩ hsource hsource' hl nofun hrepeats rfl
  exact absurd hsame (by decide)

end DotQuery.Block
