import Mathlib.Data.List.DropRight
import DotQuery.Block.Directive
import DotQuery.Proofs.Text.Cut

/-!
# The forms of directives

What the lexers accept, as conditions on the text in front of them, and from these the grammar of
directives (`Directive.Form`): a directive line is read without an error exactly if the text behind
the marker has one of four forms, which also gives the directive (`Directive.parse_eq_ok_iff`).
-/

namespace DotQuery.Block

/-- No line ends in the text. -/
def OneLine (t : Text) : Prop := ∀ c ∈ t, isLineEnd c = false

variable {t r v label word : Text}

/-! ## Lexers -/

theorem restOfLine_of_oneLine (h : OneLine t) : restOfLine t = ⟨some t, []⟩ := by
  have hall : ∀ c ∈ t, (!isLineEnd c) = true := fun c hc => by rw [h c hc]; rfl
  rw [restOfLine, List.takeWhile_eq_self_iff.mpr hall, List.dropWhile_eq_nil_iff.mpr hall]

theorem oneLine_of_rest_eq_nil (h : (restOfLine t).rest = []) : OneLine t := by
  intro c hc
  have hall := List.dropWhile_eq_nil_iff.mp h c hc
  simpa using hall

theorem isBlank_of_isInlineBlank {c : Char} (h : isInlineBlank c = true) : isBlank c = true := by
  rcases Bool.or_eq_true_iff.mp h with h | h <;> rw [beq_iff_eq.mp h] <;> rfl

theorem isLineEnd_of_isInlineBlank {c : Char} (h : isInlineBlank c = true) :
    isLineEnd c = false := by
  rcases Bool.or_eq_true_iff.mp h with h | h <;> rw [beq_iff_eq.mp h] <;> rfl

theorem trim_dropWhile_isInlineBlank (t : Text) :
    Text.trim (t.dropWhile isInlineBlank) = t.trim := by
  induction t with
  | nil => rfl
  | cons c t ih =>
    by_cases hc : isInlineBlank c = true
    · rw [List.dropWhile_cons_of_pos hc, ih, Text.trim_cons_blank (isBlank_of_isInlineBlank hc)]
    · rw [List.dropWhile_cons_of_neg hc]

theorem oneLine_dropWhile_isInlineBlank_iff :
    OneLine (t.dropWhile isInlineBlank) ↔ OneLine t := by
  constructor
  · intro h c hc
    rw [← List.takeWhile_append_dropWhile (p := isInlineBlank) (l := t), List.mem_append] at hc
    rcases hc with hc | hc
    · exact isLineEnd_of_isInlineBlank (List.mem_takeWhile_imp hc)
    · exact h c hc
  · exact fun h c hc => h c ((List.dropWhile_sublist _).subset hc)

theorem labelledValue_label (label r : Text) :
    labelledValue label (label ++ ':' :: r) =
      (restOfLine (r.dropWhile isInlineBlank)).map Text.trim := by
  simp only [labelledValue, Text.afterToken?_eq_some_iff.mpr rfl]

theorem label_of_labelledValue (h : (labelledValue label t).value = some v) :
    ∃ r, t = label ++ ':' :: r := by
  unfold labelledValue at h
  split at h
  · cases h
  · next r hr => exact ⟨r, Text.afterToken?_eq_some_iff.mp hr⟩
  · cases h

theorem labelledValue_eq_iff :
    labelledValue label t = ⟨some v, []⟩ ↔
      ∃ r : Text, t = label ++ ':' :: r ∧ OneLine r ∧ v = r.trim := by
  constructor
  · intro h
    obtain ⟨r, rfl⟩ := label_of_labelledValue (congrArg Lexed.value h)
    rw [labelledValue_label] at h
    have hline : OneLine (r.dropWhile isInlineBlank) :=
      oneLine_of_rest_eq_nil (congrArg Lexed.rest h)
    rw [restOfLine_of_oneLine hline] at h
    refine ⟨r, rfl, oneLine_dropWhile_isInlineBlank_iff.mp hline, ?_⟩
    rw [← trim_dropWhile_isInlineBlank]
    exact (Option.some.inj (congrArg Lexed.value h)).symm
  · rintro ⟨r, rfl, hline, rfl⟩
    rw [labelledValue_label,
      restOfLine_of_oneLine (oneLine_dropWhile_isInlineBlank_iff.mpr hline),
      ← trim_dropWhile_isInlineBlank r]
    rfl

theorem keyword_eq_iff : keyword word t = ⟨some (), r⟩ ↔
    t = word ++ r ∧ ∀ c, r.head? = some c → continuesKeyword c = false := by
  constructor
  · intro h
    unfold keyword at h
    split at h
    · cases h
    · next u hu =>
      split at h
      · cases h
      · next hhead =>
        cases h
        refine ⟨Text.afterToken?_eq_some_iff.mp hu, fun c hc => ?_⟩
        simpa [hc] using hhead
  · rintro ⟨rfl, hhead⟩
    have hstop : r.head?.any continuesKeyword = false := by
      cases r with
      | nil => rfl
      | cons c r => exact hhead c rfl
    simp only [keyword, Text.afterToken?_eq_some_iff.mpr rfl, hstop]
    rfl

/-! ## Directives -/

namespace Directive

/-- The text behind the marker, and the directive that it gives. -/
inductive Form : Text → Directive → Prop where
  | id {v : Text} (line : OneLine v) : Form ("id:".toList ++ v) (.id v.trim)
  | description {v : Text} (line : OneLine v) : Form ("id-desc:".toList ++ v) (.description v.trim)
  | hideHeader {w : Text} (line : OneLine w)
      (boundary : ∀ c, w.head? = some c → continuesKeyword c = false) :
      Form ("id-ds".toList ++ w) .hideHeader
  | file {v : Text} (line : OneLine v) : Form ("file:".toList ++ v) (.file v.trim)

variable {d : Directive} {form : Text → Lexed Directive} {others : List (Text → Lexed Directive)}

theorem firstForm_cons_of_some (h : form t = ⟨some d, r⟩) :
    firstForm t (form :: others) = ⟨some d, r⟩ := by
  cases others with
  | nil => exact h
  | cons f fs => simp only [firstForm, h]

theorem firstForm_cons_of_none (h : (form t).value = none) (hothers : others ≠ []) :
    firstForm t (form :: others) = firstForm t others := by
  cases others with
  | nil => exact absurd rfl hothers
  | cons f fs =>
    have hform : form t = ⟨none, (form t).rest⟩ := by rw [← h]
    rw [firstForm, hform]
    nofun

theorem exists_of_firstForm (h : firstForm t others = ⟨some d, r⟩) :
    ∃ form ∈ others, form t = ⟨some d, r⟩ := by
  induction others with
  | nil => cases h
  | cons form others ih =>
    by_cases hothers : others = []
    · subst hothers
      exact ⟨form, List.mem_cons_self, h⟩
    · cases hvalue : (form t).value with
      | none =>
        rw [firstForm_cons_of_none hvalue hothers] at h
        obtain ⟨other, hother, hread⟩ := ih h
        exact ⟨other, List.mem_cons_of_mem _ hother, hread⟩
      | some d' =>
        have hread : form t = ⟨some d', (form t).rest⟩ := by rw [← hvalue]
        rw [firstForm_cons_of_some hread] at h
        exact ⟨form, List.mem_cons_self, hread.trans h⟩

theorem map_labelledValue_eq_iff {f : Text → Directive} :
    (labelledValue label t).map f = ⟨some d, []⟩ ↔
      ∃ r : Text, t = label ++ ':' :: r ∧ OneLine r ∧ d = f r.trim := by
  constructor
  · intro h
    obtain ⟨hvalue, hrest⟩ := Lexed.mk.inj h
    obtain ⟨v, hv, rfl⟩ := Option.map_eq_some_iff.mp hvalue
    have hread : labelledValue label t = ⟨some v, []⟩ := by rw [← hv, ← hrest]
    obtain ⟨r, ht, hline, rfl⟩ := labelledValue_eq_iff.mp hread
    exact ⟨r, ht, hline, rfl⟩
  · rintro ⟨r, ht, hline, rfl⟩
    rw [labelledValue_eq_iff.mpr ⟨r, ht, hline, rfl⟩]
    rfl

theorem form_of_mem_forms (hform : form ∈ forms) (h : form t = ⟨some d, []⟩) : Form t d := by
  simp only [forms, List.mem_cons, List.not_mem_nil, or_false] at hform
  rcases hform with rfl | rfl | rfl | rfl
  · obtain ⟨r, rfl, hline, rfl⟩ := map_labelledValue_eq_iff.mp h
    exact .description hline
  · cases hkeyword : keyword "id-ds".toList t with
    | mk value r =>
      cases value with
      | none =>
        simp only [hkeyword] at h
        cases h
      | some u =>
        obtain ⟨rfl, hboundary⟩ := keyword_eq_iff.mp hkeyword
        simp only [hkeyword] at h
        obtain ⟨hvalue, hrest⟩ := Lexed.mk.inj h
        cases hvalue
        exact .hideHeader (oneLine_of_rest_eq_nil hrest) hboundary
  · obtain ⟨r, rfl, hline, rfl⟩ := map_labelledValue_eq_iff.mp h
    exact .id hline
  · obtain ⟨r, rfl, hline, rfl⟩ := map_labelledValue_eq_iff.mp h
    exact .file hline

/-- The forms differ within the label, so each is read by its own lexer and by none before it. -/
theorem firstForm_of_form (h : Form t d) : firstForm t forms = ⟨some d, []⟩ := by
  unfold forms
  cases h with
  | description hline =>
    exact firstForm_cons_of_some (map_labelledValue_eq_iff.mpr ⟨_, rfl, hline, rfl⟩)
  | hideHeader hline hboundary =>
    rw [firstForm_cons_of_none rfl (List.cons_ne_nil _ _)]
    refine firstForm_cons_of_some ?_
    simp only [keyword_eq_iff.mpr ⟨rfl, hboundary⟩, restOfLine_of_oneLine hline]
    rfl
  | id hline =>
    rw [firstForm_cons_of_none rfl (List.cons_ne_nil _ _),
      firstForm_cons_of_none rfl (List.cons_ne_nil _ _)]
    exact firstForm_cons_of_some (map_labelledValue_eq_iff.mpr ⟨_, rfl, hline, rfl⟩)
  | file hline =>
    rw [firstForm_cons_of_none rfl (List.cons_ne_nil _ _),
      firstForm_cons_of_none rfl (List.cons_ne_nil _ _),
      firstForm_cons_of_none rfl (List.cons_ne_nil _ _)]
    exact firstForm_cons_of_some (map_labelledValue_eq_iff.mpr ⟨_, rfl, hline, rfl⟩)

theorem firstForm_eq_iff : firstForm t forms = ⟨some d, []⟩ ↔ Form t d := by
  refine ⟨fun h => ?_, firstForm_of_form⟩
  obtain ⟨form, hform, hread⟩ := exists_of_firstForm h
  exact form_of_mem_forms hform hread

theorem parse_eq_ok_iff : parse (marker ++ t) = .ok d ↔ Form t d := by
  have hmarker : (marker ++ t).drop marker.length = t := List.drop_left
  rw [← firstForm_eq_iff, parse, hmarker]
  constructor
  · intro h
    split at h
    · next hread =>
      cases h
      exact hread
    · cases h
    · cases h
  · intro h
    rw [h]

end Directive

end DotQuery.Block
