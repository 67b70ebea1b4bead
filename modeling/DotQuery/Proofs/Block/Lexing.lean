import DotQuery.Proofs.Block.Outcome

/-!
# What the lexers take

Each lexer succeeds on the texts of one form and takes exactly what the form says: a keyword that no
word continues, the whole run of digits in front (`NumberForm`), a label with all up to the line end
(`LabelForm`). A keyword and a number that fail take nothing, a labelled value that fails has taken
its label.
-/

namespace DotQuery.Block

variable {t r v word label : Text} {n : Nat} {α : Type}

/-- What a lexer makes of a text: it succeeds if `Fits`, with a value and a rest as `Takes` says,
and it leaves `left` if it fails. -/
structure Lexes (lexed : Lexed α) (Fits : Prop) (Takes : α → Text → Prop) (left : Text) : Prop where
  succeeds_iff : lexed.value.isSome = true ↔ Fits
  takes_iff : ∀ a r, lexed = ⟨some a, r⟩ ↔ Takes a r
  left_of_failure : lexed.value = none → lexed.rest = left

theorem isSome_iff_exists {lexed : Lexed α} :
    lexed.value.isSome = true ↔ ∃ a r, lexed = ⟨some a, r⟩ := by
  obtain ⟨value, rest⟩ := lexed
  cases value <;> simp

/-! ## Keywords -/

/-- A keyword that is not the start of a longer word, and the rest. -/
def KeywordForm (word t r : Text) : Prop :=
  t = word ++ r ∧ ∀ c, r.head? = some c →
    isLetter c = false ∧ isDigit c = false ∧ c ≠ '_' ∧ c ≠ '-'

theorem continuesKeyword_eq_false_iff {c : Char} : continuesKeyword c = false ↔
    isLetter c = false ∧ isDigit c = false ∧ c ≠ '_' ∧ c ≠ '-' := by
  simp [continuesKeyword, isWord, and_assoc]

theorem keyword_eq_iff_form : keyword word t = ⟨some (), r⟩ ↔ KeywordForm word t r := by
  rw [keyword_eq_iff, KeywordForm]
  simp only [continuesKeyword_eq_false_iff]

theorem rest_of_keyword_eq_none (h : (keyword word t).value = none) :
    (keyword word t).rest = t := by
  unfold keyword at h ⊢
  split
  · rfl
  · next r hr =>
    split
    · rfl
    · next hstop =>
      simp only [hr, hstop] at h
      cases h

theorem lexes_keyword (word t : Text) :
    Lexes (keyword word t) (∃ r, KeywordForm word t r) (fun _ r => KeywordForm word t r) t where
  succeeds_iff := by
    rw [isSome_iff_exists]
    exact ⟨fun ⟨_, r, h⟩ => ⟨r, keyword_eq_iff_form.mp h⟩,
      fun ⟨r, h⟩ => ⟨(), r, keyword_eq_iff_form.mpr h⟩⟩
  takes_iff _ _ := keyword_eq_iff_form
  left_of_failure := rest_of_keyword_eq_none

/-! ## Numbers -/

/-- The longest run of digits in front, which denotes a number of 64 bits, and the rest. -/
def NumberForm (t : Text) (n : Nat) (r : Text) : Prop :=
  ∃ run : Text, t = run ++ r ∧ run ≠ [] ∧ Digits 10 run n ∧ n < 2 ^ 64 ∧
    ∀ c, r.head? = some c → isDigit c = false

theorem isId_and_natural_iff : IsId t ∧ n = t.natural ↔ t ≠ [] ∧ Digits 10 t n ∧ n < 2 ^ 64 := by
  constructor
  · rintro ⟨hid, rfl⟩
    exact ⟨hid.ne_nil, digits_natural hid.digits, hid.lt⟩
  · rintro ⟨hne, hdigits, hlt⟩
    obtain ⟨rfl, hall⟩ := Text.natural_of_digits hdigits
    exact ⟨⟨hne, hall, hlt⟩, rfl⟩

theorem number_eq_some_iff : number t = ⟨some n, r⟩ ↔
    Text.natural? (t.takeWhile isDigit) = some n ∧ r = t.dropWhile isDigit := by
  unfold number
  split
  · next m hm => simp [hm, eq_comm]
  · next hnone => simp [hnone]

theorem number_eq_iff_form : number t = ⟨some n, r⟩ ↔ NumberForm t n r := by
  rw [number_eq_some_iff, natural?_eq_some_iff, isId_and_natural_iff]
  constructor
  · rintro ⟨⟨hne, hdigits, hlt⟩, hr⟩
    obtain ⟨ht, -, hstop⟩ := Text.run_iff.mpr ⟨rfl, hr⟩
    exact ⟨_, ht, hne, hdigits, hlt, hstop⟩
  · rintro ⟨run, ht, hne, hdigits, hlt, hstop⟩
    obtain ⟨hrun, hr⟩ := Text.run_iff.mp ⟨ht, (Text.natural_of_digits hdigits).2, hstop⟩
    exact ⟨hrun ▸ ⟨hne, hdigits, hlt⟩, hr⟩

theorem isSome_number_iff : (number t).value.isSome = true ↔
    t.takeWhile isDigit ≠ [] ∧ Text.natural (t.takeWhile isDigit) < 2 ^ 64 := by
  rw [isSome_iff_exists]
  simp only [number_eq_some_iff, natural?_eq_some_iff]
  constructor
  · rintro ⟨n, r, ⟨hid, -⟩, -⟩
    exact ⟨hid.ne_nil, hid.lt⟩
  · rintro ⟨hne, hlt⟩
    exact ⟨_, _, ⟨⟨hne, fun c => List.mem_takeWhile_imp, hlt⟩, rfl⟩, rfl⟩

theorem rest_of_number_eq_none (h : (number t).value = none) : (number t).rest = t := by
  unfold number at h ⊢
  split at h
  · cases h
  · rfl

theorem lexes_number (t : Text) : Lexes (number t)
    (t.takeWhile isDigit ≠ [] ∧ Text.natural (t.takeWhile isDigit) < 2 ^ 64) (NumberForm t) t where
  succeeds_iff := isSome_number_iff
  takes_iff _ _ := number_eq_iff_form
  left_of_failure := rest_of_number_eq_none

/-- One past the largest number. -/
example : number "18446744073709551616".toList = ⟨none, "18446744073709551616".toList⟩ := by
  decide +kernel

/-! ## Labelled values -/

/-- A label and a colon, all up to the line end, and the rest; blanks around the value are lost. -/
def LabelForm (label t v r : Text) : Prop :=
  ∃ line : Text, t = label ++ ':' :: (line ++ r) ∧ (∀ c ∈ line, c ≠ '\n' ∧ c ≠ '\r') ∧
    (∀ c, r.head? = some c → c = '\n' ∨ c = '\r') ∧ v = line.trim

theorem not_isLineEnd_iff {c : Char} : (!isLineEnd c) = true ↔ c ≠ '\n' ∧ c ≠ '\r' := by
  simp [isLineEnd]

theorem not_isLineEnd_eq_false_iff {c : Char} :
    (!isLineEnd c) = false ↔ c = '\n' ∨ c = '\r' := by
  rw [Bool.not_eq_false', isLineEnd, Bool.or_eq_true, beq_iff_eq, beq_iff_eq]

/-- Blanks in front of a value are on its line, and trimming takes them away as well. -/
theorem restOfLine_dropWhile_isInlineBlank (t : Text) :
    (restOfLine (t.dropWhile isInlineBlank)).map Text.trim =
      ⟨some (Text.trim (t.takeWhile fun c => !isLineEnd c)),
        t.dropWhile fun c => !isLineEnd c⟩ := by
  induction t with
  | nil => rfl
  | cons c t ih =>
    by_cases hc : isInlineBlank c = true
    · have hline : (!isLineEnd c) = true := by rw [isLineEnd_of_isInlineBlank hc]; rfl
      rw [List.dropWhile_cons_of_pos hc, ih,
        List.takeWhile_cons_of_pos (p := fun c => !isLineEnd c) hline,
        List.dropWhile_cons_of_pos (p := fun c => !isLineEnd c) hline,
        Text.trim_cons_blank (isBlank_of_isInlineBlank hc)]
    · rw [List.dropWhile_cons_of_neg hc]
      rfl

theorem labelledValue_eq_iff_form :
    labelledValue label t = ⟨some v, r⟩ ↔ LabelForm label t v r := by
  constructor
  · intro h
    obtain ⟨u, rfl⟩ := label_of_labelledValue (congrArg Lexed.value h)
    rw [labelledValue_label, restOfLine_dropWhile_isInlineBlank] at h
    cases h
    obtain ⟨hu, hline, hstop⟩ := Text.run_iff.mpr ⟨rfl, rfl⟩
    exact ⟨_, congrArg (label ++ ':' :: ·) hu, fun c hc => not_isLineEnd_iff.mp (hline c hc),
      fun c hc => not_isLineEnd_eq_false_iff.mp (hstop c hc), rfl⟩
  · rintro ⟨line, rfl, hline, hstop, rfl⟩
    obtain ⟨htake, hdrop⟩ := (Text.run_iff (p := fun c => !isLineEnd c)).mp
      ⟨rfl, fun c hc => not_isLineEnd_iff.mpr (hline c hc),
        fun c hc => not_isLineEnd_eq_false_iff.mpr (hstop c hc)⟩
    rw [labelledValue_label, restOfLine_dropWhile_isInlineBlank, ← htake, ← hdrop]

theorem labelledValue_of_no_label (h : ¬ label <+: t) : labelledValue label t = ⟨none, t⟩ := by
  rw [labelledValue, Text.afterToken?_eq_none_iff.mpr h]

theorem labelledValue_of_no_colon (h : r.head? ≠ some ':') :
    labelledValue label (label ++ r) = ⟨none, r⟩ := by
  rw [labelledValue, Text.afterToken?_eq_some_iff.mpr rfl]
  split
  · next hnone => cases hnone
  · next hr =>
    cases hr
    exact absurd rfl h
  · next hr =>
    cases hr
    rfl

theorem isSome_labelledValue_iff :
    (labelledValue label t).value.isSome = true ↔ label ++ [':'] <+: t := by
  constructor
  · intro h
    obtain ⟨v, hv⟩ := Option.isSome_iff_exists.mp h
    obtain ⟨r, rfl⟩ := label_of_labelledValue hv
    exact ⟨r, by simp⟩
  · rintro ⟨r, rfl⟩
    rw [List.append_assoc, List.singleton_append, labelledValue_label]
    rfl

theorem rest_of_labelledValue_eq_none (h : (labelledValue label t).value = none) :
    (labelledValue label t).rest = if label <+: t then t.drop label.length else t := by
  split
  · next hlabel =>
    obtain ⟨r, rfl⟩ := hlabel
    have hcolon : r.head? ≠ some ':' := by
      intro hr
      obtain ⟨u, rfl⟩ := List.head?_eq_some_iff.mp hr
      rw [labelledValue_label] at h
      cases h
    rw [labelledValue_of_no_colon hcolon, List.drop_left]
  · next hlabel => rw [labelledValue_of_no_label hlabel]

theorem lexes_labelledValue (label t : Text) :
    Lexes (labelledValue label t) (label ++ [':'] <+: t) (LabelForm label t)
      (if label <+: t then t.drop label.length else t) where
  succeeds_iff := isSome_labelledValue_iff
  takes_iff _ _ := labelledValue_eq_iff_form
  left_of_failure := rest_of_labelledValue_eq_none

/-! ## All lexers -/

theorem lexers_exact (word t : Text) :
    Lexes (keyword word t) (∃ r, KeywordForm word t r) (fun _ r => KeywordForm word t r) t ∧
      Lexes (number t)
        (t.takeWhile isDigit ≠ [] ∧ Text.natural (t.takeWhile isDigit) < 2 ^ 64)
        (NumberForm t) t ∧
      Lexes (labelledValue word t) (word ++ [':'] <+: t) (LabelForm word t)
        (if word <+: t then t.drop word.length else t) :=
  ⟨lexes_keyword word t, lexes_number t, lexes_labelledValue word t⟩

end DotQuery.Block
