import DotQuery.Proofs.Double.Decimal
import DotQuery.Proofs.Loose.DecimalForm
import DotQuery.Proofs.Text.Cut

/-!
# Texts that are numbers

The texts that `numberOfText` takes as numbers are, between blanks, those of `NumeralForm`
(`numberOfText_ne_nan_iff`). A mark of a radix, an infinity and the empty text are settled before
the decimal form is tried, and none of them has that form, so the order of the attempts does not
show (`numberOfText_of_decimalForm`).
-/

namespace DotQuery

variable {t : Text}

namespace Loose

open Double.Literal (SignForm Writes HasDigit)

variable {radix : Nat}

/-! ## The form -/

/-- The letters that mark a radix. -/
inductive RadixMark : Char → Nat → Prop where
  | hex {c : Char} (h : c = 'x' ∨ c = 'X') : RadixMark c 16
  | octal {c : Char} (h : c = 'o' ∨ c = 'O') : RadixMark c 8
  | binary {c : Char} (h : c = 'b' ∨ c = 'B') : RadixMark c 2

/-- The digits of the marked radixes. -/
inductive DigitOf : Nat → Char → Prop where
  | binary {c : Char} (h : c = '0' ∨ c = '1') : DigitOf 2 c
  | octal {c : Char} (h : '0' ≤ c ∧ c ≤ '7') : DigitOf 8 c
  | hex {c : Char} (h : ('0' ≤ c ∧ c ≤ '9') ∨ ('a' ≤ c ∧ c ≤ 'f') ∨ ('A' ≤ c ∧ c ≤ 'F')) :
    DigitOf 16 c

/-- A number without blanks around it; only a decimal number and infinity have a sign. -/
inductive NumeralForm : Text → Prop where
  | empty : NumeralForm []
  | infinity {sign : Text} (hsign : SignForm sign) : NumeralForm (sign ++ "Infinity".toList)
  | marked {mark : Char} {radix : Nat} {ds : Text} (hmark : RadixMark mark radix) (hne : ds ≠ [])
      (hall : ∀ c ∈ ds, DigitOf radix c) : NumeralForm ('0' :: mark :: ds)
  | decimal {t : Text} (h : DecimalForm t) : NumeralForm t

/-! ## Digits after a mark -/

theorem RadixMark.not_blank_or_decimal {c : Char} (h : RadixMark c radix) :
    isBlank c = false ∧ isDecimalChar c = false := by
  cases h with
  | hex h => rcases h with rfl | rfl <;> exact ⟨rfl, rfl⟩
  | octal h => rcases h with rfl | rfl <;> exact ⟨rfl, rfl⟩
  | binary h => rcases h with rfl | rfl <;> exact ⟨rfl, rfl⟩

theorem radixDigits?_eq_some_iff {ds : Text} :
    radixDigits? t = some (radix, ds) ↔ ∃ mark, RadixMark mark radix ∧ t = '0' :: mark :: ds := by
  constructor
  · intro h
    unfold radixDigits? at h
    split at h
    · next mark rest =>
      split at h
      · next hx =>
        cases h
        exact ⟨mark, .hex hx, rfl⟩
      · split at h
        · next ho =>
          cases h
          exact ⟨mark, .octal ho, rfl⟩
        · next hb =>
          obtain ⟨hb, h⟩ := Option.ite_none_right_eq_some.mp h
          cases h
          exact ⟨mark, .binary hb, rfl⟩
    · cases h
  · rintro ⟨mark, hmark, rfl⟩
    cases hmark with
    | hex h => rcases h with rfl | rfl <;> rfl
    | octal h => rcases h with rfl | rfl <;> rfl
    | binary h => rcases h with rfl | rfl <;> rfl

/-- Decimal digits below the radix, and letters that stand for ten and more below it. -/
theorem isSome_digitValue?_iff {c : Char} :
    (digitValue? radix c).isSome ↔
      (48 ≤ c.toNat ∧ c.toNat ≤ 57) ∧ c.toNat < 48 + radix ∨
      (97 ≤ c.toNat ∧ c.toNat ≤ 102) ∧ c.toNat < 87 + radix ∨
      (65 ≤ c.toNat ∧ c.toNat ≤ 70) ∧ c.toNat < 55 + radix := by
  have hle (a b : Char) : a ≤ b ↔ a.toNat ≤ b.toNat := Iff.rfl
  have hvalues : '0'.toNat = 48 ∧ 'a'.toNat = 97 ∧ 'f'.toNat = 102 ∧ 'A'.toNat = 65 ∧
      'F'.toNat = 70 := by decide
  simp only [digitValue?, Option.isSome_filter, isDigit_iff, Bool.and_eq_true, decide_eq_true_iff,
    hle, hvalues]
  split_ifs <;>
    simp only [Option.any_some, Option.any_none, decide_eq_true_iff, Bool.false_eq_true,
      false_iff] <;>
    omega

theorem digitOf_iff {mark c : Char} (h : RadixMark mark radix) :
    DigitOf radix c ↔ (digitValue? radix c).isSome := by
  have hle (a b : Char) : a ≤ b ↔ a.toNat ≤ b.toNat := Iff.rfl
  have heq (a b : Char) : a = b ↔ a.toNat = b.toNat := Char.toNat_inj.symm
  have hdigits : '0'.toNat = 48 ∧ '1'.toNat = 49 ∧ '7'.toNat = 55 ∧ '9'.toNat = 57 := by decide
  have hletters : 'a'.toNat = 97 ∧ 'f'.toNat = 102 ∧ 'A'.toNat = 65 ∧ 'F'.toNat = 70 := by decide
  rw [isSome_digitValue?_iff]
  cases h with
  | hex =>
    rw [show DigitOf 16 c ↔ _ from ⟨fun | .hex h => h, .hex⟩]
    simp only [hle, hdigits, hletters]
    omega
  | octal =>
    rw [show DigitOf 8 c ↔ _ from ⟨fun | .octal h => h, .octal⟩]
    simp only [hle, hdigits]
    omega
  | binary =>
    rw [show DigitOf 2 c ↔ _ from ⟨fun | .binary h => h, .binary⟩]
    simp only [heq, hdigits]
    omega

theorem foldl_appendDigit_ne_nan (ds : List Nat) {x : Double} (h : x ≠ .nan) :
    ds.foldl (Double.appendDigit radix) x ≠ .nan := by
  induction ds generalizing x with
  | nil => exact h
  | cons d ds ih =>
    refine ih ?_
    cases x with
    | nan => exact h
    | infinite negative => nofun
    | finite y => exact Double.ofRank_ne_nan _ _

theorem radixNumber_ne_nan_iff {ds : Text} :
    radixNumber radix ds ≠ .nan ↔ ds ≠ [] ∧ ∀ c ∈ ds, (digitValue? radix c).isSome := by
  rw [← isSome_mapM_iff, radixNumber]
  split
  · next h => simp [h]
  · next h =>
    cases hds : ds.mapM (digitValue? radix) with
    | none => simp
    | some values => simpa [h] using foldl_appendDigit_ne_nan values (x := .zero) nofun

/-! ## Blanks -/

theorem isBlank_of_toNat {c : Char} (hlo : 33 ≤ c.toNat) (hhi : c.toNat ≤ 126) :
    isBlank c = false := by
  simp only [isBlank, Bool.or_eq_false_iff, Bool.and_eq_false_iff, decide_eq_false_iff_not,
    beq_eq_false_iff_ne]
  omega

theorem isBlank_of_isDecimalChar {c : Char} (h : isDecimalChar c = true) : isBlank c = false := by
  simp only [isDecimalChar, Bool.or_eq_true, beq_iff_eq, isDigit_iff] at h
  rcases h with ((((h | rfl) | rfl) | rfl) | rfl) | rfl
  · exact isBlank_of_toNat (by omega) (by omega)
  all_goals rfl

theorem isBlank_of_isSome_digitValue? {c : Char} (h : (digitValue? radix c).isSome) :
    isBlank c = false := by
  have h := isSome_digitValue?_iff.mp h
  exact isBlank_of_toNat (by omega) (by omega)

theorem NumeralForm.trim_eq (h : NumeralForm t) : t.trim = t := by
  cases h with
  | empty => rfl
  | infinity hsign => cases hsign <;> rfl
  | marked hmark hne hall =>
    refine Text.trim_of_no_blank fun c hc => ?_
    rcases List.mem_cons.mp hc with rfl | hc
    · rfl
    · rcases List.mem_cons.mp hc with rfl | hc
      · exact hmark.not_blank_or_decimal.1
      · exact isBlank_of_isSome_digitValue? ((digitOf_iff hmark).mp (hall c hc))
  | decimal h =>
    exact Text.trim_of_no_blank fun c hc => isBlank_of_isDecimalChar (h.isDecimalChar c hc)

/-! ## The order of the attempts -/

theorem numberOfText_of_ne (hne : t.trim ≠ [])
    (hinfinity : ∀ sign, SignForm sign → t.trim ≠ sign ++ "Infinity".toList) :
    numberOfText t =
      match radixDigits? t.trim with
      | some (radix, ds) => radixNumber radix ds
      | none => decimalNumber t.trim := by
  have hplain : t.trim ≠ "Infinity".toList := hinfinity [] .none
  have hplus : t.trim ≠ "+Infinity".toList := hinfinity ['+'] .plus
  rw [numberOfText, if_neg hne, if_neg (not_or.mpr ⟨hplain, hplus⟩)]
  exact if_neg (hinfinity ['-'] .minus)

theorem numberOfText_of_mark {ds : Text} (h : radixDigits? t.trim = some (radix, ds)) :
    numberOfText t = radixNumber radix ds := by
  obtain ⟨mark, -, ht⟩ := radixDigits?_eq_some_iff.mp h
  rw [numberOfText_of_ne, h]
  · rw [ht]
    nofun
  · intro sign hsign
    rw [ht]
    cases hsign <;> nofun

/-- Nothing that is settled before has the form of a decimal number. -/
theorem numberOfText_of_decimalForm (h : DecimalForm t.trim) :
    numberOfText t = decimalNumber t.trim := by
  have hchar (c : Char) (hc : isDecimalChar c = false) : c ∉ t.trim := fun hmem => by
    rw [h.isDecimalChar c hmem] at hc
    cases hc
  have hmark : radixDigits? t.trim = none := by
    rw [Option.eq_none_iff_forall_ne_some]
    rintro ⟨radix, ds⟩ hds
    obtain ⟨mark, hmark, ht⟩ := radixDigits?_eq_some_iff.mp hds
    have hmem : mark ∈ t.trim := by
      rw [ht]
      exact List.mem_cons_of_mem _ List.mem_cons_self
    exact hchar mark hmark.not_blank_or_decimal.2 hmem
  rw [numberOfText_of_ne, hmark]
  · intro hnil
    rw [hnil] at h
    exact decimalNumber_ne_nan_iff.mpr h (by decide)
  · intro sign _ ht
    exact hchar 'I' rfl (by rw [ht]; exact List.mem_append_right sign (by decide))

/-- A literal with a digit, behind a sign or none, is the number that it denotes. -/
theorem numberOfText_of_writes {l : Double.Literal} (h : Writes t l) (hdigit : HasDigit l)
    (negative : Bool) :
    numberOfText (if negative then '-' :: t else t) = .ofRank negative l.value.rank := by
  have hsign : cutSign (if negative then '-' :: t else t) = (negative, t) := by
    cases negative with
    | false => exact cutSign_of_head (head_of_writes h hdigit)
    | true => rfl
  generalize (if negative then '-' :: t else t) = u at hsign ⊢
  have hnumber : decimalNumber u = .ofRank negative l.value.rank := by
    rw [decimalNumber_of_writes (by rwa [hsign]) hdigit, hsign]
    rfl
  have hform : DecimalForm u := decimalNumber_ne_nan_iff.mp (by
    rw [hnumber]
    exact Double.ofRank_ne_nan _ _)
  have htrim : Text.trim u = u := (NumeralForm.decimal hform).trim_eq
  rw [numberOfText_of_decimalForm (by rwa [htrim]), htrim, hnumber]

theorem numberOfText_digits (h : t.allDigits = true) (negative : Bool) :
    numberOfText (if negative then '-' :: t else t) =
      .ofRank negative (Double.roundRatio t.natural 1) := by
  obtain ⟨l, hwrites, hdigit, hvalue⟩ := Double.Literal.exists_writes_digits h
  rw [numberOfText_of_writes hwrites hdigit, hvalue, Double.Decimal.rank, Double.decimalRank_whole]

theorem numberOfText_ne_nan_iff (t : Text) : numberOfText t ≠ .nan ↔ NumeralForm t.trim := by
  constructor
  · intro h
    by_cases hne : t.trim = []
    · rw [hne]
      exact .empty
    · by_cases hinfinity : ∃ sign, SignForm sign ∧ t.trim = sign ++ "Infinity".toList
      · obtain ⟨sign, hsign, ht⟩ := hinfinity
        rw [ht]
        exact .infinity hsign
      · rw [numberOfText_of_ne hne fun sign hsign ht => hinfinity ⟨sign, hsign, ht⟩] at h
        split at h
        · next hds =>
          obtain ⟨mark, hmark, ht⟩ := radixDigits?_eq_some_iff.mp hds
          obtain ⟨hne, hall⟩ := radixNumber_ne_nan_iff.mp h
          rw [ht]
          exact .marked hmark hne fun c hc => (digitOf_iff hmark).mpr (hall c hc)
        · exact .decimal (decimalNumber_ne_nan_iff.mp h)
  · intro h
    generalize ht : t.trim = u at h
    cases h with
    | empty =>
      rw [numberOfText, if_pos ht]
      nofun
    | infinity hsign => cases hsign <;> rw [numberOfText, ht] <;> decide
    | marked hmark hne hall =>
      rw [numberOfText_of_mark (radixDigits?_eq_some_iff.mpr ⟨_, hmark, ht⟩)]
      exact radixNumber_ne_nan_iff.mpr ⟨hne, fun c hc => (digitOf_iff hmark).mp (hall c hc)⟩
    | decimal h =>
      rw [← ht] at h
      rw [numberOfText_of_decimalForm h]
      exact decimalNumber_ne_nan_iff.mpr h

/-- A sign is not allowed in front of a mark, and a mark needs a digit behind it. -/
example : [" 0x1f ", "-0x1", "0b", "+.5e-3"].map (fun t => (numberOfText t.toList).isNan) =
    [false, true, true, false] := by decide +kernel

end Loose

end DotQuery
