import DotQuery.Loose
import DotQuery.Proofs.Double.Literal
import DotQuery.Proofs.Double.Order

/-!
# Texts of decimal numbers

A decimal number is an optional sign, digits with a digit before or after the point, and an optional
exponent (`DecimalForm`). `decimalNumber` gives a number for these texts and NaN for all others
(`decimalNumber_ne_nan_iff`).
-/

namespace DotQuery

namespace Loose

open Double.Literal (SignForm ExponentText Writes HasDigit pointText)

variable {t : Text}

/-! ## The form -/

/-- Digits before the point, after it, or both. -/
inductive MantissaForm : Text → Prop where
  | whole {ds : Text} (h : ds.allDigits = true) : MantissaForm ds
  | point {ds places : Text} (h : ds.allDigits = true) (hplaces : ∀ c ∈ places, isDigit c = true) :
      MantissaForm (ds ++ '.' :: places)
  | fraction {places : Text} (h : places.allDigits = true) : MantissaForm ('.' :: places)

inductive ExponentForm : Text → Prop where
  | none : ExponentForm []
  | some {mark : Char} {sign ds : Text} (hmark : mark = 'e' ∨ mark = 'E') (hsign : SignForm sign)
      (h : ds.allDigits = true) : ExponentForm (mark :: (sign ++ ds))

inductive DecimalForm : Text → Prop where
  | intro {sign mantissa exponent : Text} (hsign : SignForm sign)
      (hmantissa : MantissaForm mantissa) (hexponent : ExponentForm exponent) :
      DecimalForm (sign ++ mantissa ++ exponent)

def isDecimalChar (c : Char) : Bool :=
  isDigit c || c == '+' || c == '-' || c == '.' || c == 'e' || c == 'E'

theorem isDecimalChar_of_isDigit {c : Char} (h : isDigit c = true) : isDecimalChar c = true := by
  simp [isDecimalChar, h]

theorem isDecimalChar_of_signForm (h : SignForm t) : ∀ c ∈ t, isDecimalChar c = true := by
  cases h with
  | none => nofun
  | plus => exact List.forall_mem_singleton.mpr rfl
  | minus => exact List.forall_mem_singleton.mpr rfl

theorem isDecimalChar_of_allDigits (h : t.allDigits = true) : ∀ c ∈ t, isDecimalChar c = true :=
  fun c hc => isDecimalChar_of_isDigit ((Text.allDigits_iff.mp h).2 c hc)

theorem MantissaForm.isDecimalChar (h : MantissaForm t) : ∀ c ∈ t, isDecimalChar c = true := by
  cases h with
  | whole h => exact isDecimalChar_of_allDigits h
  | point h hplaces =>
    intro c hc
    rcases List.mem_append.mp hc with hc | hc
    · exact isDecimalChar_of_allDigits h c hc
    · rcases List.mem_cons.mp hc with rfl | hc
      · rfl
      · exact isDecimalChar_of_isDigit (hplaces c hc)
  | fraction h =>
    intro c hc
    rcases List.mem_cons.mp hc with rfl | hc
    · rfl
    · exact isDecimalChar_of_allDigits h c hc

theorem ExponentForm.isDecimalChar (h : ExponentForm t) : ∀ c ∈ t, isDecimalChar c = true := by
  cases h with
  | none => nofun
  | some hmark hsign h =>
    intro c hc
    rcases List.mem_cons.mp hc with rfl | hc
    · rcases hmark with rfl | rfl <;> rfl
    · rcases List.mem_append.mp hc with hc | hc
      · exact isDecimalChar_of_signForm hsign c hc
      · exact isDecimalChar_of_allDigits h c hc

theorem DecimalForm.isDecimalChar (h : DecimalForm t) : ∀ c ∈ t, isDecimalChar c = true := by
  obtain ⟨hsign, hmantissa, hexponent⟩ := h
  intro c hc
  rcases List.mem_append.mp hc with hc | hc
  · rcases List.mem_append.mp hc with hc | hc
    · exact isDecimalChar_of_signForm hsign c hc
    · exact hmantissa.isDecimalChar c hc
  · exact hexponent.isDecimalChar c hc

/-! ## Literals and forms -/

theorem exponentForm_iff : ExponentForm t ↔ ∃ e, ExponentText t e := by
  constructor
  · intro h
    cases h with
    | none => exact ⟨none, .none⟩
    | some hmark hsign h =>
      obtain ⟨i, hi⟩ := Double.Literal.exists_signed?_iff.mpr ⟨_, _, hsign, h, rfl⟩
      exact ⟨some i, .some hmark hi⟩
  · rintro ⟨e, h⟩
    cases h with
    | none => exact .none
    | some hmark value =>
      obtain ⟨sign, ds, hsign, hds, rfl⟩ := Double.Literal.exists_signed?_iff.mp ⟨_, value⟩
      exact .some hmark hsign hds

theorem MantissaForm.exists_writes {mantissa exponent : Text} (hmantissa : MantissaForm mantissa)
    (hexponent : ExponentForm exponent) : ∃ l, Writes (mantissa ++ exponent) l ∧ HasDigit l := by
  obtain ⟨e, he⟩ := exponentForm_iff.mp hexponent
  cases hmantissa with
  | whole h =>
    obtain ⟨hne, hall⟩ := Text.allDigits_iff.mp h
    refine ⟨⟨mantissa, none, e⟩, ⟨hall, List.forall_mem_nil _, exponent, he, ?_⟩, fun h => hne h.1⟩
    rw [pointText, List.append_nil]
  | @point ds places h hplaces =>
    obtain ⟨hne, hall⟩ := Text.allDigits_iff.mp h
    exact ⟨⟨ds, some places, e⟩, ⟨hall, hplaces, exponent, he, rfl⟩, fun h => hne h.1⟩
  | @fraction places h =>
    obtain ⟨hne, hall⟩ := Text.allDigits_iff.mp h
    exact ⟨⟨[], some places, e⟩, ⟨List.forall_mem_nil _, hall, exponent, he, rfl⟩, fun h => hne h.2⟩

theorem exists_mantissaForm {l : Double.Literal} (h : Writes t l) (hdigit : HasDigit l) :
    ∃ mantissa exponent,
      MantissaForm mantissa ∧ ExponentForm exponent ∧ t = mantissa ++ exponent := by
  obtain ⟨e, he, rfl⟩ := h.text
  refine ⟨l.whole ++ pointText l.fraction, e, ?_, exponentForm_iff.mpr ⟨_, he⟩, rfl⟩
  have hplaces := h.places
  have hwhole : l.whole ≠ [] → l.whole.allDigits = true := fun hne =>
    Text.allDigits_iff.mpr ⟨hne, h.whole⟩
  cases hfraction : l.fraction with
  | none =>
    rw [HasDigit, hfraction] at hdigit
    rw [pointText, List.append_nil]
    exact .whole (hwhole fun hnil => hdigit ⟨hnil, rfl⟩)
  | some places =>
    rw [hfraction, Option.getD_some] at hplaces
    by_cases hnil : l.whole = []
    · rw [HasDigit, hfraction] at hdigit
      rw [hnil]
      exact .fraction (Text.allDigits_iff.mpr ⟨fun hp => hdigit ⟨hnil, hp⟩, hplaces⟩)
    · exact .point (hwhole hnil) hplaces

/-! ## Reading -/

theorem exists_cutSign (t : Text) : ∃ sign, SignForm sign ∧ t = sign ++ (cutSign t).2 := by
  unfold cutSign
  split
  · exact ⟨['-'], .minus, rfl⟩
  · exact ⟨['+'], .plus, rfl⟩
  · exact ⟨[], .none, rfl⟩

theorem cutSign_of_head (h : ∀ c, t.head? = some c → c ≠ '-' ∧ c ≠ '+') :
    cutSign t = (false, t) := by
  unfold cutSign
  split
  · exact absurd rfl (h '-' rfl).1
  · exact absurd rfl (h '+' rfl).2
  · rfl

theorem cutSign_append {sign : Text} (hsign : SignForm sign)
    (h : ∀ c, t.head? = some c → c ≠ '-' ∧ c ≠ '+') : (cutSign (sign ++ t)).2 = t := by
  cases hsign with
  | none => rw [List.nil_append, cutSign_of_head h]
  | plus => rfl
  | minus => rfl

/-- A literal with a digit starts with a digit or a point. -/
theorem head_of_writes {l : Double.Literal} (h : Writes t l) (hdigit : HasDigit l) :
    ∀ c, t.head? = some c → c ≠ '-' ∧ c ≠ '+' := by
  obtain ⟨e, he, rfl⟩ := h.text
  intro c hc
  cases hwhole : l.whole with
  | cons d ds =>
    have hd : isDigit d = true := h.whole d (by rw [hwhole]; exact List.mem_cons_self)
    rw [hwhole] at hc
    cases hc
    constructor <;> rintro rfl <;> cases hd
  | nil =>
    cases hfraction : l.fraction with
    | none => exact absurd ⟨hwhole, by rw [hfraction]; rfl⟩ hdigit
    | some places =>
      rw [hwhole, hfraction] at hc
      cases hc
      decide

theorem decimalNumber_of_writes {l : Double.Literal} (h : Writes (cutSign t).2 l)
    (hdigit : HasDigit l) :
    decimalNumber t = .ofDecimal (cutSign t).1 l.value.digits l.value.exponent := by
  simp only [decimalNumber, Double.Literal.ofText?_eq_some_iff.mpr h]
  exact if_neg hdigit

theorem decimalNumber_ne_nan_iff : decimalNumber t ≠ .nan ↔ DecimalForm t := by
  constructor
  · intro h
    obtain ⟨sign, hsign, ht⟩ := exists_cutSign t
    cases hliteral : Double.Literal.ofText? (cutSign t).2 with
    | none =>
      refine absurd ?_ h
      simp only [decimalNumber, hliteral]
    | some l =>
      have hdigit : HasDigit l := fun hempty => h (by
        simp only [decimalNumber, hliteral]
        exact if_pos hempty)
      obtain ⟨mantissa, exponent, hmantissa, hexponent, hu⟩ :=
        exists_mantissaForm (Double.Literal.ofText?_eq_some_iff.mp hliteral) hdigit
      rw [ht, hu, ← List.append_assoc]
      exact .intro hsign hmantissa hexponent
  · rintro ⟨hsign, hmantissa, hexponent⟩
    obtain ⟨l, hwrites, hdigit⟩ := hmantissa.exists_writes hexponent
    rw [List.append_assoc]
    rw [← cutSign_append hsign (head_of_writes hwrites hdigit)] at hwrites
    rw [decimalNumber_of_writes hwrites hdigit]
    exact Double.ofRank_ne_nan _ _

end Loose

end DotQuery
