import Mathlib.Data.List.TakeWhile
import DotQuery.Double.Literal
import DotQuery.Proofs.Text.Numerals

/-!
# The grammar of decimal literals

A text is a literal exactly if it is digits, an optional point with digits, and an optional exponent
(`ofText?_eq_some_iff`); either run of digits may be empty.
-/

namespace DotQuery.Double.Literal

variable {t r : Text} {l : Literal}

inductive SignForm : Text → Prop where
  | none : SignForm []
  | plus : SignForm ['+']
  | minus : SignForm ['-']

/-- The text of an exponent, and the exponent. -/
inductive ExponentText : Text → Option Int → Prop where
  | none : ExponentText [] none
  | some {mark : Char} {t : Text} {i : Int} (hmark : mark = 'e' ∨ mark = 'E')
      (value : signed? t = some i) : ExponentText (mark :: t) (some i)

/-- A fraction with its point. -/
def pointText : Option Text → Text
  | none => []
  | some places => '.' :: places

/-- The text of a literal: its exponent may be written in several ways. -/
structure Writes (t : Text) (l : Literal) : Prop where
  whole : ∀ c ∈ l.whole, isDigit c = true
  places : ∀ c ∈ l.fraction.getD [], isDigit c = true
  text : ∃ exponent, ExponentText exponent l.exponent ∧
    t = l.whole ++ pointText l.fraction ++ exponent

/-- A digit before the point or after it. -/
def HasDigit (l : Literal) : Prop := ¬ (l.whole = [] ∧ l.fraction.getD [] = [])

/-! ## Exponents -/

theorem exists_signed?_iff :
    (∃ i, signed? t = some i) ↔
      ∃ sign ds, SignForm sign ∧ ds.allDigits = true ∧ t = sign ++ ds := by
  constructor
  · rintro ⟨i, h⟩
    unfold signed? at h
    split at h
    · next ds => exact ⟨['+'], ds, .plus, (Option.ite_none_right_eq_some.mp h).1, rfl⟩
    · next ds => exact ⟨['-'], ds, .minus, (Option.ite_none_right_eq_some.mp h).1, rfl⟩
    · exact ⟨[], t, .none, (Option.ite_none_right_eq_some.mp h).1, rfl⟩
  · rintro ⟨sign, ds, hsign, hds, rfl⟩
    cases hsign with
    | plus => exact ⟨_, if_pos hds⟩
    | minus => exact ⟨_, if_pos hds⟩
    | none =>
      obtain ⟨hne, hall⟩ := Text.allDigits_iff.mp hds
      cases ds with
      | nil => exact absurd rfl hne
      | cons c ds =>
        have hc : isDigit c = true := hall c List.mem_cons_self
        refine ⟨(Text.natural (c :: ds) : Int), ?_⟩
        rw [List.nil_append, signed?]
        · exact if_pos hds
        · rintro _ h
          cases h
          cases hc
        · rintro _ h
          cases h
          cases hc

/-- The exponent at the end of a literal. -/
def exponentOf? : Text → Option (Option Int)
  | [] => some none
  | c :: r => if c = 'e' ∨ c = 'E' then (signed? r).map some else none

theorem exponentOf?_eq_some_iff {e : Option Int} : exponentOf? t = some e ↔ ExponentText t e := by
  constructor
  · intro h
    cases t with
    | nil =>
      cases h
      exact .none
    | cons c r =>
      obtain ⟨hmark, h⟩ := Option.ite_none_right_eq_some.mp h
      obtain ⟨i, hi, rfl⟩ := Option.map_eq_some_iff.mp h
      exact .some hmark hi
  · intro h
    cases h with
    | none => rfl
    | some hmark value => rw [exponentOf?, if_pos hmark, value]; rfl

theorem head_of_exponentText {e : Option Int} {c : Char} (h : ExponentText t e)
    (hc : t.head? = some c) : c = 'e' ∨ c = 'E' := by
  cases h with
  | none => cases hc
  | some hmark value => exact (Option.some.inj hc) ▸ hmark

/-! ## Literals -/

/-- The digits after a point, and what follows the number. -/
def pointOf : Text → Option Text × Text
  | '.' :: r => (some (r.takeWhile isDigit), r.dropWhile isDigit)
  | r => (none, r)

theorem pointOf_of_head (h : t.head? ≠ some '.') : pointOf t = (none, t) := by
  unfold pointOf
  split
  · exact absurd rfl h
  · rfl

theorem ofText?_eq (t : Text) :
    ofText? t = (exponentOf? (pointOf (t.dropWhile isDigit)).2).map fun e =>
      ⟨t.takeWhile isDigit, (pointOf (t.dropWhile isDigit)).1, e⟩ := by
  unfold ofText?
  change (match (pointOf (t.dropWhile isDigit)).2 with | [] => _ | c :: r => _) = _
  cases (pointOf (t.dropWhile isDigit)).2 with
  | nil => rfl
  | cons c r =>
    dsimp only [exponentOf?]
    split
    · rw [Option.map_map]; rfl
    · rfl

theorem Writes.exists_rest (h : Writes t l) :
    ∃ rest, t.takeWhile isDigit = l.whole ∧ t.dropWhile isDigit = pointText l.fraction ++ rest ∧
      ExponentText rest l.exponent := by
  obtain ⟨e, he, rfl⟩ := h.text
  have hstop : ∀ c, (pointText l.fraction ++ e).head? = some c → isDigit c = false := by
    intro c hc
    cases hfraction : l.fraction with
    | none =>
      rw [hfraction] at hc
      rcases head_of_exponentText he hc with rfl | rfl <;> rfl
    | some places =>
      rw [hfraction] at hc
      cases hc
      rfl
  rw [List.append_assoc]
  exact ⟨e, Text.takeWhile_append_of_stop h.whole hstop,
    Text.dropWhile_append_of_stop h.whole hstop, he⟩

theorem ofText?_of_writes (h : Writes t l) : ofText? t = some l := by
  obtain ⟨rest, htake, hdrop, he⟩ := h.exists_rest
  have hpoint : pointOf (pointText l.fraction ++ rest) = (l.fraction, rest) := by
    have hplaces := h.places
    cases hfraction : l.fraction with
    | none =>
      refine pointOf_of_head fun hc => ?_
      rcases head_of_exponentText he hc with hc | hc <;> cases hc
    | some places =>
      rw [hfraction, Option.getD_some] at hplaces
      have hstop : ∀ c, rest.head? = some c → isDigit c = false := by
        intro c hc
        rcases head_of_exponentText he hc with rfl | rfl <;> rfl
      change (some _, _) = _
      rw [List.append_eq, Text.takeWhile_append_of_stop hplaces hstop,
        Text.dropWhile_append_of_stop hplaces hstop]
  rw [ofText?_eq, htake, hdrop, hpoint, exponentOf?_eq_some_iff.mpr he]
  rfl

theorem writes_of_ofText? (h : ofText? t = some l) : Writes t l := by
  have hdigits (u : Text) : ∀ c ∈ u.takeWhile isDigit, isDigit c = true := fun c hc =>
    List.mem_takeWhile_imp hc
  rw [ofText?_eq] at h
  obtain ⟨e, he, rfl⟩ := Option.map_eq_some_iff.mp h
  have he := exponentOf?_eq_some_iff.mp he
  by_cases hpoint : (t.dropWhile isDigit).head? = some '.'
  · obtain ⟨r, hr⟩ := List.head?_eq_some_iff.mp hpoint
    rw [hr] at he ⊢
    refine ⟨hdigits t, hdigits r, _, he, ?_⟩
    change t = _ ++ ('.' :: r.takeWhile isDigit) ++ r.dropWhile isDigit
    rw [List.append_assoc, List.cons_append, List.takeWhile_append_dropWhile, ← hr,
      List.takeWhile_append_dropWhile]
  · rw [pointOf_of_head hpoint] at he ⊢
    refine ⟨hdigits t, nofun, _, he, ?_⟩
    rw [pointText, List.append_nil, List.takeWhile_append_dropWhile]

theorem ofText?_eq_some_iff : ofText? t = some l ↔ Writes t l :=
  ⟨writes_of_ofText?, ofText?_of_writes⟩

/-! ## Values -/

theorem exists_writes_digits (h : t.allDigits = true) :
    ∃ l, Writes t l ∧ l.HasDigit ∧ l.value = ⟨t.natural, 0⟩ := by
  obtain ⟨hne, hdigits⟩ := Text.allDigits_iff.mp h
  refine ⟨⟨t, none, none⟩, ⟨hdigits, nofun, [], .none, ?_⟩, fun h => hne h.1, ?_⟩
  · rw [pointText, List.append_nil, List.append_nil]
  · rw [value, Option.getD_none, Option.getD_none, List.append_nil]
    rfl

theorem exists_writes_point {places : Text} (h : t.allDigits = true)
    (hplaces : ∀ c ∈ places, isDigit c = true) :
    ∃ l, Writes (t ++ '.' :: places) l ∧ l.HasDigit ∧
      l.value = ⟨(t ++ places).natural, -(places.length : Int)⟩ := by
  obtain ⟨hne, hdigits⟩ := Text.allDigits_iff.mp h
  refine ⟨⟨t, some places, none⟩, ⟨hdigits, hplaces, [], .none, ?_⟩, fun h => hne h.1, ?_⟩
  · rw [pointText, List.append_nil]
  · rw [value, Option.getD_some, Option.getD_none, Int.zero_sub]

end DotQuery.Double.Literal
