import Mathlib.Data.List.Induction
import Mathlib.Data.List.TakeWhile
import Mathlib.Tactic.Ring
import DotQuery.Proofs.Text.Pieces

/-!
# Digits and the numbers they denote

`Digits radix t n`: the text `t` is a run of digits that denotes `n`. Zeros in front do not change
the number and each zero behind multiplies it by ten. A run of digits that is followed by something
else is cut off whole (`takeWhile_append_of_stop`, `dropWhile_append_of_stop`).
-/

namespace DotQuery

/-- A run of digits of a radix, perhaps empty, and the number that it denotes. -/
inductive Digits (radix : Nat) : Text → Nat → Prop where
  | nil : Digits radix [] 0
  | concat {t : Text} {n d : Nat} {c : Char} (run : Digits radix t n)
      (digit : digitValue? radix c = some d) : Digits radix (t ++ [c]) (radix * n + d)

theorem isDigit_iff {c : Char} : isDigit c = true ↔ 48 ≤ c.toNat ∧ c.toNat ≤ 57 := by
  rw [isDigit, Bool.and_eq_true, decide_eq_true_iff, decide_eq_true_iff]
  exact Iff.rfl

theorem lt_of_digitValue? {radix d : Nat} {c : Char} (h : digitValue? radix c = some d) :
    d < radix :=
  of_decide_eq_true (Option.filter_eq_some_iff.mp h).2

theorem digitValue?_ten {d : Nat} {c : Char} (h : digitValue? 10 c = some d) :
    isDigit c = true ∧ d = c.toNat - '0'.toNat := by
  obtain ⟨hvalue, hlt⟩ := Option.filter_eq_some_iff.mp h
  have hlt : d < 10 := of_decide_eq_true hlt
  split at hvalue
  · next hdigit =>
    cases hvalue
    exact ⟨hdigit, rfl⟩
  · split at hvalue
    · cases hvalue
      omega
    · split at hvalue
      · cases hvalue
        omega
      · cases hvalue

theorem digitValue?_of_isDigit {c : Char} (h : isDigit c = true) :
    digitValue? 10 c = some (c.toNat - '0'.toNat) := by
  have hlt : c.toNat - 48 < 10 := by
    have hc := isDigit_iff.mp h
    omega
  simp [digitValue?, h, hlt]

/-! ## Reading digits -/

theorem mapM_concat_eq_some_iff {α β : Type} {f : α → Option β} {xs : List α} {x : α}
    {ys : List β} :
    (xs ++ [x]).mapM f = some ys ↔ ∃ zs y, xs.mapM f = some zs ∧ f x = some y ∧ zs ++ [y] = ys := by
  rw [List.mapM_append, List.mapM_cons, List.mapM_nil]
  cases xs.mapM f <;> cases f x <;> simp

/-- Reading a list needs every item of it. -/
theorem isSome_mapM_iff {α β : Type} {f : α → Option β} {xs : List α} :
    (xs.mapM f).isSome ↔ ∀ x ∈ xs, (f x).isSome := by
  induction xs with
  | nil => simp
  | cons x xs ih =>
    rw [List.mapM_cons, List.forall_mem_cons, ← ih]
    cases f x <;> cases xs.mapM f <;> simp

/-- The number of a list of digits, the first one in the highest place. -/
def placeValue (radix : Nat) (ds : List Nat) : Nat := ds.foldl (fun n d => radix * n + d) 0

theorem digits_iff {radix n : Nat} {t : Text} :
    Digits radix t n ↔ ∃ ds, t.mapM (digitValue? radix) = some ds ∧ placeValue radix ds = n := by
  constructor
  · intro h
    induction h with
    | nil => exact ⟨[], rfl, rfl⟩
    | concat run digit ih =>
      obtain ⟨ds, hds, rfl⟩ := ih
      refine ⟨_, mapM_concat_eq_some_iff.mpr ⟨ds, _, hds, digit, rfl⟩, ?_⟩
      rw [placeValue, List.foldl_append]
      rfl
  · rintro ⟨ds, hds, rfl⟩
    induction t using List.reverseRecOn generalizing ds with
    | nil =>
      cases hds
      exact .nil
    | append_singleton t c ih =>
      obtain ⟨es, d, hes, hd, rfl⟩ := mapM_concat_eq_some_iff.mp hds
      rw [placeValue, List.foldl_append]
      exact .concat (ih es hes) hd

instance (radix : Nat) (t : Text) (n : Nat) : Decidable (Digits radix t n) :=
  decidable_of_iff ((t.mapM (digitValue? radix)).map (placeValue radix) = some n) <| by
    rw [digits_iff, Option.map_eq_some_iff]

namespace Text

variable {p : Char → Bool} {s t : Text}

/-! ## Runs -/

theorem takeWhile_append_of_stop (hs : ∀ c ∈ s, p c = true)
    (ht : ∀ c, t.head? = some c → p c = false) : (s ++ t).takeWhile p = s := by
  rw [List.takeWhile_append_of_pos hs]
  cases t with
  | nil => exact List.append_nil s
  | cons c t => rw [List.takeWhile_cons_of_neg (by simp [ht c rfl]), List.append_nil]

theorem dropWhile_append_of_stop (hs : ∀ c ∈ s, p c = true)
    (ht : ∀ c, t.head? = some c → p c = false) : (s ++ t).dropWhile p = t := by
  rw [List.dropWhile_append_of_pos hs]
  cases t with
  | nil => rfl
  | cons c t => rw [List.dropWhile_cons_of_neg (by simp [ht c rfl])]

theorem head_dropWhile {c : Char} (h : (t.dropWhile p).head? = some c) : p c = false := by
  have hnot := List.head?_dropWhile_not p t
  rw [h] at hnot
  exact hnot

/-- The longest run in front of a text, and what is behind it. -/
theorem run_iff {r : Text} :
    (t = s ++ r ∧ (∀ c ∈ s, p c = true) ∧ ∀ c, r.head? = some c → p c = false) ↔
      s = t.takeWhile p ∧ r = t.dropWhile p := by
  constructor
  · rintro ⟨rfl, hs, hr⟩
    exact ⟨(takeWhile_append_of_stop hs hr).symm, (dropWhile_append_of_stop hs hr).symm⟩
  · rintro ⟨rfl, rfl⟩
    exact ⟨List.takeWhile_append_dropWhile.symm, fun c => List.mem_takeWhile_imp,
      fun c => head_dropWhile⟩

theorem allDigits_iff : t.allDigits = true ↔ t ≠ [] ∧ ∀ c ∈ t, isDigit c = true := by
  simp [allDigits]

/-! ## Numbers -/

theorem natural_concat (t : Text) (c : Char) :
    natural (t ++ [c]) = 10 * t.natural + (c.toNat - '0'.toNat) := by
  rw [natural, List.foldl_append]
  rfl

theorem natural_append (s t : Text) : natural (s ++ t) = s.natural * 10 ^ t.length + t.natural := by
  induction t using List.reverseRecOn with
  | nil => rw [List.append_nil, List.length_nil, Nat.pow_zero, Nat.mul_one]; rfl
  | append_singleton t c ih =>
    rw [← List.append_assoc, natural_concat, ih, natural_concat, List.length_append,
      List.length_singleton]
    ring

theorem natural_zeros (k : Nat) : natural (List.replicate k '0') = 0 := by
  induction k with
  | zero => rfl
  | succ k ih => rw [List.replicate_succ', natural_concat, ih]; rfl

theorem natural_zeros_append (k : Nat) (t : Text) :
    natural (List.replicate k '0' ++ t) = t.natural := by
  rw [natural_append, natural_zeros, Nat.zero_mul, Nat.zero_add]

theorem natural_append_zeros (t : Text) (k : Nat) :
    natural (t ++ List.replicate k '0') = t.natural * 10 ^ k := by
  rw [natural_append, natural_zeros, List.length_replicate, Nat.add_zero]

theorem natural_of_digits {n : Nat} (h : Digits 10 t n) :
    t.natural = n ∧ ∀ c ∈ t, isDigit c = true := by
  induction h with
  | nil => exact ⟨rfl, nofun⟩
  | concat run digit ih =>
    obtain ⟨hdigit, rfl⟩ := digitValue?_ten digit
    refine ⟨by rw [natural_concat, ih.1], fun c hc => ?_⟩
    rcases List.mem_append.mp hc with hc | hc
    · exact ih.2 c hc
    · exact (List.mem_singleton.mp hc) ▸ hdigit

end Text

theorem digits_natural {t : Text} (h : ∀ c ∈ t, isDigit c = true) : Digits 10 t t.natural := by
  induction t using List.reverseRecOn with
  | nil => exact .nil
  | append_singleton t c ih =>
    rw [Text.natural_concat]
    have hc : isDigit c = true := h c (List.mem_append_right t List.mem_cons_self)
    have ht : ∀ d ∈ t, isDigit d = true := fun d hd => h d (List.mem_append_left [c] hd)
    exact .concat (ih ht) (digitValue?_of_isDigit hc)

end DotQuery
