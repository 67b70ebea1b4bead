import DotQuery.Text.Numeral

/-!
# Pieces of texts

Cutting at a character gives one piece more than the character occurs (`length_splitOn`), none of
which holds it, and joining the pieces gives the text back (`joinWith_splitOn`). It undoes ending
each of some texts by a character that none of them holds (`splitOn_flatMap_concat`), and joining
such texts (`splitOn_joinWith`). A numeral holds no line feed, and neither do texts joined by a text
without one; it is a run of digits that denotes the number it was made of (`natural_ofNat`).
-/

namespace DotQuery.Text

/-! ## Cutting -/

theorem consHead_ne_nil (c : Char) (ps : List Text) : consHead c ps ≠ [] := by
  cases ps with
  | nil => exact List.cons_ne_nil _ _
  | cons p ps => exact List.cons_ne_nil _ _

theorem consHead_append (c : Char) {ps : List Text} (h : ps ≠ []) (qs : List Text) :
    consHead c (ps ++ qs) = consHead c ps ++ qs := by
  cases ps with
  | nil => exact absurd rfl h
  | cons p ps => rfl

theorem splitOn_ne_nil (sep : Char) (t : Text) : splitOn sep t ≠ [] := by
  cases t with
  | nil => exact List.cons_ne_nil _ _
  | cons c t =>
    unfold splitOn
    split
    · exact List.cons_ne_nil _ _
    · exact consHead_ne_nil _ _

theorem splitOn_cons_self (sep : Char) (t : Text) : splitOn sep (sep :: t) = [] :: splitOn sep t :=
  if_pos rfl

/-- A character that does not separate goes in front of the first piece of the rest. -/
theorem splitOn_cons_of_ne {sep c : Char} (h : c ≠ sep) (t : Text) :
    ∃ p ps, splitOn sep t = p :: ps ∧ splitOn sep (c :: t) = (c :: p) :: ps := by
  obtain ⟨p, ps, ht⟩ := List.exists_cons_of_ne_nil (splitOn_ne_nil sep t)
  refine ⟨p, ps, ht, ?_⟩
  rw [splitOn, if_neg h, ht]
  rfl

theorem length_splitOn (sep : Char) (t : Text) : (splitOn sep t).length = t.count sep + 1 := by
  induction t with
  | nil => rfl
  | cons c t ih =>
    by_cases h : c = sep
    · subst h
      rw [splitOn_cons_self, List.length_cons, ih, List.count_cons_self]
    · obtain ⟨p, ps, ht, hct⟩ := splitOn_cons_of_ne h t
      rw [hct, List.count_cons_of_ne h, ← ih, ht]
      rfl

theorem mem_of_mem_splitOn {sep c : Char} {p t : Text} (hp : p ∈ splitOn sep t) (hc : c ∈ p) :
    c ∈ t := by
  induction t generalizing p with
  | nil =>
    cases List.mem_singleton.mp hp
    cases hc
  | cons d t ih =>
    by_cases h : d = sep
    · subst h
      rw [splitOn_cons_self] at hp
      rcases List.mem_cons.mp hp with rfl | hp
      · cases hc
      · exact List.mem_cons_of_mem d (ih hp hc)
    · obtain ⟨q, qs, ht, hdt⟩ := splitOn_cons_of_ne h t
      rw [hdt] at hp
      rw [ht] at ih
      rcases List.mem_cons.mp hp with rfl | hp
      · rcases List.mem_cons.mp hc with rfl | hc
        · exact List.mem_cons_self
        · exact List.mem_cons_of_mem d (ih List.mem_cons_self hc)
      · exact List.mem_cons_of_mem d (ih (List.mem_cons_of_mem q hp) hc)

theorem splitOn_append_cons {sep : Char} {t : Text} (h : sep ∉ t) (u : Text) :
    splitOn sep (t ++ sep :: u) = t :: splitOn sep u := by
  induction t with
  | nil => exact splitOn_cons_self sep u
  | cons c t ih =>
    rw [List.mem_cons, not_or] at h
    rw [List.cons_append, splitOn, if_neg (Ne.symm h.1), ih h.2]
    rfl

theorem splitOn_of_not_mem {sep : Char} {t : Text} (h : sep ∉ t) : splitOn sep t = [t] := by
  induction t with
  | nil => rfl
  | cons c t ih =>
    rw [List.mem_cons, not_or] at h
    rw [splitOn, if_neg (Ne.symm h.1), ih h.2]
    rfl

theorem splitOn_flatMap_concat {sep : Char} {ts : List Text} (h : ∀ t ∈ ts, sep ∉ t) :
    splitOn sep (ts.flatMap (· ++ [sep])) = ts ++ [[]] := by
  induction ts with
  | nil => rfl
  | cons t ts ih =>
    rw [List.forall_mem_cons] at h
    rw [List.flatMap_cons, List.append_assoc, List.singleton_append, splitOn_append_cons h.1,
      ih h.2, List.cons_append]

theorem count_flatMap_concat {sep : Char} {ts : List Text} (h : ∀ t ∈ ts, sep ∉ t) :
    (ts.flatMap (· ++ [sep])).count sep = ts.length := by
  have hlength := congrArg List.length (splitOn_flatMap_concat h)
  rw [length_splitOn, List.length_append] at hlength
  exact Nat.succ.inj hlength

theorem splitOn_append_sep (sep : Char) (t u : Text) :
    splitOn sep (t ++ sep :: u) = splitOn sep t ++ splitOn sep u := by
  induction t with
  | nil => exact splitOn_cons_self sep u
  | cons c t ih =>
    simp only [List.cons_append, splitOn, ih]
    split
    · rfl
    · exact consHead_append c (splitOn_ne_nil sep t) _

theorem splitOn_append_flatMap {sep : Char} (t : Text) (us : List Text) :
    splitOn sep (t ++ us.flatMap (sep :: ·)) = splitOn sep t ++ us.flatMap (splitOn sep) := by
  induction us generalizing t with
  | nil => rw [List.flatMap_nil, List.flatMap_nil, List.append_nil, List.append_nil]
  | cons u us ih =>
    rw [List.flatMap_cons, List.flatMap_cons, List.cons_append, splitOn_append_sep, ih]

theorem not_mem_of_mem_splitOn {sep : Char} {p t : Text} (hp : p ∈ splitOn sep t) : sep ∉ p := by
  induction t generalizing p with
  | nil =>
    cases List.mem_singleton.mp hp
    exact List.not_mem_nil
  | cons c t ih =>
    by_cases h : c = sep
    · subst h
      rw [splitOn_cons_self] at hp
      rcases List.mem_cons.mp hp with rfl | hp
      · exact List.not_mem_nil
      · exact ih hp
    · obtain ⟨q, qs, ht, hct⟩ := splitOn_cons_of_ne h t
      rw [hct] at hp
      rw [ht] at ih
      rcases List.mem_cons.mp hp with rfl | hp
      · exact List.not_mem_cons_of_ne_of_not_mem (Ne.symm h) (ih List.mem_cons_self)
      · exact ih (List.mem_cons_of_mem q hp)

/-! ## Joining -/

theorem joinWith_cons {sep : Text} {ps : List Text} (h : ps ≠ []) (p : Text) :
    joinWith sep (p :: ps) = p ++ sep ++ joinWith sep ps := by
  cases ps with
  | nil => exact absurd rfl h
  | cons q ps => rfl

theorem joinWith_append (sep : Text) {ps qs : List Text} (hps : ps ≠ []) (hqs : qs ≠ []) :
    joinWith sep (ps ++ qs) = joinWith sep ps ++ sep ++ joinWith sep qs := by
  induction ps with
  | nil => exact absurd rfl hps
  | cons p ps ih =>
    cases ps with
    | nil => exact joinWith_cons hqs p
    | cons q ps =>
      have hrest : q :: ps ++ qs ≠ [] := List.cons_ne_nil _ _
      rw [List.cons_append, joinWith_cons hrest, ih (List.cons_ne_nil q ps),
        joinWith_cons (List.cons_ne_nil q ps)]
      simp only [List.append_assoc]

theorem joinWith_consHead (sep : Text) (c : Char) {ps : List Text} (h : ps ≠ []) :
    joinWith sep (consHead c ps) = c :: joinWith sep ps := by
  cases ps with
  | nil => exact absurd rfl h
  | cons p ps => cases ps <;> rfl

theorem joinWith_splitOn (sep : Char) (t : Text) : joinWith [sep] (splitOn sep t) = t := by
  induction t with
  | nil => rfl
  | cons c t ih =>
    by_cases h : c = sep
    · subst h
      rw [splitOn_cons_self, joinWith_cons (splitOn_ne_nil c t), ih]
      rfl
    · rw [splitOn, if_neg h, joinWith_consHead _ _ (splitOn_ne_nil sep t), ih]

/-- Joining pieces that do not hold the separator is undone by cutting. -/
theorem splitOn_joinWith {sep : Char} {ps : List Text} (hne : ps ≠ []) (h : ∀ p ∈ ps, sep ∉ p) :
    splitOn sep (joinWith [sep] ps) = ps := by
  induction ps with
  | nil => exact absurd rfl hne
  | cons p ps ih =>
    rw [List.forall_mem_cons] at h
    cases ps with
    | nil => exact splitOn_of_not_mem h.1
    | cons q ps =>
      have hrest : splitOn sep (joinWith [sep] (q :: ps)) = q :: ps :=
        ih (List.cons_ne_nil q ps) h.2
      rw [joinWith, List.append_assoc, List.singleton_append, splitOn_append_cons h.1, hrest]

theorem not_mem_joinWith {c : Char} {sep : Text} (hsep : c ∉ sep) :
    ∀ {ps : List Text}, (∀ p ∈ ps, c ∉ p) → c ∉ joinWith sep ps
  | [], _ => List.not_mem_nil
  | [p], h => h p List.mem_cons_self
  | p :: q :: ps, h => by
    rw [List.forall_mem_cons] at h
    have hrest : c ∉ joinWith sep (q :: ps) := not_mem_joinWith hsep h.2
    simp only [joinWith, List.mem_append, not_or]
    exact ⟨⟨h.1, hsep⟩, hrest⟩

theorem subset_joinWith (sep : Text) : ∀ {ps : List Text} {p : Text}, p ∈ ps → p ⊆ joinWith sep ps
  | [q], p, h => by
    cases List.mem_singleton.mp h
    exact List.Subset.refl _
  | q :: r :: ps, p, h => by
    rw [joinWith]
    rcases List.mem_cons.mp h with rfl | h
    · rw [List.append_assoc]
      exact List.subset_append_left p _
    · exact List.Subset.trans (subset_joinWith sep h) (List.subset_append_right _ _)

/-! ## Numerals -/

theorem isDigit_of_mem_ofNat {n : Nat} {c : Char} (h : c ∈ ofNat n) : isDigit c = true :=
  Nat.isDigit_of_mem_toDigits (by decide) (by decide) h

theorem lineFeed_not_mem_ofNat (n : Nat) : '\n' ∉ ofNat n := fun h =>
  absurd (isDigit_of_mem_ofNat h) (by decide)

theorem not_mem_ofNatHex {c : Char} (h : digitValue? 16 c = none) (n : Nat) : c ∉ ofNatHex n := by
  unfold ofNatHex
  have hdigit : ∀ d, d < 16 → digitValue? 16 (Nat.digitChar d) ≠ none := by decide
  induction n using Nat.strongRecOn with
  | ind n ih =>
    rw [Nat.toDigits_eq_if (by decide)]
    split
    · next hn => exact fun hmem => hdigit n hn (List.mem_singleton.mp hmem ▸ h)
    · next hn =>
      intro hmem
      rcases List.mem_append.mp hmem with hmem | hmem
      · exact ih (n / 16) (Nat.div_lt_self (by omega) (by decide)) hmem
      · exact hdigit (n % 16) (Nat.mod_lt n (by decide)) (List.mem_singleton.mp hmem ▸ h)

theorem lineFeed_not_mem_ofNatHex (n : Nat) : '\n' ∉ ofNatHex n := not_mem_ofNatHex rfl n

theorem allDigits_ofNat (n : Nat) : (ofNat n).allDigits = true := by
  have hne : (ofNat n).isEmpty = false := List.isEmpty_eq_false_iff.mpr Nat.toDigits_ne_nil
  rw [allDigits, hne]
  exact List.all_eq_true.mpr fun c hc => isDigit_of_mem_ofNat hc

theorem natural_ofNat (n : Nat) : (ofNat n).natural = n := Nat.ofDigitChars_ten_toDigits

theorem lineFeed_not_mem_ofInt (i : Int) : '\n' ∉ ofInt i := by
  cases i with
  | ofNat n => exact lineFeed_not_mem_ofNat n
  | negSucc n => exact List.not_mem_cons_of_ne_of_not_mem (by decide) (lineFeed_not_mem_ofNat _)

end DotQuery.Text
