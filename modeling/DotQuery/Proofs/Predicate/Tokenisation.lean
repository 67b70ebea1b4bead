import DotQuery.Proofs.Predicate.Canonical

/-!
# The terms of a predicate

A text is cut in exactly one way into terms with connectives between them (`Tokenised`), if no term
holds a connective and none ends in the character of the connective behind it: `splitTerms` cuts it
so (`tokenised_iff`). This is the same as looking for the next connective over and over, each time
for both of them (`splitTerms_eq_next`).
-/

namespace DotQuery

/-! ## Cutting in one way only -/

/-- The text of a term and of further terms, each behind its connective. -/
def joinTerms (head : Text) (terms : List (Connective × Text)) : Text :=
  head ++ terms.flatMap fun (k, u) => k.token ++ u

/-- The text is a term and further terms, each behind its connective. No term holds a connective,
and none ends in the character of the connective behind it. -/
structure Tokenised (t head : Text) (terms : List (Connective × Text)) : Prop where
  text : t = joinTerms head terms
  plain : ∀ u ∈ head :: terms.map Prod.snd, Plain u
  ends : ∀ x ∈ (head :: terms.map Prod.snd).zip (terms.map Prod.fst), x.1.getLast? ≠ some x.2.sign

variable {t head u : Text} {k : Connective} {terms : List (Connective × Text)}

theorem tokenised_nil_iff : Tokenised t head [] ↔ t = head ∧ Plain head := by
  constructor
  · intro h
    exact ⟨by simpa [joinTerms] using h.text, h.plain head List.mem_cons_self⟩
  · rintro ⟨rfl, hplain⟩
    exact ⟨by simp [joinTerms], by simpa using hplain, by simp⟩

theorem tokenised_cons_iff : Tokenised t head ((k, u) :: terms) ↔
    Plain head ∧ head.getLast? ≠ some k.sign ∧
      ∃ rest, t = head ++ (k.token ++ rest) ∧ Tokenised rest u terms := by
  constructor
  · rintro ⟨htext, hplain, hends⟩
    rw [List.forall_mem_cons] at hplain
    simp only [List.map_cons, List.zip_cons_cons, List.forall_mem_cons] at hends
    refine ⟨hplain.1, hends.1, joinTerms u terms, ?_, rfl, hplain.2, hends.2⟩
    simpa [joinTerms] using htext
  · rintro ⟨hplain, hlast, rest, rfl, htext, hplains, hends⟩
    refine ⟨by simp [joinTerms, htext], List.forall_mem_cons.mpr ⟨hplain, hplains⟩, ?_⟩
    simp only [List.map_cons, List.zip_cons_cons, List.forall_mem_cons]
    exact ⟨hlast, hends⟩

theorem Tokenised.splitTerms_eq (h : Tokenised t head terms) : splitTerms t = (head, terms) := by
  induction terms generalizing t head with
  | nil =>
    obtain ⟨rfl, hplain⟩ := tokenised_nil_iff.mp h
    exact splitTerms_of_plain hplain
  | cons x terms ih =>
    obtain ⟨hplain, hlast, rest, rfl, hrest⟩ := tokenised_cons_iff.mp h
    rw [splitTerms_append_token hplain hlast, ih hrest]

/-- A character in front of a text, with which no connective begins, belongs to the first term. -/
theorem Tokenised.cons {c : Char} (hc : ∀ l : Connective, ¬ l.token <+: c :: t)
    (h : Tokenised t head terms) : Tokenised (c :: t) (c :: head) terms := by
  have hplain : Plain (c :: head) := by
    refine plain_cons_iff.mpr ⟨fun l hl => hc l (hl.trans ?_), h.plain head List.mem_cons_self⟩
    exact List.cons_prefix_cons.mpr ⟨rfl, h.text ▸ List.prefix_append head _⟩
  cases terms with
  | nil => exact tokenised_nil_iff.mpr ⟨congrArg (c :: ·) (tokenised_nil_iff.mp h).1, hplain⟩
  | cons x terms =>
    obtain ⟨-, hlast, rest, rfl, hrest⟩ := tokenised_cons_iff.mp h
    refine tokenised_cons_iff.mpr ⟨hplain, ?_, rest, rfl, hrest⟩
    cases head with
    | nil =>
      -- an empty term leaves the character next to the connective, with which it must not form one
      intro hlast
      refine hc x.1 (Connective.token_isPrefix_cons_iff.mpr ⟨Option.some.inj hlast, ?_⟩)
      rw [List.nil_append, x.1.token_eq]
      rfl
    | cons d head => simpa [List.getLast?_cons_cons] using hlast

theorem tokenised_splitTerms (t : Text) : Tokenised t (splitTerms t).1 (splitTerms t).2 := by
  induction t using splitTerms_induction with
  | nil => exact tokenised_nil_iff.mpr ⟨rfl, plain_nil⟩
  | token k t ih =>
    rw [splitTerms_token]
    exact tokenised_cons_iff.mpr ⟨plain_nil, nofun, t, rfl, ih⟩
  | cons c t hc ih =>
    rw [splitTerms_cons hc]
    exact ih.cons hc

theorem tokenised_iff : Tokenised t head terms ↔ splitTerms t = (head, terms) := by
  refine ⟨Tokenised.splitTerms_eq, fun h => ?_⟩
  have hsplit := tokenised_splitTerms t
  rw [h] at hsplit
  exact hsplit

/-! ## Searching for connectives -/

/-- The connective of which the first occurrence is further to the left, and the texts around it. -/
def nextConnective? (t : Text) : Option (Connective × Text × Text) :=
  match Text.cutAtFirst Connective.and.token t, Text.cutAtFirst Connective.or.token t with
  | some a, some o => if a.1.length ≤ o.1.length then some (.and, a) else some (.or, o)
  | some a, none => some (.and, a)
  | none, o => o.map fun around => (.or, around)

theorem nextConnective?_token (k : Connective) (t : Text) :
    nextConnective? (k.token ++ t) = some (k, [], t) := by
  have hself : Text.cutAtFirst k.token (k.token ++ t) = some ([], t) :=
    Text.cutAtFirst_token_append k.token_ne_nil t
  unfold nextConnective?
  cases k with
  | and =>
    rw [hself]
    cases Text.cutAtFirst Connective.or.token (Connective.and.token ++ t) <;> rfl
  | or =>
    have hprefix : ¬ Connective.and.token <+: '|' :: '|' :: t := by
      simp [Connective.token_isPrefix_cons_iff, Connective.sign]
    rw [hself, show Connective.or.token ++ t = '|' :: '|' :: t from rfl,
      Text.cutAtFirst_cons_of_not_isPrefix hprefix]
    cases Text.cutAtFirst Connective.and.token ('|' :: t) <;> rfl

theorem nextConnective?_cons {c : Char} (hc : ∀ l : Connective, ¬ l.token <+: c :: t) :
    nextConnective? (c :: t) =
      (nextConnective? t).map fun (k, before, rest) => (k, c :: before, rest) := by
  unfold nextConnective?
  rw [Text.cutAtFirst_cons_of_not_isPrefix (hc .and), Text.cutAtFirst_cons_of_not_isPrefix (hc .or)]
  cases Text.cutAtFirst Connective.and.token t with
  | none => cases Text.cutAtFirst Connective.or.token t <;> rfl
  | some a =>
    cases Text.cutAtFirst Connective.or.token t with
    | none => rfl
    | some o =>
      simp only [Option.map_some, List.length_cons, Nat.add_le_add_iff_right]
      split <;> rfl

theorem splitTerms_eq_next (t : Text) :
    splitTerms t =
      match nextConnective? t with
      | none => (t, [])
      | some (k, before, rest) => (before, (k, (splitTerms rest).1) :: (splitTerms rest).2) := by
  induction t using splitTerms_induction with
  | nil => rfl
  | token k t ih => rw [splitTerms_token, nextConnective?_token]
  | cons c t hc ih =>
    rw [splitTerms_cons hc, nextConnective?_cons hc, ih]
    rcases nextConnective? t with _ | ⟨k, before, rest⟩ <;> rfl

end DotQuery
