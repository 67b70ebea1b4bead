import DotQuery.Proofs.Predicate.Reading

/-!
# Printing and parsing chains

Parsing gives canonical conditions only (`canonical_of_parse`), and exactly the chains of canonical
conditions are read back from their text (`parse_text_of_canonical`). So a text that parses has a
normal form: the text of its chain, which parses to the same chain.
-/

namespace DotQuery

namespace Chain

/-- A connective with the condition behind it, as part of the text of a chain. -/
def linkText (x : Connective × Condition) : Text := ' ' :: (x.1.token ++ ' ' :: x.2.text)

theorem text_eq (chain : Chain) :
    chain.text = chain.first.text ++ chain.rest.flatMap linkText := rfl

/-- Printed conditions behind a plain text are its further terms. -/
theorem parse_splitTerms_linkText {rest : List (Connective × Condition)}
    (hrest : ∀ x ∈ rest, x.2.Canonical) {t : Text} (ht : Plain t) :
    Condition.parse (splitTerms (t ++ rest.flatMap linkText)).1 = Condition.parse t ∧
      parseTerms (splitTerms (t ++ rest.flatMap linkText)).2 = .ok rest := by
  induction rest generalizing t with
  | nil =>
    rw [List.flatMap_nil, List.append_nil, splitTerms_of_plain ht]
    exact ⟨rfl, rfl⟩
  | cons x rest ih =>
    obtain ⟨k, c⟩ := x
    rw [List.forall_mem_cons] at hrest
    obtain ⟨hfirst, hterms⟩ := ih hrest.2 (plain_blank_cons_iff.mpr hrest.1.plain_text)
    have hlink : t ++ ((k, c) :: rest).flatMap linkText =
        t ++ ' ' :: (k.token ++ (' ' :: c.text ++ rest.flatMap linkText)) := by
      simp [linkText]
    rw [hlink, splitTerms_join ht]
    refine ⟨Condition.parse_concat_blank t, parseTerms_cons_eq_ok_iff.mpr ?_⟩
    refine ⟨c, rest, ?_, hterms, rfl⟩
    rw [hfirst, Condition.parse_blank_cons]
    exact hrest.1.parse_text

theorem parse_text_of_canonical {chain : Chain} (h : ∀ c ∈ chain.conditions, c.Canonical) :
    Chain.parse chain.text = .ok chain := by
  rw [conditions, List.forall_mem_cons, List.forall_mem_map] at h
  obtain ⟨hfirst, hrest⟩ := h
  obtain ⟨hhead, hterms⟩ := parse_splitTerms_linkText hrest hfirst.plain_text
  rw [parse_eq_ok_iff, text_eq]
  exact ⟨hhead.trans hfirst.parse_text, hterms⟩

theorem canonical_of_parse {t : Text} {chain : Chain} (h : Chain.parse t = .ok chain) :
    ∀ c ∈ chain.conditions, c.Canonical := by
  intro c hc
  have hmem : (.ok c : Except InvalidCondition Condition) ∈ chain.conditions.map .ok :=
    List.mem_map_of_mem hc
  rw [((parse_eq_ok_iff_map rfl).mp h).1, List.mem_map] at hmem
  obtain ⟨u, hu, hparse⟩ := hmem
  exact Condition.canonical_of_parse ((tokenised_splitTerms t).plain u hu) hparse

theorem round_trip_iff_canonical :
    (∀ t chain, Chain.parse t = .ok chain → ∀ c ∈ chain.conditions, c.Canonical) ∧
      (∀ chain : Chain,
        Chain.parse chain.text = .ok chain ↔ ∀ c ∈ chain.conditions, c.Canonical) ∧
      (∀ t chain, Chain.parse t = .ok chain → Chain.parse chain.text = .ok chain) :=
  ⟨fun _ _ => canonical_of_parse, fun _ => ⟨canonical_of_parse, parse_text_of_canonical⟩,
    fun _ _ h => parse_text_of_canonical (canonical_of_parse h)⟩

/-- Pieces of tokens that are left in keys and values do no harm. -/
theorem round_trip_leftovers :
    let t := " a& > =1|  &&&k! == x= ".toList
    let chain : Chain :=
      ⟨⟨"a&".toList, .greater, "=1|".toList⟩, [(.and, ⟨"&k!".toList, .equal, "x=".toList⟩)]⟩
    Chain.parse t = .ok chain ∧ chain.text = "a& > =1| && &k! == x=".toList ∧
      Chain.parse chain.text = .ok chain := by
  intro t chain
  have h : Chain.parse t = .ok chain := rfl
  exact ⟨h, rfl, round_trip_iff_canonical.2.2 t chain h⟩

end Chain

end DotQuery
