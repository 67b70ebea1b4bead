import Mathlib.Logic.ExistsUnique
import DotQuery.Proofs.Predicate.Tokenisation

/-!
# What parsing reads

A term is a condition exactly if an operator occurs in it. A predicate parses if all of its terms
are conditions, and gives these and the connectives between them, in order; if not, the error is
about the first term without an operator (`Chain.parse_reads_terms`). All that is read, and all that
an error is about, is made of characters of the predicate (`Chain.subset_of_parse`).
-/

namespace DotQuery

/-! ## Terms -/

/-- Some operator occurs in the text. -/
def HasOperator (t : Text) : Prop := ∃ op : Operator, op.token <:+: t

theorem Operator.cut?_eq_none_iff {t : Text} : cut? t = none ↔ ¬ HasOperator t := by
  unfold cut? HasOperator
  simp only [List.findSome?_eq_none_iff, Option.map_eq_none_iff, mem_byPriority, forall_const,
    Text.cutAtFirst_eq_none_iff (token_ne_nil _), not_exists]

theorem Condition.parse_eq_error_iff {t : Text} {e : InvalidCondition} :
    Condition.parse t = .error e ↔ ¬ HasOperator t ∧ e.condition = t.trim := by
  rw [parse_eq, ← Operator.cut?_eq_none_iff]
  rcases Operator.cut? t with _ | ⟨op, key, value⟩
  · obtain ⟨condition⟩ := e
    simp [eq_comm]
  · simp

theorem Condition.exists_parse_iff {t : Text} :
    (∃ c, Condition.parse t = .ok c) ↔ HasOperator t := by
  cases h : Condition.parse t with
  | error e => exact iff_of_false nofun (parse_eq_error_iff.mp h).1
  | ok c =>
    refine iff_of_true ⟨c, rfl⟩ (Classical.byContradiction fun hno => ?_)
    have herror : Condition.parse t = .error ⟨t.trim⟩ := parse_eq_error_iff.mpr ⟨hno, rfl⟩
    cases h.symm.trans herror

/-! ## Lists of terms -/

/-- The error is about the first of some terms that has no operator. -/
def FirstInvalid (ts : List Text) (e : InvalidCondition) : Prop :=
  ∃ before t after, ts = before ++ t :: after ∧ (∀ u ∈ before, HasOperator u) ∧
    ¬ HasOperator t ∧ e.condition = t.trim

theorem not_firstInvalid_nil {e : InvalidCondition} : ¬ FirstInvalid [] e := by
  rintro ⟨before, t, after, h, -⟩
  cases before <;> cases h

theorem firstInvalid_cons_iff {t : Text} {ts : List Text} {e : InvalidCondition} :
    FirstInvalid (t :: ts) e ↔
      (¬ HasOperator t ∧ e.condition = t.trim) ∨ (HasOperator t ∧ FirstInvalid ts e) := by
  constructor
  · rintro ⟨before, u, after, h, hbefore, hu, he⟩
    cases before with
    | nil =>
      cases h
      exact .inl ⟨hu, he⟩
    | cons w before =>
      cases h
      rw [List.forall_mem_cons] at hbefore
      exact .inr ⟨hbefore.1, before, u, after, rfl, hbefore.2, hu, he⟩
  · rintro (⟨ht, he⟩ | ⟨ht, before, u, after, rfl, hbefore, hu, he⟩)
    · exact ⟨[], t, ts, rfl, List.forall_mem_nil _, ht, he⟩
    · exact ⟨t :: before, u, after, rfl, List.forall_mem_cons.mpr ⟨ht, hbefore⟩, hu, he⟩

theorem FirstInvalid.exists_mem {ts : List Text} {e : InvalidCondition} (h : FirstInvalid ts e) :
    ∃ t ∈ ts, ¬ HasOperator t := by
  obtain ⟨before, t, after, rfl, -, ht, -⟩ := h
  exact ⟨t, List.mem_append_right _ List.mem_cons_self, ht⟩

theorem parseTerms_eq_ok_iff {ts : List (Connective × Text)} {cs : List (Connective × Condition)} :
    parseTerms ts = .ok cs ↔
      (cs.map Prod.snd).map .ok = (ts.map Prod.snd).map Condition.parse ∧
        cs.map Prod.fst = ts.map Prod.fst := by
  induction ts generalizing cs with
  | nil => cases cs <;> simp [parseTerms]
  | cons x ts ih =>
    rw [parseTerms_cons_eq_ok_iff]
    constructor
    · rintro ⟨c, cs', hc, hcs, rfl⟩
      obtain ⟨hconditions, hconnectives⟩ := ih.mp hcs
      simp only [List.map_cons, hconditions, hconnectives, hc, true_and]
    · rintro ⟨hconditions, hconnectives⟩
      cases cs with
      | nil => cases hconnectives
      | cons y cs =>
        obtain ⟨hc, hconditions⟩ := List.cons_eq_cons.mp hconditions
        obtain ⟨hk, hconnectives⟩ := List.cons_eq_cons.mp hconnectives
        exact ⟨y.2, cs, hc.symm, ih.mpr ⟨hconditions, hconnectives⟩, by rw [← hk]⟩

theorem parseTerms_eq_error_iff {ts : List (Connective × Text)} {e : InvalidCondition} :
    parseTerms ts = .error e ↔ FirstInvalid (ts.map Prod.snd) e := by
  induction ts with
  | nil => exact iff_of_false nofun not_firstInvalid_nil
  | cons x ts ih =>
    obtain ⟨k, t⟩ := x
    rw [parseTerms_cons, bind_map_eq_error_iff, Condition.parse_eq_error_iff,
      Condition.exists_parse_iff, ih, List.map_cons, firstInvalid_cons_iff]

/-! ## Predicates -/

namespace Chain

variable {t head : Text} {terms : List (Connective × Text)}

theorem parse_eq_ok_iff_map (h : splitTerms t = (head, terms)) {chain : Chain} :
    Chain.parse t = .ok chain ↔
      chain.conditions.map .ok = (head :: terms.map Prod.snd).map Condition.parse ∧
        chain.connectives = terms.map Prod.fst := by
  rw [parse_eq_ok_iff, h, parseTerms_eq_ok_iff, conditions, connectives, List.map_cons,
    List.map_cons, List.cons_eq_cons, and_assoc, eq_comm (a := Condition.parse head)]

theorem parse_eq_error_iff (h : splitTerms t = (head, terms)) {e : InvalidCondition} :
    Chain.parse t = .error e ↔ FirstInvalid (head :: terms.map Prod.snd) e := by
  rw [Chain.parse_eq, h, bind_map_eq_error_iff, Condition.parse_eq_error_iff,
    Condition.exists_parse_iff, parseTerms_eq_error_iff, firstInvalid_cons_iff]

theorem exists_parse_iff (h : splitTerms t = (head, terms)) :
    (∃ chain, Chain.parse t = .ok chain) ↔ ∀ u ∈ head :: terms.map Prod.snd, HasOperator u := by
  constructor
  · rintro ⟨chain, hchain⟩ u hu
    have hparse := List.mem_map_of_mem (f := Condition.parse) hu
    rw [← ((parse_eq_ok_iff_map h).mp hchain).1, List.mem_map] at hparse
    obtain ⟨c, -, hc⟩ := hparse
    exact Condition.exists_parse_iff.mp ⟨c, hc.symm⟩
  · intro hall
    cases hparse : Chain.parse t with
    | ok chain => exact ⟨chain, rfl⟩
    | error e =>
      obtain ⟨u, hu, hbad⟩ := ((parse_eq_error_iff h).mp hparse).exists_mem
      exact absurd (hall u hu) hbad

theorem parse_reads_terms (t : Text) :
    (∃! p : Text × List (Connective × Text), Tokenised t p.1 p.2) ∧
      ∀ head terms, Tokenised t head terms →
        ((∃ chain, Chain.parse t = .ok chain) ↔
            ∀ u ∈ head :: terms.map Prod.snd, HasOperator u) ∧
          (∀ chain, Chain.parse t = .ok chain ↔
            chain.conditions.map .ok = (head :: terms.map Prod.snd).map Condition.parse ∧
              chain.connectives = terms.map Prod.fst) ∧
          ∀ e, Chain.parse t = .error e ↔ FirstInvalid (head :: terms.map Prod.snd) e := by
  refine ⟨⟨splitTerms t, tokenised_splitTerms t, fun p hp => hp.splitTerms_eq.symm⟩, ?_⟩
  intro head terms h
  have hsplit := h.splitTerms_eq
  exact ⟨exists_parse_iff hsplit, fun chain => parse_eq_ok_iff_map hsplit,
    fun e => parse_eq_error_iff hsplit⟩

/-- Of three signs in a row the first two are the connective; of two terms without an operator the
first is the error. -/
theorem parse_reads_terms_overlapping :
    let t := " a>1&|&&&b==x||*|".toList
    let u := "a>1|||b &&&".toList
    Tokenised t " a>1&|".toList [(.and, "&b==x".toList), (.or, "*|".toList)] ∧
      Chain.parse t = .ok ⟨⟨['a'], .greater, "1&|".toList⟩,
        [(.and, ⟨"&b".toList, .equal, ['x']⟩), (.or, .wildcard)]⟩ ∧
      Tokenised u "a>1".toList [(.or, "|b ".toList), (.and, ['&'])] ∧
      Chain.parse u = .error ⟨"|b".toList⟩ := by
  intro t u
  have ht : Tokenised t " a>1&|".toList [(.and, "&b==x".toList), (.or, "*|".toList)] :=
    tokenised_iff.mpr rfl
  have hu : Tokenised u "a>1".toList [(.or, "|b ".toList), (.and, ['&'])] := tokenised_iff.mpr rfl
  refine ⟨ht, ?_, hu, ?_⟩
  · exact (((parse_reads_terms t).2 _ _ ht).2.1 _).mpr ⟨rfl, rfl⟩
  · refine (((parse_reads_terms u).2 _ _ hu).2.2 _).mpr
      ⟨["a>1".toList], "|b ".toList, [['&']], rfl, ?_, ?_, rfl⟩
    · exact List.forall_mem_singleton.mpr ⟨.greater, ['a'], ['1'], rfl⟩
    · exact Operator.cut?_eq_none_iff.mp rfl

end Chain

/-! ## Characters -/

theorem Condition.subset_of_parse {t : Text} {c : Condition} (h : Condition.parse t = .ok c) :
    c.key ⊆ t ∧ c.value ⊆ t := by
  rw [parse_eq] at h
  rcases hcut : Operator.cut? t with _ | ⟨op, key, value⟩
  · rw [hcut] at h
    cases h
  · rw [hcut] at h
    cases h
    obtain ⟨rfl, -⟩ :=
      Text.cutAtFirst_eq_some op.token_ne_nil (Operator.cut?_eq_some_iff.mp hcut).1
    unfold ofParts
    split
    · exact ⟨List.nil_subset _, List.nil_subset _⟩
    · constructor
      · refine List.Subset.trans (Text.trim_isInfix key).subset ?_
        rw [List.append_assoc]
        exact List.subset_append_left key _
      · exact List.Subset.trans (Text.trim_isInfix value).subset (List.subset_append_right _ value)

theorem Tokenised.subset {t head : Text} {terms : List (Connective × Text)}
    (h : Tokenised t head terms) : ∀ u ∈ head :: terms.map Prod.snd, u ⊆ t := by
  intro u hu
  rw [h.text]
  rcases List.mem_cons.mp hu with rfl | hu
  · exact List.subset_append_left u _
  · obtain ⟨⟨k, u⟩, hmem, rfl⟩ := List.mem_map.mp hu
    intro c hc
    refine List.mem_append_right head (List.mem_flatMap.mpr ⟨(k, u), hmem, ?_⟩)
    exact List.mem_append_right k.token hc

theorem Chain.subset_of_parse {t : Text} {chain : Chain} (h : Chain.parse t = .ok chain) :
    ∀ c ∈ chain.conditions, c.key ⊆ t ∧ c.value ⊆ t := by
  intro c hc
  have hparse := List.mem_map_of_mem (f := Except.ok (ε := InvalidCondition)) hc
  rw [((parse_eq_ok_iff_map rfl).mp h).1, List.mem_map] at hparse
  obtain ⟨u, hu, hparse⟩ := hparse
  have hut := (tokenised_splitTerms t).subset u hu
  obtain ⟨hkey, hvalue⟩ := Condition.subset_of_parse hparse
  exact ⟨List.Subset.trans hkey hut, List.Subset.trans hvalue hut⟩

theorem Chain.subset_of_parse_error {t : Text} {e : InvalidCondition}
    (h : Chain.parse t = .error e) : e.condition ⊆ t := by
  obtain ⟨before, u, after, hterms, -, -, he⟩ := (parse_eq_error_iff rfl).mp h
  have hu := List.mem_append_right before (List.mem_cons_self (a := u) (l := after))
  rw [← hterms] at hu
  rw [he]
  exact List.Subset.trans (Text.trim_isInfix u).subset ((tokenised_splitTerms t).subset u hu)

end DotQuery
