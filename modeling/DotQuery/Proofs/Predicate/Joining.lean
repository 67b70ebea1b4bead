import DotQuery.Proofs.Predicate.LeftFold
import DotQuery.Proofs.Predicate.Reading
import DotQuery.Proofs.Query.Run

/-!
# Joined predicates

Two predicates with a connective between their texts are one predicate, with the conditions of both
in order (`Chain.parse_join`), if the first text does not end in the character of the connective.
Where the second is a single condition, a filter of the joined text keeps what filters of the two
texts keep one after the other (for `&&`), or what either of them keeps (for `||`).
-/

namespace DotQuery

theorem Tokenised.append {t u head head' : Text} {terms terms' : List (Connective × Text)}
    {k : Connective} (ht : Tokenised t head terms) (hu : Tokenised u head' terms')
    (hlast : t.getLast? ≠ some k.sign) :
    Tokenised (t ++ (k.token ++ u)) head (terms ++ (k, head') :: terms') := by
  induction terms generalizing t head with
  | nil =>
    obtain ⟨rfl, hplain⟩ := tokenised_nil_iff.mp ht
    exact tokenised_cons_iff.mpr ⟨hplain, hlast, u, rfl, hu⟩
  | cons x terms ih =>
    obtain ⟨hplain, hend, rest, rfl, hrest⟩ := tokenised_cons_iff.mp ht
    have hlast' : rest.getLast? ≠ some k.sign := fun h => hlast (by simp [List.getLast?_append, h])
    refine tokenised_cons_iff.mpr ⟨hplain, hend, rest ++ (k.token ++ u), ?_, ih hrest hlast'⟩
    simp only [List.append_assoc]

namespace Chain

/-- The chain of both, with a connective between them. -/
def join (chain : Chain) (k : Connective) (chain' : Chain) : Chain :=
  { chain with rest := chain.rest ++ (k, chain'.first) :: chain'.rest }

variable {t u : Text} {chain chain' : Chain} {k : Connective}

theorem conditions_join :
    (chain.join k chain').conditions = chain.conditions ++ chain'.conditions := by
  simp [join, conditions]

theorem connectives_join :
    (chain.join k chain').connectives = chain.connectives ++ k :: chain'.connectives := by
  simp [join, connectives]

theorem join_of_rest_eq_nil (h : chain'.rest = []) :
    chain.join k chain' = chain.push k chain'.first := by
  rw [join, h]
  rfl

theorem holds_of_rest_eq_nil (h : chain.rest = []) : chain.holds = chain.first.holds := by
  funext v
  rw [holds, h]
  rfl

theorem parse_join (ht : Chain.parse t = .ok chain) (hu : Chain.parse u = .ok chain')
    (hlast : t.getLast? ≠ some k.sign) :
    Chain.parse (t ++ k.token ++ u) = .ok (chain.join k chain') := by
  have hsplit := ((tokenised_splitTerms t).append (tokenised_splitTerms u) hlast).splitTerms_eq
  obtain ⟨hconditions, hconnectives⟩ := (parse_eq_ok_iff_map rfl).mp ht
  obtain ⟨hconditions', hconnectives'⟩ := (parse_eq_ok_iff_map rfl).mp hu
  rw [List.append_assoc, parse_eq_ok_iff_map hsplit, conditions_join, connectives_join,
    List.map_append, hconditions, hconditions', hconnectives, hconnectives']
  simp

end Chain

/-! ## Filters -/

/-- What filters without a name leave of an array, one after the other. -/
def narrowed (predicates : List Text) (items : List Value) :
    Except ExecutionError (Option Value) :=
  (runSegments 0 (predicates.map fun t => .filter none (.ofText t)) (some (.array items))).result

variable {t u : Text} {chain chain' : Chain} {k : Connective}

theorem Run.result_filter_cons (ht : Chain.parse t = .ok chain) (n : Nat) (ss : List Segment)
    (items : List Value) :
    (runSegments n (.filter none (.ofText t) :: ss) (some (.array items))).result =
      (runSegments (n + 1) ss (some (.array (items.filter chain.holds)))).result := by
  have hchain : (Predicate.ofText t).chain = .ok chain := ht
  have happly : (Segment.filter none (.ofText t)).apply n (.array items) =
      .ok (some (.array (items.filter chain.holds))) := by
    simp only [Segment.apply, hchain]
    rfl
  rw [Run.result_cons, happly]
  rfl

theorem narrowed_singleton (ht : Chain.parse t = .ok chain) (items : List Value) :
    narrowed [t] items = .ok (some (.array (items.filter chain.holds))) :=
  Run.result_filter_cons ht 0 [] items

theorem narrowed_pair (ht : Chain.parse t = .ok chain) (hu : Chain.parse u = .ok chain')
    (items : List Value) :
    narrowed [t, u] items =
      .ok (some (.array ((items.filter chain.holds).filter chain'.holds))) :=
  (Run.result_filter_cons ht 0 _ items).trans (Run.result_filter_cons hu 1 [] _)

theorem narrowed_joined (ht : Chain.parse t = .ok chain) (hu : Chain.parse u = .ok chain')
    (hsingle : chain'.rest = []) (hlast : t.getLast? ≠ some k.sign) (items : List Value) :
    narrowed [t ++ k.token ++ u] items =
      .ok (some (.array (items.filter fun v => k.apply (chain.holds v) (chain'.holds v)))) := by
  have hholds : (chain.join k chain').holds =
      fun v => k.apply (chain.holds v) (chain'.holds v) := by
    funext v
    rw [Chain.join_of_rest_eq_nil hsingle, Chain.holds_push, Chain.holds_of_rest_eq_nil hsingle]
  rw [narrowed_singleton (Chain.parse_join ht hu hlast), hholds]

theorem parse_and_narrow_joined (ht : Chain.parse t = .ok chain)
    (hu : Chain.parse u = .ok chain') :
    (∀ k : Connective, t.getLast? ≠ some k.sign →
        Chain.parse (t ++ k.token ++ u) =
          .ok { chain with rest := chain.rest ++ (k, chain'.first) :: chain'.rest }) ∧
      (chain'.rest = [] → ∀ items,
        narrowed [t] items = .ok (some (.array (items.filter chain.holds))) ∧
          narrowed [u] items = .ok (some (.array (items.filter chain'.holds))) ∧
          (t.getLast? ≠ some '&' →
            narrowed [t ++ "&&".toList ++ u] items = narrowed [t, u] items ∧
              narrowed [t, u] items =
                .ok (some (.array ((items.filter chain.holds).filter chain'.holds)))) ∧
          (t.getLast? ≠ some '|' →
            narrowed [t ++ "||".toList ++ u] items =
              .ok (some (.array (items.filter fun v => chain.holds v || chain'.holds v))))) := by
  refine ⟨fun k hlast => Chain.parse_join ht hu hlast, fun hsingle items =>
    ⟨narrowed_singleton ht items, narrowed_singleton hu items, fun hlast => ?_, fun hlast => ?_⟩⟩
  · have hboth : items.filter (fun v => Connective.and.apply (chain.holds v) (chain'.holds v)) =
        (items.filter chain.holds).filter chain'.holds := by
      rw [List.filter_filter]
      exact List.filter_congr fun v _ => Bool.and_comm _ _
    have hjoin := narrowed_joined (k := .and) ht hu hsingle hlast items
    rw [hboth] at hjoin
    exact ⟨hjoin.trans (narrowed_pair ht hu items).symm, narrowed_pair ht hu items⟩
  · exact narrowed_joined (k := .or) ht hu hsingle hlast items

/-- The key of the second predicate begins with `&`. Both predicates keep the second item, and the
filter of both joined by `||` keeps it once. -/
theorem parse_and_narrow_joined_overlapping :
    let t := "a==1||b==1".toList
    let u := "&c==1".toList
    let one (key : Text) : Text × Value := (key, .string ['1'])
    let chain : Chain := ⟨⟨['a'], .equal, ['1']⟩, [(.or, ⟨['b'], .equal, ['1']⟩)]⟩
    let c : Condition := ⟨"&c".toList, .equal, ['1']⟩
    let items : List Value := [.object [one ['a']], .object [one ['b'], one "&c".toList],
      .object [one "&c".toList], .null]
    Chain.parse t = .ok chain ∧ Chain.parse u = .ok (.single c) ∧
      Chain.parse "a==1||b==1&&&c==1".toList = .ok (chain.push .and c) ∧
      narrowed ["a==1||b==1&&&c==1".toList] items =
        .ok (some (.array [.object [one ['b'], one "&c".toList]])) ∧
      narrowed ["a==1||b==1||&c==1".toList] items =
        .ok (some (.array [.object [one ['a']], .object [one ['b'], one "&c".toList],
          .object [one "&c".toList]])) := by
  intro t u one chain c items
  have ht : Chain.parse t = .ok chain := rfl
  have hu : Chain.parse u = .ok (.single c) := rfl
  obtain ⟨hparse, hnarrow⟩ := parse_and_narrow_joined ht hu
  obtain ⟨-, -, hand, hor⟩ := hnarrow rfl items
  obtain ⟨hboth, hpair⟩ := hand (by decide)
  exact ⟨ht, hu, hparse .and (by decide), hboth.trans hpair, hor (by decide)⟩

end DotQuery
