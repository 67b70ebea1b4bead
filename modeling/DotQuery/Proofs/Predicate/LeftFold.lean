import Mathlib.Data.List.Induction
import DotQuery.Predicate.Eval

/-!
# Chains from the left

A chain is a condition, or a chain with a connective and a condition behind it
(`Chain.push_induction`), and whether it holds is decided at the last connective
(`Chain.holds_push`). So a chain holds exactly if some condition carries it: it is the first one or
stands behind an `||`, it holds, and so do all later conditions that stand behind an `&&`
(`Chain.holds_iff_carries`). Where no `||` comes before an `&&`, this is the usual reading, in which
`&&` binds tighter (`Chain.holdsByPrecedence`).
-/

namespace DotQuery

theorem getElem?_concat_eq_some_iff {α : Type} {l : List α} {a b : α} {i : Nat} :
    (l ++ [a])[i]? = some b ↔ l[i]? = some b ∨ (i = l.length ∧ a = b) := by
  rcases Nat.lt_trichotomy i l.length with h | rfl | h
  · simp [List.getElem?_append_left h, Nat.ne_of_lt h]
  · simp
  · have hconcat : (l ++ [a])[i]? = none :=
      List.getElem?_eq_none (by simpa using Nat.succ_le_of_lt h)
    have hl : l[i]? = none := List.getElem?_eq_none (Nat.le_of_lt h)
    simp [hconcat, hl, Nat.ne_of_gt h]

namespace Chain

/-- A chain is one condition or has a last one. -/
@[elab_as_elim]
theorem push_induction {motive : Chain → Prop} (single : ∀ c, motive (.single c))
    (push : ∀ chain k c, motive chain → motive (push chain k c)) (chain : Chain) :
    motive chain := by
  obtain ⟨first, rest⟩ := chain
  induction rest using List.reverseRecOn with
  | nil => exact single first
  | append_singleton rest x ih => exact push ⟨first, rest⟩ x.1 x.2 ih

variable {chain : Chain} {k : Connective} {c : Condition} {v : Value} {i : Nat}

theorem conditions_push : (chain.push k c).conditions = chain.conditions ++ [c] := by
  simp [push, conditions]

theorem connectives_push : (chain.push k c).connectives = chain.connectives ++ [k] := by
  simp [push, connectives]

theorem length_conditions (chain : Chain) : chain.conditions.length = chain.length := by
  simp [conditions, length]

theorem length_connectives (chain : Chain) : chain.connectives.length + 1 = chain.length := by
  simp [connectives, length]

theorem holds_push (chain : Chain) (k : Connective) (c : Condition) (v : Value) :
    (chain.push k c).holds v = k.apply (chain.holds v) (c.holds v) := by
  simp [holds, push, List.foldl_append]

/-! ## The condition that carries -/

/-- Condition `i` of the chain is there and holds. -/
def HoldsAt (chain : Chain) (v : Value) (i : Nat) : Prop :=
  ∃ c, chain.conditions[i]? = some c ∧ c.holds v = true

/-- The connective in front of condition `i`; the first one has none. -/
def connectiveBefore? (chain : Chain) : Nat → Option Connective
  | 0 => none
  | i + 1 => chain.connectives[i]?

/-- Condition `i` makes the chain hold, and no later condition undoes this. -/
structure Carries (chain : Chain) (v : Value) (i : Nat) : Prop where
  starts : i = 0 ∨ chain.connectiveBefore? i = some .or
  holds : chain.HoldsAt v i
  kept : ∀ j, i < j → chain.connectiveBefore? j = some .and → chain.HoldsAt v j

theorem HoldsAt.lt_length (h : chain.HoldsAt v i) : i < chain.length := by
  obtain ⟨c, hc, -⟩ := h
  rw [← length_conditions]
  exact (List.getElem?_eq_some_iff.mp hc).1

theorem holdsAt_push_iff : (chain.push k c).HoldsAt v i ↔
    chain.HoldsAt v i ∨ (i = chain.length ∧ c.holds v = true) := by
  unfold HoldsAt
  rw [conditions_push, ← length_conditions]
  constructor
  · rintro ⟨d, hd, hv⟩
    rcases getElem?_concat_eq_some_iff.mp hd with hd | ⟨hi, rfl⟩
    · exact .inl ⟨d, hd, hv⟩
    · exact .inr ⟨hi, hv⟩
  · rintro (⟨d, hd, hv⟩ | ⟨hi, hv⟩)
    · exact ⟨d, getElem?_concat_eq_some_iff.mpr (.inl hd), hv⟩
    · exact ⟨c, getElem?_concat_eq_some_iff.mpr (.inr ⟨hi, rfl⟩), hv⟩

theorem connectiveBefore?_push_iff {l : Connective} :
    (chain.push k c).connectiveBefore? i = some l ↔
      chain.connectiveBefore? i = some l ∨ (i = chain.length ∧ k = l) := by
  cases i with
  | zero => simp [connectiveBefore?, length]
  | succ i =>
    rw [← length_connectives, Nat.add_right_cancel_iff, connectiveBefore?, connectives_push]
    exact getElem?_concat_eq_some_iff

theorem lt_length_of_connectiveBefore? {l : Connective} (h : chain.connectiveBefore? i = some l) :
    i < chain.length := by
  cases i with
  | zero => cases h
  | succ i =>
    rw [← length_connectives]
    exact Nat.succ_lt_succ (List.getElem?_eq_some_iff.mp h).1

theorem Carries.push (h : chain.Carries v i) (hc : k = .and → c.holds v = true) :
    (chain.push k c).Carries v i where
  starts := h.starts.imp_right fun hor => connectiveBefore?_push_iff.mpr (.inl hor)
  holds := holdsAt_push_iff.mpr (.inl h.holds)
  kept j hij hj := by
    rw [holdsAt_push_iff]
    rcases connectiveBefore?_push_iff.mp hj with hj | ⟨hlast, hk⟩
    · exact .inl (h.kept j hij hj)
    · exact .inr ⟨hlast, hc hk⟩

/-- A condition that carries a longer chain is the last one, behind an `||`, or carries without the
last one. -/
theorem Carries.of_push (h : (chain.push k c).Carries v i) :
    (chain.Carries v i ∧ (k = .and → c.holds v = true)) ∨ (k = .or ∧ c.holds v = true) := by
  rcases holdsAt_push_iff.mp h.holds with hi | ⟨rfl, hc⟩
  · have hlt := hi.lt_length
    refine .inl ⟨⟨?_, hi, fun j hij hj => ?_⟩, fun hk => ?_⟩
    · refine h.starts.imp_right fun hor => ?_
      exact (connectiveBefore?_push_iff.mp hor).resolve_right fun hlast => by omega
    · have hjlt := lt_length_of_connectiveBefore? hj
      have hjholds := h.kept j hij (connectiveBefore?_push_iff.mpr (.inl hj))
      exact (holdsAt_push_iff.mp hjholds).resolve_right fun hlast => by omega
    · have hlast := h.kept _ hlt (connectiveBefore?_push_iff.mpr (.inr ⟨rfl, hk⟩))
      rcases holdsAt_push_iff.mp hlast with habove | ⟨-, hc⟩
      · exact absurd habove.lt_length (Nat.lt_irrefl _)
      · exact hc
  · refine .inr ⟨?_, hc⟩
    rcases h.starts with hzero | hor
    · exact absurd hzero (Nat.succ_ne_zero _)
    · rcases connectiveBefore?_push_iff.mp hor with habove | ⟨-, hk⟩
      · exact absurd (lt_length_of_connectiveBefore? habove) (Nat.lt_irrefl _)
      · exact hk

theorem carries_last (hc : c.holds v = true) : (chain.push .or c).Carries v chain.length where
  starts := .inr (connectiveBefore?_push_iff.mpr (.inr ⟨rfl, rfl⟩))
  holds := holdsAt_push_iff.mpr (.inr ⟨rfl, hc⟩)
  kept j hij hj := by
    have hjlt := lt_length_of_connectiveBefore? hj
    have hlength : (chain.push .or c).length = chain.length + 1 := by simp [length, Chain.push]
    omega

theorem exists_carries_single_iff : (∃ i, (single c).Carries v i) ↔ c.holds v = true := by
  constructor
  · rintro ⟨i, -, ⟨d, hd, hv⟩, -⟩
    have hmem : d ∈ [c] := List.mem_of_getElem? hd
    rwa [List.mem_singleton.mp hmem] at hv
  · intro hc
    refine ⟨0, .inl rfl, ⟨c, rfl, hc⟩, fun j hij hj => ?_⟩
    have hlt : j < 1 := lt_length_of_connectiveBefore? hj
    omega

theorem holds_iff_carries (chain : Chain) (v : Value) :
    chain.holds v = true ↔ ∃ i, chain.Carries v i := by
  induction chain using push_induction with
  | single c => exact exists_carries_single_iff.symm
  | push chain k c ih =>
    rw [holds_push]
    constructor
    · intro h
      cases k with
      | and =>
        obtain ⟨hchain, hc⟩ := Bool.and_eq_true_iff.mp h
        obtain ⟨i, hi⟩ := ih.mp hchain
        exact ⟨i, hi.push fun _ => hc⟩
      | or =>
        rcases (Bool.or_eq_true _ _).mp h with hchain | hc
        · obtain ⟨i, hi⟩ := ih.mp hchain
          exact ⟨i, hi.push nofun⟩
        · exact ⟨chain.length, carries_last hc⟩
    · rintro ⟨i, hi⟩
      rcases hi.of_push with ⟨hchain, hc⟩ | ⟨rfl, hc⟩
      · have hholds : chain.holds v = true := ih.mpr ⟨i, hchain⟩
        cases k with
        | and => exact Bool.and_eq_true_iff.mpr ⟨hholds, hc rfl⟩
        | or => exact (Bool.or_eq_true _ _).mpr (.inl hholds)
      · exact (Bool.or_eq_true _ _).mpr (.inr hc)

/-! ## The usual reading -/

/-- The conditions between the `||`, in runs; the first run has been begun. -/
def andRuns : List Condition → List (Connective × Condition) → List (List Condition)
  | run, [] => [run]
  | run, (.and, c) :: rest => andRuns (run ++ [c]) rest
  | run, (.or, c) :: rest => run :: andRuns [c] rest

/-- The chain read with `&&` binding tighter than `||`: all conditions of some run hold. -/
def holdsByPrecedence (chain : Chain) (v : Value) : Bool :=
  (andRuns [chain.first] chain.rest).any fun run => run.all fun c => c.holds v

theorem andRuns_append_or (run : List Condition) (rest : List (Connective × Condition))
    (c : Condition) : andRuns run (rest ++ [(.or, c)]) = andRuns run rest ++ [[c]] := by
  induction rest generalizing run with
  | nil => rfl
  | cons x rest ih =>
    obtain ⟨k, d⟩ := x
    cases k with
    | and => exact ih (run ++ [d])
    | or => exact congrArg (run :: ·) (ih [d])

theorem andRuns_of_ands {rest : List (Connective × Condition)} (h : ∀ x ∈ rest, x.1 = .and)
    (run : List Condition) : andRuns run rest = [run ++ rest.map Prod.snd] := by
  induction rest generalizing run with
  | nil => simp [andRuns]
  | cons x rest ih =>
    obtain ⟨k, c⟩ := x
    rw [List.forall_mem_cons] at h
    obtain ⟨rfl, hrest⟩ := h
    rw [andRuns, ih hrest, List.map_cons, List.append_assoc, List.singleton_append]

theorem holdsByPrecedence_push_or (chain : Chain) (c : Condition) (v : Value) :
    (chain.push .or c).holdsByPrecedence v = (chain.holdsByPrecedence v || c.holds v) := by
  simp [holdsByPrecedence, push, andRuns_append_or]

theorem holdsByPrecedence_of_ands (h : ∀ k ∈ chain.connectives, k = .and) (v : Value) :
    chain.holdsByPrecedence v = chain.conditions.all fun c => c.holds v := by
  have hrest : ∀ x ∈ chain.rest, x.1 = .and := fun x hx => h x.1 (List.mem_map_of_mem hx)
  simp [holdsByPrecedence, andRuns_of_ands hrest, conditions]

theorem holds_of_ands (h : ∀ k ∈ chain.connectives, k = .and) (v : Value) :
    chain.holds v = chain.conditions.all fun c => c.holds v := by
  induction chain using push_induction with
  | single c => simp [single, holds, conditions]
  | push chain k c ih =>
    rw [connectives_push, List.forall_mem_append, List.forall_mem_singleton] at h
    obtain ⟨hchain, rfl⟩ := h
    rw [holds_push, conditions_push, List.all_append, ih hchain]
    simp [Connective.apply]

theorem holds_eq_holdsByPrecedence
    (h : chain.connectives.Pairwise fun k l => ¬ (k = .or ∧ l = .and)) (v : Value) :
    chain.holds v = chain.holdsByPrecedence v := by
  induction chain using push_induction with
  | single c => simp [single, holds, holdsByPrecedence, andRuns]
  | push chain k c ih =>
    have hpairs := h
    rw [connectives_push, List.pairwise_append] at hpairs
    obtain ⟨hchain, -, hlast⟩ := hpairs
    cases k with
    | or => rw [holds_push, holdsByPrecedence_push_or, ih hchain]; rfl
    | and =>
      -- behind an `||` there would be no `&&`, so there is one run only
      have hands : ∀ k ∈ (chain.push .and c).connectives, k = .and := by
        rw [connectives_push, List.forall_mem_append, List.forall_mem_singleton]
        refine ⟨fun k hk => ?_, rfl⟩
        cases k with
        | and => rfl
        | or => exact absurd ⟨rfl, rfl⟩ (hlast .or hk .and List.mem_cons_self)
      rw [holds_of_ands hands, holdsByPrecedence_of_ands hands]

theorem holds_closed_form (chain : Chain) (v : Value) :
    (chain.holds v = true ↔ ∃ i, chain.Carries v i) ∧
      ((chain.connectives.Pairwise fun k l => ¬ (k = .or ∧ l = .and)) →
        chain.holds v = chain.holdsByPrecedence v) :=
  ⟨holds_iff_carries chain v, fun h => holds_eq_holdsByPrecedence h v⟩

/-- The first run fails at its second condition; the one behind it carries. -/
theorem holds_closed_form_second_run :
    let isOne (key : Char) : Condition := ⟨[key], .equal, ['1']⟩
    let chain : Chain := ⟨isOne 'a', [(.and, isOne 'b'), (.or, isOne 'c'), (.or, isOne 'd')]⟩
    let v : Value := .object [(['a'], .string ['1']), (['c'], .string ['1'])]
    (chain.connectives.Pairwise fun k l => ¬ (k = .or ∧ l = .and)) ∧ chain.Carries v 2 ∧
      chain.holds v = true ∧ chain.holdsByPrecedence v = true := by
  intro isOne chain v
  have hpairs : chain.connectives.Pairwise fun k l => ¬ (k = .or ∧ l = .and) := by decide
  have hcarries : chain.Carries v 2 := by
    refine ⟨.inr rfl, ⟨isOne 'c', rfl, rfl⟩, fun j hj hand => ?_⟩
    have hlt : j < 4 := lt_length_of_connectiveBefore? hand
    obtain rfl : j = 3 := by omega
    cases hand
  obtain ⟨hiff, heq⟩ := holds_closed_form chain v
  have hholds : chain.holds v = true := hiff.mpr ⟨2, hcarries⟩
  exact ⟨hpairs, hcarries, hholds, (heq hpairs).symm.trans hholds⟩

/-- In `a||b&&c` the two readings differ. -/
example :
    let isOne (key : Char) : Condition := ⟨[key], .equal, ['1']⟩
    let chain : Chain := ⟨isOne 'a', [(.or, isOne 'b'), (.and, isOne 'c')]⟩
    let v : Value := .object [(['a'], .string ['1'])]
    chain.holds v = false ∧ chain.holdsByPrecedence v = true := ⟨rfl, rfl⟩

end Chain

end DotQuery
