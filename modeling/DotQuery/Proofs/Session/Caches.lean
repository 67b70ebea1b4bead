import DotQuery.Proofs.Session.Queries

/-!
# Parsed predicates do not show

The queries of a session remember which predicates have been parsed, and no answer but that about
the memory itself depends on it (`Transparent`): after any steps on freshly compiled queries, each
further step answers as on queries compiled anew (`Session.recompiled`), what is remembered is what
parsing gives and is never forgotten, copies go their own ways, and queries compare as before.
-/

namespace DotQuery

/-- The query as its source compiles. -/
def Query.recompiled (q : Query) : Query :=
  match Query.compile q.source with
  | .ok r => r
  | .error _ => q

theorem Query.Faithful.recompiled_eq {q : Query} (h : q.Faithful) : q.recompiled = q.uncached := by
  simp only [recompiled, h.compiled]

theorem Query.uncached_uncached (q : Query) : q.uncached.uncached = q.uncached := by
  have hs : ∀ s : Segment, s.uncached.uncached = s.uncached := fun s => by cases s <;> rfl
  simp only [uncached, List.map_map, Function.comp_def, hs]

theorem lookup_map_snd {α β : Type} (f : α → β) (n : Text) (fs : Fields α) :
    (fs.map fun (m, a) => (m, f a)).lookup n = (fs.lookup n).map f := by
  induction fs with
  | nil => rfl
  | cons p fs ih =>
    obtain ⟨m, a⟩ := p
    simp only [List.map_cons, List.lookup_cons]
    split
    · rfl
    · exact ih

namespace Session

/-- All queries compiled anew. -/
def recompiled (s : Session) : Session :=
  { s with queries := s.queries.map fun (name, q) => (name, q.recompiled) }

/-- An answer without what it says about parsed predicates. -/
def Answer.unflagged : Answer → Answer
  | .executed result _ => .executed result []
  | .parsed _ => .parsed []
  | a => a

/-- All queries are as compiled. -/
def Fresh (s : Session) : Prop :=
  ∀ name q, s.query? name = some q → Query.compile q.source = .ok q

/-- All queries are as compiled, but for predicates that have been parsed. -/
def Sound (s : Session) : Prop := ∀ name q, s.query? name = some q → q.Faithful

/-! ## Soundness -/

theorem Fresh.sound {s : Session} (h : s.Fresh) : s.Sound :=
  fun name q hq => Query.faithful_of_compile (h name q hq)

theorem Origin.faithful {s : Session} {a : Step} {name : Text} {q : Query}
    (origin : s.Origin a name q) (h : s.Sound) : q.Faithful := by
  cases origin with
  | compiled _ hq => exact Query.faithful_of_compile hq
  | copied _ hq => exact h _ _ hq
  | parsed hr hgrows => exact hgrows.faithful (h _ _ hr)

theorem Sound.step {s : Session} (h : s.Sound) (a : Step) : (s.step a).1.Sound := by
  intro n r hr
  cases step_changes s a with
  | nothing hs => exact h n r ((query?_congr hs n).symm.trans hr)
  | @puts name q _ origin hs =>
    rw [query?_congr hs] at hr
    by_cases e : n = name
    · subst e
      rw [query?_setQuery_self] at hr
      cases hr
      exact origin.faithful h
    · rw [query?_setQuery_of_ne s e] at hr
      exact h n r hr

theorem Sound.run {s : Session} (h : s.Sound) (as : List Step) : (s.run as).1.Sound := by
  induction as generalizing s with
  | nil => exact h
  | cons a as ih => exact ih (h.step a)

/-! ## Answers -/

theorem query?_recompiled (s : Session) (n : Text) :
    s.recompiled.query? n = (s.query? n).map Query.recompiled := lookup_map_snd _ n s.queries

theorem Sound.query?_recompiled {s : Session} (h : s.Sound) {n : Text} {q : Query}
    (hq : s.query? n = some q) : s.recompiled.query? n = some q.uncached := by
  rw [Session.query?_recompiled, hq, Option.map_some, (h n q hq).recompiled_eq]

theorem query?_recompiled_none {s : Session} {n : Text} (hq : s.query? n = none) :
    s.recompiled.query? n = none := by
  rw [query?_recompiled, hq, Option.map_none]

/-- A step on a query answers as on the query compiled anew if what it does with the query does. -/
theorem Sound.onQuery_recompiled {s : Session} (h : s.Sound) (n : Text)
    (f g : Query → Session × Answer)
    (hfg : ∀ q, q.Faithful → (f q).2.unflagged = (g q.uncached).2.unflagged) :
    (s.onQuery n f).2.unflagged = (s.recompiled.onQuery n g).2.unflagged := by
  unfold onQuery
  cases hq : s.query? n with
  | none => rw [query?_recompiled_none hq]
  | some q =>
    rw [h.query?_recompiled hq]
    exact hfg q (h n q hq)

theorem unflagged_onDocument {s : Session} (n : Text) (f g : Value → Session × Answer)
    (hfg : ∀ v, (f v).2.unflagged = (g v).2.unflagged) :
    (s.onDocument n f).2.unflagged = (s.recompiled.onDocument n g).2.unflagged := by
  have hdocuments : s.recompiled.documents = s.documents := rfl
  unfold onDocument
  rw [hdocuments]
  cases s.documents.lookup n with
  | none => rfl
  | some v => exact hfg v

theorem same_uncached (q r : Query) : q.uncached.same r.uncached = q.same r := by
  simp only [Query.same, Query.uncached_uncached]

theorem sameSegments_uncached (q r : Query) :
    q.uncached.sameSegments r.uncached = q.sameSegments r := by
  simp only [Query.sameSegments, Query.uncached_uncached]

theorem Sound.unflagged_step {s : Session} (h : s.Sound) (a : Step) :
    (s.step a).2.unflagged = (s.recompiled.step a).2.unflagged := by
  cases a with
  | compile name source =>
    simp only [Session.step]
    cases Query.compile source <;> rfl
  | load name json =>
    simp only [Session.step]
    cases Value.ofJson? json <;> rfl
  | execute name document into =>
    refine h.onQuery_recompiled name _ _ fun q hq => ?_
    refine unflagged_onDocument document _ _ fun v => ?_
    dsimp only
    rw [hq.result_uncached]
    cases (q.execute v).result <;> rfl
  | parsed name => exact h.onQuery_recompiled name _ _ fun q _ => rfl
  | chain name i =>
    refine h.onQuery_recompiled name _ _ fun q hq => ?_
    have hi : q.uncached.segments[i]? = (q.segments[i]?).map Segment.uncached := List.getElem?_map
    rw [hi]
    rcases hs : q.segments[i]? with _ | (_ | _ | _ | ⟨_, p⟩)
    · rfl
    · rfl
    · rfl
    · rfl
    · have hp : p.Faithful := hq.segments _ (List.mem_of_getElem? hs)
      simp only [Option.map_some, Segment.uncached, hp.chain_uncached]
  | explain name palette =>
    refine h.onQuery_recompiled name _ _ fun q hq => ?_
    dsimp only
    rw [hq.explain_uncached]
  | copy name into => exact h.onQuery_recompiled name _ _ fun q _ => rfl
  | compare name other =>
    refine h.onQuery_recompiled name _ _ fun q _ => ?_
    refine h.onQuery_recompiled other _ _ fun r _ => ?_
    rw [same_uncached, sameSegments_uncached]
  | path name path into => exact unflagged_onDocument name _ _ fun v => rfl
  | showDocument name => exact unflagged_onDocument name _ _ fun v => rfl

/-! ## Runs -/

/-- What holds of a session, and of the one that some more steps make of it, if it does not show
which predicates have been parsed. -/
structure Transparent (s : Session) (later : List Step) : Prop where
  /-- What a filter holds is what parsing its predicate gives, be it a chain or an error. -/
  held : ∀ name q, s.query? name = some q → Query.compile q.source = .ok q.recompiled ∧
    ∀ n p, .filter n p ∈ q.segments → ∀ r, p.parsed = some r → r = Chain.parse p.source
  /-- Every step answers as on the queries compiled anew. -/
  answers : ∀ a, (s.step a).2.unflagged = (s.recompiled.step a).2.unflagged
  /-- A predicate that has been parsed stays so until another query is put in its place. -/
  kept : ∀ name q, s.query? name = some q → (∀ a ∈ later, a.replaces ≠ some name) →
    ∃ q', (s.run later).1.query? name = some q' ∧ q'.source = q.source ∧
      ∀ i : Nat, (flags q)[i]? = some (some true) → (flags q')[i]? = some (some true)
  /-- A copy starts out the same, and what is done to one of the two does not change the other. -/
  copies : ∀ name into q, s.query? name = some q → ∀ n, n = name ∨ n = into →
    (s.step (.copy name into)).1.query? n = some q ∧
      ((∀ a ∈ later, a.touches ≠ some n) →
        ((s.step (.copy name into)).1.run later).1.query? n = some q)
  /-- Two queries compare as before. -/
  comparisons : ∀ name other q r, s.query? name = some q → s.query? other = some r →
    (∀ a ∈ later, a.replaces ≠ some name ∧ a.replaces ≠ some other) →
    (s.step (.compare name other)).2 = ((s.run later).1.step (.compare name other)).2

theorem query?_copy {s : Session} {name : Text} {q : Query} (hq : s.query? name = some q)
    {into n : Text} (hn : n = name ∨ n = into) :
    (s.step (.copy name into)).1.query? n = some q := by
  have hstep : (s.step (.copy name into)).1 = s.setQuery into q := by
    simp only [step, onQuery, hq]
  rw [hstep]
  by_cases e : n = into
  · subst e
    exact query?_setQuery_self s n q
  · rw [query?_setQuery_of_ne s e, hn.resolve_right e]
    exact hq

theorem step_compare {s : Session} {name other : Text} {q r : Query} (hq : s.query? name = some q)
    (hr : s.query? other = some r) :
    (s.step (.compare name other)).2 = .compared (q.same r) (q.sameSegments r) := by
  simp only [step, onQuery, hq, hr]

theorem Sound.transparent {s : Session} (h : s.Sound) (later : List Step) :
    s.Transparent later where
  held name q hq := by
    have hf := h name q hq
    refine ⟨?_, fun n p hp => hf.segments _ hp⟩
    rw [hf.recompiled_eq]
    exact hf.compiled
  answers := h.unflagged_step
  kept name q hq hkept := by
    obtain ⟨q', hq', hgrows⟩ := query?_run_of_kept hq hkept
    exact ⟨q', hq', hgrows.source, fun i hi => hgrows.segments.parsed hi⟩
  copies name into q hq n hn := by
    have hcopy := query?_copy hq hn
    exact ⟨hcopy, fun hlater => (query?_run_of_untouched hlater).trans hcopy⟩
  comparisons name other q r hq hr hkept := by
    obtain ⟨q', hq', hqg⟩ := query?_run_of_kept hq fun a ha => (hkept a ha).1
    obtain ⟨r', hr', hrg⟩ := query?_run_of_kept hr fun a ha => (hkept a ha).2
    rw [step_compare hq hr, step_compare hq' hr']
    simp only [Query.same, Query.sameSegments, hqg.uncached, hrg.uncached]

theorem transparent_run {s : Session} (h : s.Fresh) (before later : List Step) :
    (s.run before).1.Transparent later := (h.sound.run before).transparent later

/-- A copy made before the bad predicate is reached: the run that reaches it parses it in the copy
alone. -/
theorem transparent_run_copied :
    let q : Query :=
      ⟨"a.xs[oops]".toList, [.field ['a'], .filter (some "xs".toList) (.ofText "oops".toList)]⟩
    let s : Session :=
      ⟨[(['q'], q)], [(['d'], .object [(['a'], .object [])]), (['e'], .object [])]⟩
    let before : List Step := [.execute ['q'] ['e'] none, .copy ['q'] ['r']]
    let later : List Step := [.execute ['r'] ['d'] none]
    s.Fresh ∧ (s.run before).1.Transparent later ∧
      ((s.run before).1.query? ['q']).map flags = some [none, some false] ∧
      ((s.run (before ++ later)).1.query? ['q']).map flags = some [none, some false] ∧
      ((s.run (before ++ later)).1.query? ['r']).map flags = some [none, some true] := by
  intro q s before later
  have hfresh : s.Fresh := by
    intro name r hr
    simp only [s, query?, List.lookup_cons, List.lookup_nil] at hr
    split at hr
    · cases hr
      decide
    · cases hr
  exact ⟨hfresh, transparent_run hfresh before later, rfl, rfl, rfl⟩

end Session

end DotQuery
