import DotQuery.Proofs.Query.Events
import DotQuery.Proofs.Query.Uses
import DotQuery.Proofs.Report.Documents

/-!
# Events of all uses

Over all that is ever done with a compiled query, the parsing of a predicate is told of at most once
(`Query.countP_eventsOf`): by the first run that reaches its segment, if nothing before asked for
the predicate, and if it parses (`Query.Traced`). A report on documents in lines tells what the runs
on them tell (`Query.exists_events_reportFrom`).
-/

namespace DotQuery

variable {n i j : Nat} {e : Event} {ss : List Segment}

/-! ## Uses -/

theorem Explain.isParsedAt_of_mem_eventsFrom (h : e ∈ eventsFrom n ss) :
    e.isParsedAt j = false := by
  induction ss generalizing n with
  | nil => cases h
  | cons s ss ih =>
    rcases List.mem_append.mp h with h | h
    · unfold segmentEvents at h
      split at h
      · split at h
        · cases h
        · rw [List.mem_singleton.mp h]
          rfl
      · cases h
    · exact ih h

namespace Query

variable {q : Query} {u : Use}

/-- The events of each of some uses, one after the other. -/
def eventsOf (q : Query) : List Use → List (List Event)
  | [] => []
  | u :: uses => (q.use u).2 :: (q.use u).1.eventsOf uses

theorem getElem?_eventsOf {uses : List Use} {k : Nat} (h : uses[k]? = some u) :
    (q.eventsOf uses)[k]? = some ((q.after (uses.take k)).use u).2 := by
  induction uses generalizing q k with
  | nil => cases h
  | cons u' uses ih =>
    cases k with
    | zero =>
      cases h
      rfl
    | succ k => exact ih h

theorem mem_events_execute_iff {d : Value} : e ∈ (q.execute d).events ↔
    ∃ i s w, q.segments[i]? = some s ∧ q.Reaches d i w ∧ e ∈ s.events i w := by
  unfold execute Reaches
  simp only [Run.mem_events_iff, Nat.zero_add]

theorem predicateParsed_mem_execute_iff {d : Value} {source : Text} {terms : Nat} :
    .predicateParsed i source terms ∈ (q.execute d).events ↔
      (∃ w, q.Reaches d i w) ∧ ∃ name p chain, q.segments[i]? = some (.filter name p) ∧
        p.isParsed = false ∧ p.source = source ∧ Chain.parse source = .ok chain ∧
        chain.length = terms := by
  rw [mem_events_execute_iff]
  constructor
  · rintro ⟨k, s, w, hs, hw, he⟩
    rcases List.mem_cons.mp he with he | he
    · cases he
    · obtain ⟨name, p, chain, rfl, hunparsed, hchain, he⟩ := Segment.mem_parseEvents_iff.mp he
      cases he
      exact ⟨⟨w, hw⟩, name, p, chain, hs, hunparsed, rfl, hchain, rfl⟩
  · rintro ⟨⟨w, hw⟩, name, p, chain, hs, hunparsed, rfl, hchain, rfl⟩
    refine ⟨i, _, w, hs, hw, List.mem_cons_of_mem _ ?_⟩
    exact Segment.mem_parseEvents_iff.mpr ⟨name, p, chain, rfl, hunparsed, hchain, rfl⟩

/-- No predicate of segment `i` is left to be parsed. -/
def Settled (q : Query) (i : Nat) : Prop :=
  ∀ name p, q.segments[i]? = some (.filter name p) → p.isParsed = true

/-- A use that tells of a predicate settles it, and one that is settled is not told of. -/
theorem settled_use_of_mem (he : e ∈ (q.use u).2) (hi : e.isParsedAt i = true) :
    ¬ q.Settled i ∧ (q.use u).1.Settled i := by
  cases u with
  | explain palette =>
    rw [Explain.isParsedAt_of_mem_eventsFrom he] at hi
    cases hi
  | chain k => cases he
  | execute d =>
    cases e with
    | predicateParsed k source terms =>
      cases eq_of_beq hi
      obtain ⟨⟨w, hw⟩, name, p, chain, hp, hunparsed, -⟩ := predicateParsed_mem_execute_iff.mp he
      refine ⟨fun h => ?_, fun name' p' hp' => ?_⟩
      · rw [h name p hp] at hunparsed
        cases hunparsed
      · obtain ⟨p₁, hp₁, -, hparsed⟩ := parsed_execute_iff (d := d) hp
        have hsame : some (Segment.filter name' p') = some (Segment.filter name p₁) :=
          hp'.symm.trans hp₁
        cases hsame
        exact hparsed.mpr (.inr ⟨w, hw⟩)
    | _ => cases hi

theorem Settled.use (h : q.Settled i) (u : Use) : (q.use u).1.Settled i := by
  intro name p' hp'
  obtain ⟨p, hp, hp' | hp'⟩ := (q.grows_use u).segments.exists_filter hp'
  · rw [hp']
    exact h name p hp
  · rw [hp']
    rfl

theorem Settled.countP_use (h : q.Settled i) (u : Use) :
    (q.use u).2.countP (Event.isParsedAt i) = 0 :=
  List.countP_eq_zero.mpr fun _ he hi => (settled_use_of_mem he hi).1 h

theorem countP_use_le (q : Query) (u : Use) (i : Nat) :
    (q.use u).2.countP (Event.isParsedAt i) ≤ 1 := by
  cases u with
  | execute d => exact Run.countP_isParsedAt_le 0 q.segments (some d) i
  | explain palette =>
    have hnone : (q.explain palette).events.countP (Event.isParsedAt i) = 0 :=
      List.countP_eq_zero.mpr fun e he hi => by
        rw [Explain.isParsedAt_of_mem_eventsFrom he] at hi
        cases hi
    exact hnone.trans_le (Nat.zero_le 1)
  | chain k => exact Nat.zero_le 1

theorem countP_eventsOf (q : Query) (uses : List Use) (i : Nat) :
    (q.eventsOf uses).flatten.countP (Event.isParsedAt i) ≤ 1 ∧
      (q.Settled i → (q.eventsOf uses).flatten.countP (Event.isParsedAt i) = 0) := by
  induction uses generalizing q with
  | nil => exact ⟨Nat.zero_le 1, fun _ => rfl⟩
  | cons u uses ih =>
    obtain ⟨hle, hsettled⟩ := ih (q.use u).1
    rw [eventsOf, List.flatten_cons, List.countP_append]
    refine ⟨?_, fun h => by rw [h.countP_use u, hsettled (h.use u)]⟩
    by_cases hnone : (q.use u).2.countP (Event.isParsedAt i) = 0
    · rw [hnone, Nat.zero_add]
      exact hle
    · obtain ⟨e, he, hi⟩ := List.countP_pos_iff.mp (Nat.pos_of_ne_zero hnone)
      rw [hsettled (settled_use_of_mem he hi).2]
      exact countP_use_le q u i

/-! ## Documents in lines -/

theorem nothingFound_not_mem_execute (q : Query) (d : Value) :
    .nothingFound ∉ (q.execute d).events := by
  intro h
  obtain ⟨i, s, w, -, -, he⟩ := mem_events_execute_iff.mp h
  rcases List.mem_cons.mp he with he | he
  · cases he
  · obtain ⟨_, _, _, _, _, _, he⟩ := Segment.mem_parseEvents_iff.mp he
    cases he

theorem filter_events_report (x : Execution) (pretty : Bool) (context : List Text) :
    (x.report pretty context).events.filter (· ≠ .nothingFound) =
      x.events.filter (· ≠ .nothingFound) := by
  unfold Execution.report
  cases x.result with
  | error f => rfl
  | ok v =>
    dsimp only
    rw [Report.andThen_of_none rfl, List.filter_append]
    cases v <;> exact List.append_nil _

/-- A report on documents tells what running the query on one after the other tells, up to the
first that fails, and of results that are absent. -/
theorem exists_events_reportFrom (q : Query) (k : Nat) (documents : List Value) :
    ∃ run rest, documents = run ++ rest ∧
      (rest ≠ [] → (q.reportFrom k documents).failure.isSome) ∧
      (q.reportFrom k documents).events.filter (· ≠ .nothingFound) =
        (q.eventsOf (run.map .execute)).flatten := by
  induction documents generalizing q k with
  | nil => exact ⟨[], [], rfl, fun h => absurd rfl h, rfl⟩
  | cons d documents ih =>
    have hevents : (q.execute d).events.filter (· ≠ .nothingFound) = (q.execute d).events :=
      List.filter_eq_self.mpr fun e he => by
        simpa using ne_of_mem_of_not_mem he (q.nothingFound_not_mem_execute d)
    have hreport := (filter_events_report (q.execute d) false [documentTask k]).trans hevents
    change ∃ run rest, _ ∧ (_ → (((q.execute d).report false [documentTask k]).andThen
      ((q.execute d).query.reportFrom (k + 1) documents)).failure.isSome) ∧
      (((q.execute d).report false [documentTask k]).andThen
        ((q.execute d).query.reportFrom (k + 1) documents)).events.filter _ = _
    cases hfailure : ((q.execute d).report false [documentTask k]).failure with
    | some f =>
      rw [Report.andThen_of_failure hfailure, hreport]
      refine ⟨[d], documents, rfl, fun _ => by rw [hfailure]; rfl, ?_⟩
      exact (List.append_nil _).symm
    | none =>
      obtain ⟨run, rest, rfl, hrest, hrun⟩ := ih (q.execute d).query (k + 1)
      rw [Report.andThen_of_none hfailure, List.filter_append, hreport, hrun]
      exact ⟨d :: run, rest, rfl, hrest, rfl⟩

/-! ## All calls -/

/-- The events of a run on a document, after some uses of the compiled query `q`. -/
structure Traced (q : Query) (before : List Use) (d : Value) (events : List Event) : Prop where
  /-- The segments that are reached, in order, each with the kind of the value that enters it. -/
  applied : ∀ i e, (events.filter Event.isApplied)[i]? = some e ↔
    ∃ s w, q.segments[i]? = some s ∧ q.Reaches d i w ∧ e = .segmentApplied i s.kind w.kind
  /-- The predicates that are reached for the first time, were not needed before, and parse. -/
  parsed : ∀ i source terms, .predicateParsed i source terms ∈ events ↔
    (∃ w, q.Reaches d i w) ∧ (∀ u ∈ before, ¬ q.Forces i u) ∧
      ∃ name p chain, q.segments[i]? = some (.filter name p) ∧ p.source = source ∧
        Chain.parse source = .ok chain ∧ chain.length = terms
  /-- There are no other events. -/
  only : ∀ e ∈ events, e.isApplied = true ∨ ∃ i, e.isParsedAt i = true

theorem unparsed_of_compile {t : Text} {name : Option Text} {p : Predicate}
    (hq : Query.compile t = .ok q) (hp : q.segments[i]? = some (.filter name p)) :
    p.isParsed = false := by
  obtain ⟨piece, -, -, -, hparsed⟩ := exists_piece_of_compile hq (List.mem_of_getElem? hp)
  exact hparsed

theorem traced_execute {t : Text} (hq : Query.compile t = .ok q) (before : List Use) (d : Value) :
    q.Traced before d ((q.after before).execute d).events where
  applied i e := by
    have hfaithful := faithful_of_compile hq
    unfold execute
    rw [Run.getElem?_filter_isApplied]
    change (∃ s w, _ ∧ (q.after before).Reaches d i w ∧ _) ↔ _
    simp only [(q.grows_after before).reaches_iff hfaithful, Nat.zero_add, exists_and_left]
    exact (q.grows_after before).segments.exists_kind_iff
      (P := fun kind => ∃ w, q.Reaches d i w ∧ e = .segmentApplied i kind w.kind)
  parsed i source terms := by
    have hfaithful := faithful_of_compile hq
    simp only [predicateParsed_mem_execute_iff, (q.grows_after before).reaches_iff hfaithful]
    refine and_congr_right fun _ => ?_
    constructor
    · rintro ⟨name, p', chain, hp', hunparsed, rfl, hchain, rfl⟩
      obtain ⟨p, hp, -⟩ := (q.grows_after before).segments.exists_filter hp'
      obtain ⟨p₁, hp₁, hsource, hparsed⟩ := parsed_after_iff hfaithful hp before
      cases hp'.symm.trans hp₁
      refine ⟨fun u hu hforces => ?_, name, p, chain, hp, hsource.symm, hchain, rfl⟩
      rw [hparsed.mpr (.inr ⟨u, hu, hforces⟩)] at hunparsed
      cases hunparsed
    · rintro ⟨hbefore, name, p, chain, hp, rfl, hchain, rfl⟩
      obtain ⟨p', hp', hsource, hparsed⟩ := parsed_after_iff hfaithful hp before
      refine ⟨name, p', chain, hp', Bool.eq_false_iff.mpr fun h => ?_, hsource, hchain, rfl⟩
      rcases hparsed.mp h with h | ⟨u, hu, hforces⟩
      · rw [unparsed_of_compile hq hp] at h
        cases h
      · exact hbefore u hu hforces
  only e he := by
    obtain ⟨i, s, w, -, -, he⟩ := mem_events_execute_iff.mp he
    rcases List.mem_cons.mp he with rfl | he
    · exact .inl rfl
    · exact .inr ⟨i, by rw [Run.isParsedAt_of_mem_parseEvents he, beq_self_eq_true]⟩

theorem events_exact {t : Text} (hq : Query.compile t = .ok q) :
    (∀ (uses : List Use) (k : Nat) (d : Value), uses[k]? = some (.execute d) →
      ∃ events, (q.eventsOf uses)[k]? = some events ∧ q.Traced (uses.take k) d events) ∧
    (∀ (uses : List Use) (i : Nat),
      (q.eventsOf uses).flatten.countP (Event.isParsedAt i) ≤ 1) ∧
    ∀ documents, ∃ run rest, documents = run ++ rest ∧
      (rest ≠ [] → (q.reportMany documents).failure.isSome) ∧
      (q.reportMany documents).events.filter (· ≠ .nothingFound) =
        (q.eventsOf (run.map .execute)).flatten :=
  ⟨fun uses k d hk => ⟨_, getElem?_eventsOf hk, traced_execute hq (uses.take k) d⟩,
    fun uses i => (q.countP_eventsOf uses i).1, q.exists_events_reportFrom 1⟩

/-- The first document does not lead to the filter, the second one does and then fails at the bad
predicate behind it, and the third use finds the predicate parsed. -/
theorem events_exact_second_document :
    let t := "a.xs[k>1].ys[oops]".toList
    let q : Query := ⟨t, [.field ['a'], .filter (some "xs".toList) (.ofText "k>1".toList),
      .filter (some "ys".toList) (.ofText "oops".toList)]⟩
    let d : Value := .object [(['a'], .object [])]
    let uses : List Use := [.execute (.object []), .execute d, .execute d]
    Query.compile t = .ok q ∧
      (∃ events, (q.eventsOf uses)[1]? = some events ∧
        .predicateParsed 1 "k>1".toList 1 ∈ events) ∧
      (∃ events, (q.eventsOf uses)[2]? = some events ∧
        ∀ i source terms, .predicateParsed i source terms ∉ events) ∧
      (q.eventsOf uses).flatten.countP (Event.isParsedAt 1) ≤ 1 := by
  intro t q d uses
  have hq : Query.compile t = .ok q := by decide
  have hfilter : q.Reaches d 1 (.object []) := ⟨by decide, rfl⟩
  have hskip : ∀ w, ¬ q.Reaches (.object []) 1 w := by
    rintro w ⟨-, h⟩
    cases h
  obtain ⟨hcalls, honce, -⟩ := events_exact hq
  obtain ⟨second, hsecond, htraced⟩ := hcalls uses 1 d rfl
  obtain ⟨third, hthird, htraced'⟩ := hcalls uses 2 d rfl
  refine ⟨hq, ⟨second, hsecond, ?_⟩, ⟨third, hthird, fun i source terms h => ?_⟩, honce uses 1⟩
  · refine (htraced.parsed 1 _ 1).mpr ⟨⟨_, hfilter⟩, ?_, _, _, _, rfl, rfl, rfl, rfl⟩
    exact List.forall_mem_singleton.mpr fun ⟨w, hw⟩ => hskip w hw
  · obtain ⟨⟨w, hw⟩, hbefore, -⟩ := (htraced'.parsed i source terms).mp h
    exact hbefore (.execute d) (List.mem_cons_of_mem _ List.mem_cons_self) ⟨w, hw⟩

end Query

end DotQuery
