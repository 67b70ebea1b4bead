import Mathlib.Data.List.Nodup
import DotQuery.Json.Reader
import DotQuery.Proofs.Json.Nodes

/-!
# Distinct names

No object in a value has two fields of one name (`Value.DistinctNames`). Parts of such a value are
such values. Every value that is read from a text is one (`Value.distinctNames_of_ofJson?`), since
the reader sets fields by `Fields.put`: all that is complete or still open on its stack has distinct
names, and what a token carries is a scalar.
-/

namespace DotQuery

theorem Fields.names_append {α : Type} (fs gs : Fields α) :
    names (fs ++ gs) = names fs ++ names gs := List.map_append

theorem Fields.mem_names_put_iff {α : Type} {name n : Text} {a : α} {fs : Fields α} :
    n ∈ names (put name a fs) ↔ n = name ∨ n ∈ names fs := by
  induction fs with
  | nil => simp [put, names]
  | cons f fs ih =>
    obtain ⟨m, b⟩ := f
    unfold put
    split
    · next h => simp [names, h]
    · simp only [names, List.map_cons, List.mem_cons] at ih ⊢
      rw [ih, or_left_comm]

theorem Fields.nodup_names_put {α : Type} {fs : Fields α} (h : (names fs).Nodup) (name : Text)
    (a : α) : (names (put name a fs)).Nodup := by
  induction fs with
  | nil => exact List.nodup_singleton name
  | cons f fs ih =>
    obtain ⟨m, b⟩ := f
    have hm : m ∉ names fs ∧ (names fs).Nodup := List.nodup_cons.mp h
    unfold put
    split
    · exact h
    · next hne =>
      refine List.nodup_cons.mpr ⟨fun hmem => ?_, ih hm.2⟩
      rcases mem_names_put_iff.mp hmem with e | hmem
      · exact hne e
      · exact hm.1 hmem

theorem Fields.of_mem_put {α : Type} {P : α → Prop} {name : Text} {a : α} {fs : Fields α}
    (ha : P a) (h : ∀ f ∈ fs, P f.2) : ∀ f ∈ put name a fs, P f.2 := by
  induction fs with
  | nil => simpa [put] using ha
  | cons g fs ih =>
    rw [List.forall_mem_cons] at h
    unfold put
    split
    · exact List.forall_mem_cons.mpr ⟨ha, h.2⟩
    · exact List.forall_mem_cons.mpr ⟨h.1, ih h.2⟩

/-! ## Values -/

namespace Value

/-- No object in the value has two fields of one name. -/
def DistinctNames (v : Value) : Prop :=
  ∀ fields, object fields ∈ v.nodes → (Fields.names fields).Nodup

variable {v w : Value} {vs : List Value} {fields : Fields Value}

theorem distinctNames_of_isScalar (h : v.isScalar = true) : v.DistinctNames := by
  intro fields hfields
  cases v with
  | array vs => cases h
  | object fields => cases h
  | _ => simp [nodes] at hfields

theorem distinctNames_array_iff : (array vs).DistinctNames ↔ ∀ v ∈ vs, v.DistinctNames := by
  unfold DistinctNames
  rw [nodes_array]
  constructor
  · intro h v hv fields hfields
    exact h fields (List.mem_cons_of_mem _ (List.mem_flatMap.mpr ⟨v, hv, hfields⟩))
  · intro h fields hfields
    rcases List.mem_cons.mp hfields with e | hfields
    · cases e
    · obtain ⟨v, hv, hfields⟩ := List.mem_flatMap.mp hfields
      exact h v hv fields hfields

theorem distinctNames_object_iff : (object fields).DistinctNames ↔
    (Fields.names fields).Nodup ∧ ∀ f ∈ fields, f.2.DistinctNames := by
  unfold DistinctNames
  rw [nodes_object]
  constructor
  · intro h
    refine ⟨h fields List.mem_cons_self, fun f hf gs hgs => ?_⟩
    exact h gs (List.mem_cons_of_mem _ (List.mem_flatMap.mpr ⟨f, hf, hgs⟩))
  · rintro ⟨hnodup, h⟩ gs hgs
    rcases List.mem_cons.mp hgs with e | hgs
    · cases e
      exact hnodup
    · obtain ⟨f, hf, hgs⟩ := List.mem_flatMap.mp hgs
      exact h f hf gs hgs

theorem DistinctNames.get? (h : v.DistinctNames) {name : Text} (hw : v.get? name = some w) :
    w.DistinctNames := by
  cases v with
  | object fields =>
    obtain ⟨before, after, hfields, -⟩ := List.lookup_eq_some_iff.mp hw
    exact (distinctNames_object_iff.mp h).2 (name, w) (by simp [hfields])
  | _ => cases hw

theorem DistinctNames.put (h : (object fields).DistinctNames) (name : Text)
    (hv : v.DistinctNames) : (object (fields.put name v)).DistinctNames := by
  rw [distinctNames_object_iff] at h ⊢
  exact ⟨Fields.nodup_names_put h.1 name v, Fields.of_mem_put hv h.2⟩

end Value

/-! ## Tokens -/

namespace Json

/-- Arrays and objects are not in a token but in the brackets between tokens. -/
def Token.Plain : Token → Prop
  | value v => v.isScalar = true
  | _ => True

theorem isScalar_of_word? {t : Text} {v : Value} (h : word? t = some v) : v.isScalar = true := by
  unfold word? at h
  split at h
  · cases h
    rfl
  · split at h
    · cases h
      rfl
    · split at h
      · cases h
        rfl
      · obtain ⟨n, -, rfl⟩ := Option.map_eq_some_iff.mp h
        rfl

theorem Mode.plain_startToken {c : Char} {tokens : List Token} {m : Mode}
    (h : startToken c = some (tokens, m)) : ∀ token ∈ tokens, token.Plain := by
  unfold startToken at h
  split at h <;> (try split at h) <;> cases h <;> simp [Token.Plain]

theorem Mode.plain_step {m m' : Mode} {c : Char} {tokens : List Token}
    (h : m.step c = some (tokens, m')) : ∀ token ∈ tokens, token.Plain := by
  cases m with
  | between => exact plain_startToken h
  | word read =>
    rw [step] at h
    split at h
    · cases h
      exact List.forall_mem_nil _
    · obtain ⟨v, hv, h⟩ := Option.bind_eq_some_iff.mp h
      obtain ⟨⟨tokens', m''⟩, hstart, h⟩ := Option.bind_eq_some_iff.mp h
      cases h
      exact List.forall_mem_cons.mpr ⟨isScalar_of_word? hv, plain_startToken hstart⟩
  | string read =>
    rw [step] at h
    split at h
    · cases h
      exact List.forall_mem_singleton.mpr rfl
    · split at h
      · cases h
        exact List.forall_mem_nil _
      · split at h <;> cases h
        exact List.forall_mem_nil _
  | highEnd read high =>
    rw [step] at h
    split at h <;> cases h
    exact List.forall_mem_nil _
  | escape read high =>
    rw [step] at h
    split at h
    · cases h
      exact List.forall_mem_nil _
    · split at h
      · cases h
      · obtain ⟨e, -, h⟩ := Option.map_eq_some_iff.mp h
        cases h
        exact List.forall_mem_nil _
  | code read high digits =>
    obtain ⟨d, -, h⟩ := Option.bind_eq_some_iff.mp h
    split at h
    · cases h
      exact List.forall_mem_nil _
    · obtain ⟨m, -, h⟩ := Option.bind_eq_some_iff.mp h
      cases h
      exact List.forall_mem_nil _

theorem Mode.plain_finish {m : Mode} {tokens : List Token} (h : m.finish = some tokens) :
    ∀ token ∈ tokens, token.Plain := by
  cases m with
  | between =>
    cases h
    exact List.forall_mem_nil _
  | word read =>
    obtain ⟨v, hv, rfl⟩ := Option.map_eq_some_iff.mp h
    exact List.forall_mem_singleton.mpr (isScalar_of_word? hv)
  | _ => cases h

theorem Token.plain_ofTextFrom {m : Mode} {t : Text} {tokens : List Token}
    (h : ofTextFrom m t = some tokens) : ∀ token ∈ tokens, token.Plain := by
  induction t generalizing m tokens with
  | nil => exact Mode.plain_finish h
  | cons c t ih =>
    obtain ⟨⟨first, m'⟩, hfirst, h⟩ := Option.bind_eq_some_iff.mp h
    obtain ⟨rest, hrest, h⟩ := Option.bind_eq_some_iff.mp h
    cases h
    intro token htoken
    rcases List.mem_append.mp htoken with htoken | htoken
    · exact Mode.plain_step hfirst token htoken
    · exact ih hrest token htoken

/-! ## The stack -/

/-- What has been read into an open array or object. -/
def Frame.Distinct : Frame → Prop
  | array items => ∀ v ∈ items, v.DistinctNames
  | object fields _ => (Value.object fields).DistinctNames

namespace State

/-- All that is on the stack, and the value if there is nothing left to read. -/
structure Distinct (s : State) : Prop where
  stack : ∀ frame ∈ s.stack, frame.Distinct
  result : ∀ v, s.expected = .nothing v → v.DistinctNames

variable {stack : List Frame} {s s' : State} {token : Token} {v : Value}

theorem distinct_complete (hv : v.DistinctNames) (h : ∀ frame ∈ stack, frame.Distinct) :
    (complete v stack).Distinct := by
  unfold complete
  split
  · exact ⟨h, fun w hw => by cases hw; exact hv⟩
  · rw [List.forall_mem_cons] at h
    exact ⟨List.forall_mem_cons.mpr ⟨List.forall_mem_cons.mpr ⟨hv, h.1⟩, h.2⟩, nofun⟩
  · rw [List.forall_mem_cons] at h
    exact ⟨List.forall_mem_cons.mpr ⟨Value.DistinctNames.put h.1 _ hv, h.2⟩, nofun⟩

theorem distinct_close {array : Bool} (h : ∀ frame ∈ stack, frame.Distinct)
    (hs : close array stack = some s) : s.Distinct := by
  unfold close at hs
  split at hs
  · rw [List.forall_mem_cons] at h
    split at hs <;> cases hs
    refine distinct_complete (Value.distinctNames_array_iff.mpr fun v hv => ?_) h.2
    exact h.1 v (List.mem_reverse.mp hv)
  · rw [List.forall_mem_cons] at h
    split at hs <;> cases hs
    exact distinct_complete h.1 h.2
  · cases hs

theorem distinct_beginValue (htoken : token.Plain) (h : ∀ frame ∈ stack, frame.Distinct)
    (hs : beginValue stack token = some s) : s.Distinct := by
  unfold beginValue at hs
  split at hs
  · cases hs
    exact distinct_complete (Value.distinctNames_of_isScalar htoken) h
  · split at hs <;> cases hs
    exact ⟨List.forall_mem_cons.mpr ⟨List.forall_mem_nil _, h⟩, nofun⟩
  · split at hs <;> cases hs
    refine ⟨List.forall_mem_cons.mpr ⟨?_, h⟩, nofun⟩
    exact Value.distinctNames_object_iff.mpr ⟨List.nodup_nil, List.forall_mem_nil _⟩
  · cases hs

theorem distinct_beginField (h : ∀ frame ∈ stack, frame.Distinct)
    (hs : beginField stack token = some s) : s.Distinct := by
  unfold beginField at hs
  split at hs
  · split at hs <;> cases hs
    rw [List.forall_mem_cons] at h
    exact ⟨List.forall_mem_cons.mpr h, nofun⟩
  · cases hs

theorem distinct_step (htoken : token.Plain) (h : s.Distinct) (hs : s.step token = some s') :
    s'.Distinct := by
  obtain ⟨stack, expected⟩ := s
  unfold step at hs
  split at hs
  · exact distinct_beginValue htoken h.stack hs
  · exact distinct_close h.stack hs
  · exact distinct_beginValue htoken h.stack hs
  · exact distinct_close h.stack hs
  · exact distinct_beginField h.stack hs
  · exact distinct_beginField h.stack hs
  · cases hs
    exact ⟨h.stack, nofun⟩
  · exact distinct_close h.stack hs
  · exact distinct_close h.stack hs
  · split at hs <;> cases hs <;> exact ⟨h.stack, nofun⟩
  · cases hs

theorem distinct_run {tokens : List Token} (htokens : ∀ token ∈ tokens, token.Plain)
    (h : s.Distinct) (hv : run s tokens = some v) : v.DistinctNames := by
  induction tokens generalizing s with
  | nil =>
    obtain ⟨stack, expected⟩ := s
    cases expected with
    | nothing w =>
      cases hv
      exact h.result _ rfl
    | _ => cases hv
  | cons token tokens ih =>
    rw [List.forall_mem_cons] at htokens
    rw [run] at hv
    obtain ⟨s', hs', hv⟩ := Option.bind_eq_some_iff.mp hv
    exact ih htokens.2 (distinct_step htokens.1 h hs') hv

end State

end Json

theorem Value.distinctNames_of_ofJson? {t : Text} {v : Value} (h : ofJson? t = some v) :
    v.DistinctNames := by
  obtain ⟨tokens, htokens, h⟩ := Option.bind_eq_some_iff.mp h
  refine Json.State.distinct_run (Json.Token.plain_ofTextFrom htokens) ?_ h
  exact ⟨List.forall_mem_nil _, nofun⟩

end DotQuery
