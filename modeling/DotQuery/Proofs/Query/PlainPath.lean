import DotQuery.Json.Path
import DotQuery.Proofs.Query.Classification
import DotQuery.Proofs.Query.Pieces
import DotQuery.Proofs.Query.Run

/-!
# Plain paths as queries

A text without opening brackets and braces is a path and a query at once. The query reads its steps
when it is compiled, the walk when it comes to them; where each step meets the sort of value that it
is for (`Value.Fits`), both find the same (`Value.query_plain_path`), also when that is nothing.
-/

namespace DotQuery

/-! ## Texts without brackets and braces -/

theorem piecesFrom_of_not_mem {t : Text} (h : '[' ∉ t) : piecesFrom 0 t = t.splitOn '.' := by
  induction t with
  | nil => rfl
  | cons c t ih =>
    rw [List.mem_cons, not_or] at h
    have hdepth : depthAfter 0 c = 0 := by simp [depthAfter, Ne.symm h.1]
    simp only [piecesFrom, Text.splitOn, hdepth, and_true, ih h.2]

theorem pieces_of_not_mem {t : Text} (h : '[' ∉ t) : pieces t = t.splitOn '.' := by
  unfold pieces
  split
  · exact piecesFrom_of_not_mem h
  · rfl

theorem Segment.ofText_of_not_mem {t : Text} (hbracket : '[' ∉ t) (hbrace : '\x7b' ∉ t) :
    ofText t = if t.allDigits then index (min t.natural maxIndex) else field t := by
  refine ofText_other (fun inner h => hbrace ?_) fun ⟨u, rest, h, _⟩ => hbracket ?_
  · rw [h.text]
    exact List.mem_cons_self
  · rw [h]
    exact List.mem_append_right u List.mem_cons_self

theorem Query.compile_of_not_mem {t : Text} (hbracket : '[' ∉ t) (hbrace : '\x7b' ∉ t) :
    Query.compile t = .ok ⟨t, (t.splitOn '.').map Segment.ofText⟩ := by
  refine compile_eq_ok_iff.mpr ⟨fun s hs => ?_, by rw [segmentsOf, pieces_of_not_mem hbracket]⟩
  obtain ⟨p, hp, rfl⟩ := List.mem_map.mp (List.mem_of_mem_drop hs)
  rw [pieces_of_not_mem hbracket] at hp
  rw [Segment.ofText_of_not_mem (fun hc => hbracket (Text.mem_of_mem_splitOn hp hc))
    (fun hc => hbrace (Text.mem_of_mem_splitOn hp hc))]
  split <;> rfl

/-! ## Steps -/

theorem placeOfStep?_of_allDigits {t : Text} (h : t.allDigits = true) :
    placeOfStep? t = if t.natural < Text.wordLimit then some t.natural else none := by
  unfold placeOfStep?
  split
  · next ds =>
    have hplus : Text.allDigits ('+' :: ds) = false := rfl
    rw [hplus] at h
    cases h
  · simp [Text.natural?, h]

/-- In an array that is not too long, all numbers from the largest index on lead nowhere. -/
theorem getElem?_min_maxIndex {items : List Value} (h : items.length < maxIndex) (n : Nat) :
    items[min n maxIndex]? = if n < Text.wordLimit then items[n]? else none := by
  have hlimit : Text.wordLimit = maxIndex + 1 := rfl
  split
  · rw [Nat.min_eq_left (by omega)]
  · exact List.getElem?_eq_none (by omega)

theorem Segment.apply_ofText_of_not_mem {v : Value} {step : Text} (hbracket : '[' ∉ step)
    (hbrace : '\x7b' ∉ step) (hkind : v.kind = if step.allDigits then .array else .object)
    (hsize : ∀ items, v = .array items → items.length < maxIndex) (n : Nat) :
    (ofText step).apply n v = .ok (v.step? step) := by
  rw [ofText_of_not_mem hbracket hbrace]
  by_cases hdigits : step.allDigits = true
  · rw [if_pos hdigits] at hkind ⊢
    cases v with
    | array items =>
      simp only [apply, Value.step?, placeOfStep?_of_allDigits hdigits,
        getElem?_min_maxIndex (hsize items rfl)]
      split <;> rfl
    | _ => cases hkind
  · rw [if_neg hdigits] at hkind ⊢
    cases v with
    | object fields => rfl
    | _ => cases hkind

/-! ## Walks -/

/-- Each step of a walk that is applied meets an array if it is a run of digits, and an object
otherwise. No array has as many items as the largest index. -/
structure Value.Fits (v : Value) (steps : List Text) : Prop where
  kind : ∀ (i : Nat) step w, steps[i]? = some step → v.walk (steps.take i) = some w →
    w.kind = if step.allDigits then .array else .object
  size : ∀ i items, v.walk (steps.take i) = some (.array items) → items.length < maxIndex

theorem Value.fits_nil_iff {v : Value} :
    v.Fits [] ↔ ∀ items, v = .array items → items.length < maxIndex := by
  constructor
  · intro h items hv
    exact h.size 0 items (congrArg some hv)
  · intro h
    constructor
    · intro i step w hs
      cases hs
    · intro i items hw
      rw [List.take_nil] at hw
      exact h items (Option.some.inj hw)

theorem Value.fits_cons_iff {v : Value} {step : Text} {steps : List Text} :
    v.Fits (step :: steps) ↔
      (v.kind = if step.allDigits then .array else .object) ∧
        (∀ items, v = .array items → items.length < maxIndex) ∧
        ∀ w, v.step? step = some w → w.Fits steps := by
  have hwalk : ∀ (i : Nat) x, v.walk ((step :: steps).take (i + 1)) = some x ↔
      ∃ w, v.step? step = some w ∧ w.walk (steps.take i) = some x := fun i x => by
    rw [List.take_succ_cons, walk, Option.bind_eq_some_iff]
  constructor
  · intro h
    refine ⟨h.kind 0 step v rfl rfl, fun items hv => h.size 0 items (congrArg some hv), ?_⟩
    intro w hw
    exact ⟨fun i step' x hs hx => h.kind (i + 1) step' x hs ((hwalk i x).mpr ⟨w, hw, hx⟩),
      fun i items hx => h.size (i + 1) items ((hwalk i _).mpr ⟨w, hw, hx⟩)⟩
  · rintro ⟨hkind, hsize, htail⟩
    constructor
    · intro i step' x hs hx
      cases i with
      | zero =>
        cases hs
        cases hx
        exact hkind
      | succ i =>
        obtain ⟨w, hw, hx⟩ := (hwalk i x).mp hx
        exact (htail w hw).kind i step' x hs hx
    · intro i items hx
      cases i with
      | zero => exact hsize items (Option.some.inj hx)
      | succ i =>
        obtain ⟨w, hw, hx⟩ := (hwalk i _).mp hx
        exact (htail w hw).size i items hx

theorem Run.result_map_ofText {v : Value} {steps : List Text}
    (hplain : ∀ step ∈ steps, '[' ∉ step ∧ '\x7b' ∉ step) (h : v.Fits steps) (n : Nat) :
    (runSegments n (steps.map Segment.ofText) (some v)).result = .ok (v.walk steps) := by
  induction steps generalizing v n with
  | nil => rfl
  | cons step steps ih =>
    rw [List.forall_mem_cons] at hplain
    obtain ⟨hkind, hsize, htail⟩ := Value.fits_cons_iff.mp h
    have hstep : (Segment.ofText step).apply n v = .ok (v.step? step) :=
      Segment.apply_ofText_of_not_mem hplain.1.1 hplain.1.2 hkind hsize n
    rw [List.map_cons, Run.result_cons, hstep, Value.walk]
    cases hw : v.step? step with
    | none => exact Run.result_none _ _
    | some w => exact ih hplain.2 (htail w hw) (n + 1)

theorem Value.query_plain_path {d : Value} {path : Text} (hne : path ≠ []) (hbracket : '[' ∉ path)
    (hbrace : '\x7b' ∉ path) (h : d.Fits (path.splitOn '.')) :
    (∃ q, Query.compile path = .ok q) ∧ d.query path = .ok (d.atPath? path) := by
  have hcompile := Query.compile_of_not_mem hbracket hbrace
  have hplain : ∀ step ∈ path.splitOn '.', '[' ∉ step ∧ '\x7b' ∉ step := fun step hs =>
    ⟨fun hc => hbracket (Text.mem_of_mem_splitOn hs hc),
      fun hc => hbrace (Text.mem_of_mem_splitOn hs hc)⟩
  refine ⟨⟨_, hcompile⟩, ?_⟩
  rw [Value.query_of_compile hcompile, Query.execute, atPath?, if_neg hne,
    Run.result_map_ofText hplain h 0]
  rfl

/-- An index with a leading zero, a name with a closing bracket and an empty name lead to a value,
and an index of more than 64 bits leads nowhere. -/
theorem Value.query_plain_path_of_large_index :
    let inner : Value := .object [("x]".toList, .object [([], .null)])]
    let d : Value := .object [(['a'], .array [.null, inner])]
    let path := "a.01.x].".toList
    let outside := "a.36893488147419103232.b".toList
    d.Fits (path.splitOn '.') ∧ d.Fits (outside.splitOn '.') ∧
      d.query path = .ok (some .null) ∧ d.query outside = .ok none := by
  intro inner d path outside
  have hpath : d.Fits (path.splitOn '.') := by
    refine fits_cons_iff.mpr ⟨rfl, nofun, fun w hw => ?_⟩
    cases hw
    refine fits_cons_iff.mpr ⟨rfl, fun items hv => by cases hv; decide, fun w hw => ?_⟩
    cases hw
    refine fits_cons_iff.mpr ⟨rfl, nofun, fun w hw => ?_⟩
    cases hw
    refine fits_cons_iff.mpr ⟨rfl, nofun, fun w hw => ?_⟩
    cases hw
    exact fits_nil_iff.mpr nofun
  have houtside : d.Fits (outside.splitOn '.') := by
    refine fits_cons_iff.mpr ⟨rfl, nofun, fun w hw => ?_⟩
    cases hw
    refine fits_cons_iff.mpr ⟨rfl, fun items hv => by cases hv; decide, fun w hw => ?_⟩
    cases hw
  refine ⟨hpath, houtside, ?_, ?_⟩
  · exact (query_plain_path (by decide) (by decide) (by decide) hpath).2.trans rfl
  · exact (query_plain_path (by decide) (by decide) (by decide) houtside).2.trans rfl

end DotQuery
