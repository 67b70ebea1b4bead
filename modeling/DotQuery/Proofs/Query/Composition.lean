import DotQuery.Proofs.Query.Pieces
import DotQuery.Proofs.Query.Run

/-!
# Composing queries

Two query texts joined by a dot are one query: it has the segments of both, and its answer is that
of the second query on the value that the first one finds. An error of the first ends the run, and
so does a value that the first does not find; an error of the second is reported as many positions
further on as the first has segments.
-/

namespace DotQuery

/-- A segment list that begins with no unnamed filter and has none later has none at all. -/
theorem named_of_head_of_drop {ss : List Segment}
    (hhead : ∀ s, ss.head? = some s → s.isUnnamedFilter = false)
    (hdrop : ∀ s ∈ ss.drop 1, s.isUnnamedFilter = false) :
    ∀ s ∈ ss, s.isUnnamedFilter = false := by
  cases ss with
  | nil => intro s hs; cases hs
  | cons r ss =>
    intro s hs
    rcases List.mem_cons.mp hs with rfl | hs
    · exact hhead s rfl
    · exact hdrop s hs

theorem Query.compile_join {t u : Text} {q r : Query} (hq : Query.compile t = .ok q)
    (hr : Query.compile u = .ok r) (ht : scanDepth 0 t = 0) (hu : scanDepth 0 u = 0)
    (hhead : ∀ s, r.segments.head? = some s → s.isUnnamedFilter = false) :
    Query.compile (t ++ '.' :: u) = .ok ⟨t ++ '.' :: u, q.segments ++ r.segments⟩ := by
  rw [segments_of_compile hr] at hhead
  rw [segments_of_compile hq, segments_of_compile hr, compile_eq_ok_iff, segmentsOf_join ht hu]
  refine ⟨fun s hs => ?_, rfl⟩
  rw [List.drop_append_of_le_length (List.length_pos_iff.mpr (segmentsOf_ne_nil t))] at hs
  rcases List.mem_append.mp hs with hs | hs
  · exact (compile_eq_ok_iff.mp hq).1 s hs
  · exact named_of_head_of_drop hhead (compile_eq_ok_iff.mp hr).1 s hs

/-- What a second query makes of the answer of a first one with `n` segments. -/
def andThenQuery (n : Nat) (u : Text) :
    Except QueryError (Option Value) → Except QueryError (Option Value)
  | .error e => .error e
  | .ok none => .ok none
  | .ok (some v) => (v.query u).mapError (·.shift n)

theorem Query.compile_and_query_join {t u : Text} {q r : Query} (hq : Query.compile t = .ok q)
    (hr : Query.compile u = .ok r) (ht : scanDepth 0 t = 0) (hu : scanDepth 0 u = 0)
    (hhead : ∀ s, r.segments.head? = some s → s.isUnnamedFilter = false) (d : Value) :
    Query.compile (t ++ '.' :: u) = .ok ⟨t ++ '.' :: u, q.segments ++ r.segments⟩ ∧
      d.query (t ++ '.' :: u) = andThenQuery q.segments.length u (d.query t) := by
  have hjoin := compile_join hq hr ht hu hhead
  refine ⟨hjoin, ?_⟩
  rw [Value.query_of_compile hjoin, Value.query_of_compile hq]
  simp only [execute, Run.result_append, Nat.zero_add]
  rcases (runSegments 0 q.segments (some d)).result with e | _ | v
  · rfl
  · change (runSegments q.segments.length r.segments none).result.mapError _ = _
    rw [Run.result_none]
    rfl
  · exact Value.query_shift hr q.segments.length v

/-- One item is left of the rows, and the last index of `0.x.1` fails on its text: third in its own
query, fourth in the joined one. -/
theorem Query.narrowed_join :
    let row (n x : Text) : Value := .object [(['n'], .string n), (['x'], .string x)]
    let d : Value := .object [("rows".toList, .array [row ['a'] ['y'], row "a.b".toList ['z']])]
    let t := "rows[n==a.b]".toList
    let u := "0.x.1".toList
    scanDepth 0 t = 0 ∧ scanDepth 0 u = 0 ∧
      Query.compile t = .ok ⟨t, [.filter (some "rows".toList) (.ofText "n==a.b".toList)]⟩ ∧
      Query.compile u = .ok ⟨u, [.index 0, .field ['x'], .index 1]⟩ ∧
      d.query t = .ok (some (.array [row "a.b".toList ['z']])) ∧
      d.query (t ++ '.' :: u) = .error (.execution (.notAnArray 3 1 .string)) := by
  intro row d t u
  have hq : Query.compile t =
      .ok ⟨t, [.filter (some "rows".toList) (.ofText "n==a.b".toList)]⟩ := by decide
  have hr : Query.compile u = .ok ⟨u, [.index 0, .field ['x'], .index 1]⟩ := by decide
  have hjoin := compile_and_query_join hq hr (by decide) (by decide)
    (fun s hs => by cases hs; rfl) d
  exact ⟨by decide, by decide, hq, hr, rfl, hjoin.2⟩

end DotQuery
