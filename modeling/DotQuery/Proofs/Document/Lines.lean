import DotQuery.Document

/-!
# Documents in lines

Lines are read as documents only if each one that is not blank is a document. If one is not, the
failure names the first such line, and blank lines count.
-/

namespace DotQuery

/-- The failure of a line with a number. -/
def badLine (n : Nat) : Failure := ⟨["ndjson line ".toList ++ Text.ofNat n], .badJson⟩

/-- Lines, of which the first has the number `k`, have a line `n` that is not blank and not a
document. -/
def BadLineFrom (k : Nat) (ls : List Text) (n : Nat) : Prop :=
  ∃ l, (l, n) ∈ ls.zipIdx k ∧ l.trim ≠ [] ∧ Value.ofJson? l = none

/-- The lines that are not blank. -/
def documentLines (ls : List Text) : List Text := ls.filter fun l => l.trim ≠ []

/-! ## Bad lines -/

namespace BadLineFrom

theorem cons_iff {k n : Nat} {l : Text} {ls : List Text} :
    BadLineFrom k (l :: ls) n ↔
      (n = k ∧ l.trim ≠ [] ∧ Value.ofJson? l = none) ∨ BadLineFrom (k + 1) ls n := by
  constructor
  · rintro ⟨m, hm, hbad⟩
    rw [List.zipIdx_cons] at hm
    rcases List.mem_cons.mp hm with h | h
    · cases h
      exact .inl ⟨rfl, hbad⟩
    · exact .inr ⟨m, h, hbad⟩
  · rintro (⟨rfl, hbad⟩ | ⟨m, hm, hbad⟩)
    · exact ⟨l, List.mem_cons_self, hbad⟩
    · exact ⟨m, List.mem_cons_of_mem _ hm, hbad⟩

theorem le {k n : Nat} {ls : List Text} (h : BadLineFrom k ls n) : k ≤ n := by
  obtain ⟨l, hl, -⟩ := h
  exact List.le_snd_of_mem_zipIdx hl

end BadLineFrom

/-! ## Reading -/

section

variable {k : Nat} {l : Text} {ls : List Text}

theorem documentsFrom_blank (h : l.trim = []) :
    documentsFrom k (l :: ls) = documentsFrom (k + 1) ls := by
  simp only [documentsFrom, if_pos h]

theorem documentsFrom_bad (h : l.trim ≠ []) (hl : Value.ofJson? l = none) :
    documentsFrom k (l :: ls) = .error (badLine k) := by
  simp only [documentsFrom, if_neg h, readJson, hl]
  rfl

theorem documentsFrom_document {v : Value} (h : l.trim ≠ []) (hl : Value.ofJson? l = some v) :
    documentsFrom k (l :: ls) = (documentsFrom (k + 1) ls).map (v :: ·) := by
  simp only [documentsFrom, if_neg h, readJson, hl]
  cases documentsFrom (k + 1) ls with
  | error f => rfl
  | ok vs => rfl

end

theorem documentsFrom_of_bad {k m : Nat} {ls : List Text} (h : BadLineFrom k ls m) :
    ∃ n, BadLineFrom k ls n ∧ (∀ i, BadLineFrom k ls i → n ≤ i) ∧
      documentsFrom k ls = .error (badLine n) := by
  induction ls generalizing k with
  | nil =>
    obtain ⟨l, hl, -⟩ := h
    cases hl
  | cons l ls ih =>
    by_cases hfirst : l.trim ≠ [] ∧ Value.ofJson? l = none
    · refine ⟨k, BadLineFrom.cons_iff.mpr (.inl ⟨rfl, hfirst⟩), fun i hi => hi.le, ?_⟩
      exact documentsFrom_bad hfirst.1 hfirst.2
    · have hrest : ∀ {i}, BadLineFrom k (l :: ls) i → BadLineFrom (k + 1) ls i := fun hi =>
        (BadLineFrom.cons_iff.mp hi).resolve_left fun hk => hfirst hk.2
      obtain ⟨n, hn, hleast, hread⟩ := ih (hrest h)
      refine ⟨n, BadLineFrom.cons_iff.mpr (.inr hn), fun i hi => hleast i (hrest hi), ?_⟩
      by_cases hblank : l.trim = []
      · rw [documentsFrom_blank hblank, hread]
      · obtain ⟨v, hv⟩ := Option.ne_none_iff_exists'.mp fun hl => hfirst ⟨hblank, hl⟩
        rw [documentsFrom_document hblank hv, hread]
        rfl

theorem documentsFrom_of_not_bad {k : Nat} {ls : List Text} (h : ∀ n, ¬ BadLineFrom k ls n) :
    ∃ vs, documentsFrom k ls = .ok vs ∧ (documentLines ls).map Value.ofJson? = vs.map some := by
  induction ls generalizing k with
  | nil => exact ⟨[], rfl, rfl⟩
  | cons l ls ih =>
    obtain ⟨vs, hread, hvs⟩ := ih fun n hn => h n (BadLineFrom.cons_iff.mpr (.inr hn))
    by_cases hblank : l.trim = []
    · refine ⟨vs, ?_, ?_⟩
      · rw [documentsFrom_blank hblank, hread]
      · rw [documentLines, List.filter_cons_of_neg (by simpa using hblank)]
        exact hvs
    · have hl : Value.ofJson? l ≠ none := fun hl =>
        h k (BadLineFrom.cons_iff.mpr (.inl ⟨rfl, hblank, hl⟩))
      obtain ⟨v, hv⟩ := Option.ne_none_iff_exists'.mp hl
      refine ⟨v :: vs, ?_, ?_⟩
      · rw [documentsFrom_document hblank hv, hread]
        rfl
      · rw [documentLines, List.filter_cons_of_pos (by simpa using hblank), List.map_cons, hv]
        exact congrArg (some v :: ·) hvs

end DotQuery
