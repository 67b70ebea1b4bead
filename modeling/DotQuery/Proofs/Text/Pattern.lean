import Mathlib.Data.List.Infix
import DotQuery.Proofs.Text.Cut

/-!
# Patterns and the matches that are preferred

A pattern is a regular expression over classes of characters, some parts of which are kept as
groups. `Pattern.ways` lists the matches at the beginning of a text in the order in which a
backtracking search comes to them, where a repetition takes as many characters as it can first;
`Pattern.search` is the first of these at the leftmost place that has one.

A repetition before a character that it could have taken itself is the whole run
(`flatMap_runs_of_stop`), and one that may go on past a character ends at the last of these
(`findSome?_runs_before`).
-/

namespace DotQuery.Text

inductive Pattern where
  /-- A character of a class. -/
  | one (p : Char → Bool)
  /-- Any number of characters of a class, many rather than few. -/
  | many (p : Char → Bool)
  | seq (a b : Pattern)
  /-- A part whose text is kept. -/
  | group (a : Pattern)

/-- A match at the beginning of a text. -/
structure Way where
  groups : List Text
  matched : Text
  rest : Text

/-- The runs of a class at the beginning of a text and what follows them, the longest first. -/
def runs (p : Char → Bool) : Text → List (Text × Text)
  | [] => [([], [])]
  | c :: t =>
    (if p c then (runs p t).map fun (run, rest) => (c :: run, rest) else []) ++ [([], c :: t)]

namespace Pattern

def ways : Pattern → Text → List Way
  | one _, [] => []
  | one p, c :: t => if p c then [⟨[], [c], t⟩] else []
  | many p, t => (runs p t).map fun (run, rest) => ⟨[], run, rest⟩
  | seq a b, t => (a.ways t).flatMap fun x =>
      (b.ways x.rest).map fun y => ⟨x.groups ++ y.groups, x.matched ++ y.matched, y.rest⟩
  | group a, t => (a.ways t).map fun x => { x with groups := x.matched :: x.groups }

/-- The groups of the preferred match at the leftmost place. -/
def search (a : Pattern) (t : Text) : Option (List Text) :=
  t.tails.findSome? fun u => ((a.ways u).head?).map Way.groups

end Pattern

theorem Pattern.ways_one_seq (p : Char → Bool) (b : Pattern) (c : Char) (t : Text) :
    (Pattern.seq (.one p) b).ways (c :: t) =
      if p c then (b.ways t).map fun x => ⟨x.groups, c :: x.matched, x.rest⟩ else [] := by
  by_cases hc : p c = true
  · simp [Pattern.ways, hc]
  · simp [Pattern.ways, hc]

variable {α : Type} {p : Char → Bool}

theorem flatMap_runs_of_stop {f : Text × Text → List α}
    (hf : ∀ run c rest, p c = true → f (run, c :: rest) = []) (t : Text) :
    (runs p t).flatMap f = f (t.takeWhile p, t.dropWhile p) := by
  induction t generalizing f with
  | nil => simp [runs]
  | cons c t ih =>
    by_cases hc : p c = true
    · have hlonger := ih (f := fun x => f (c :: x.1, x.2)) fun run d rest hd =>
        hf (c :: run) d rest hd
      simp [runs, hc, hf [] c t hc, List.flatMap_map, hlonger]
    · simp [runs, hc]

theorem findSome?_runs_before (p : Char → Bool) (sep : Char) (hsep : p sep = true)
    (f : Text → α) (t : Text) :
    ((runs p t).findSome? fun x => if x.2.head? = some sep then some (f x.1) else none) =
      (cutAtLast sep (t.takeWhile p)).map fun x => f x.1 := by
  induction t generalizing f with
  | nil => simp [runs, cutAtLast]
  | cons c t ih =>
    by_cases hc : p c = true
    · have hlonger := ih fun run => f (c :: run)
      simp only [runs, hc, if_true, List.findSome?_append, List.findSome?_map, Function.comp_def,
        List.takeWhile_cons, cutAtLast]
      rw [hlonger]
      cases cutAtLast sep (t.takeWhile p) with
      | some around => rfl
      | none => by_cases h : c = sep <;> simp [h]
    · have hne : c ≠ sep := fun h => hc (h ▸ hsep)
      simp [runs, hc, hne, cutAtLast]

end DotQuery.Text
