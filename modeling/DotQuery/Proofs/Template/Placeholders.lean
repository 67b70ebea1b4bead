import Mathlib.Data.List.DropRight
import DotQuery.Proofs.Text.Pattern
import DotQuery.Template

/-!
# Placeholders

`Placed t before name rest`: the text `t` has a placeholder between `before` and `rest`; `First` is
the leftmost one. The placeholders at the beginning of a text are the matches of a regular
expression there (`mem_ways_placeholderPattern_iff`). A pass over a text from the left takes the
placeholder at its beginning, or else one character (`pass_induction`).
-/

namespace DotQuery.Template

open Text (Pattern Way)

variable {t before name rest : Text} {c : Char}

/-! ## Places -/

structure Placed (t before name rest : Text) : Prop where
  text : t = before ++ placeholder name ++ rest
  ne_nil : name ≠ []
  no_brace : '\x7d' ∉ name

structure First (t before name rest : Text) : Prop extends Placed t before name rest where
  first : ∀ before' name' rest', Placed t before' name' rest' → before.length ≤ before'.length

theorem not_placed_nil : ¬ Placed [] before name rest := fun h => by
  have htext := h.text
  simp [placeholder] at htext

theorem placed_cons_cons_iff {d : Char} :
    Placed (c :: t) (d :: before) name rest ↔ d = c ∧ Placed t before name rest := by
  constructor
  · intro h
    obtain ⟨hc, htext⟩ := List.cons_eq_cons.mp h.text
    exact ⟨hc.symm, htext, h.ne_nil, h.no_brace⟩
  · rintro ⟨rfl, h⟩
    exact ⟨congrArg _ h.text, h.ne_nil, h.no_brace⟩

theorem Placed.first_of_nil (h : Placed t [] name rest) : First t [] name rest :=
  ⟨h, fun _ _ _ _ => Nat.zero_le _⟩

/-- A place without a placeholder in front of a text leaves the leftmost one where it is. -/
theorem first_cons_cons_iff (hc : ∀ name rest, ¬ Placed (c :: t) [] name rest) :
    First (c :: t) (c :: before) name rest ↔ First t before name rest := by
  constructor
  · intro h
    refine ⟨(placed_cons_cons_iff.mp h.toPlaced).2, fun before' name' rest' h' => ?_⟩
    have hle := h.first (c :: before') name' rest' (placed_cons_cons_iff.mpr ⟨rfl, h'⟩)
    exact Nat.le_of_succ_le_succ hle
  · intro h
    refine ⟨placed_cons_cons_iff.mpr ⟨rfl, h.toPlaced⟩, fun before' name' rest' h' => ?_⟩
    cases before' with
    | nil => exact absurd h' (hc name' rest')
    | cons d before' =>
      exact Nat.succ_le_succ (h.first before' name' rest' (placed_cons_cons_iff.mp h').2)

/-- What a pass meets: a placeholder, behind which it goes on, or one more character. -/
theorem pass_induction {motive : Text → Prop} (nil : motive [])
    (placeholder : ∀ name rest, Placed (placeholder name ++ rest) [] name rest → motive rest →
      motive (placeholder name ++ rest))
    (char : ∀ c t, (∀ name rest, ¬ Placed (c :: t) [] name rest) → motive t → motive (c :: t))
    (t : Text) : motive t := by
  induction hn : t.length using Nat.strong_induction_on generalizing t with
  | h n ih =>
    subst hn
    cases t with
    | nil => exact nil
    | cons c t =>
      by_cases hhere : ∃ name rest, Placed (c :: t) [] name rest
      · obtain ⟨name, rest, hplaced⟩ := hhere
        have htext : c :: t = Template.placeholder name ++ rest := hplaced.text
        have hlength : rest.length < (c :: t).length := by
          simp only [htext, Template.placeholder, List.length_append, List.length_cons]
          omega
        rw [htext] at hplaced ⊢
        exact placeholder name rest hplaced (ih rest.length hlength rest rfl)
      · exact char c t (by simpa using hhere) (ih t.length (Nat.lt_succ_self _) t rfl)

/-! ## As matches -/

/-- The expression `\{([^}]+)\}`. -/
def placeholderPattern : Pattern :=
  .seq (.one (· = '\x7b'))
    (.seq (.group (.seq (.one (· ≠ '\x7d')) (.many (· ≠ '\x7d')))) (.one (· = '\x7d')))

/-- A shorter name ends before a character of the name and not before a closing brace. -/
theorem ways_open (hc : c ≠ '\x7d') (u : Text) :
    placeholderPattern.ways ('\x7b' :: c :: u) =
      ((Pattern.one (· = '\x7d')).ways (u.dropWhile (· ≠ '\x7d'))).map fun x =>
        let name := c :: u.takeWhile (· ≠ '\x7d')
        ⟨name :: x.groups, '\x7b' :: (name ++ x.matched), x.rest⟩ := by
  have hname : decide (c ≠ '\x7d') = true := decide_eq_true hc
  rw [placeholderPattern, Pattern.ways_one_seq, if_pos (by decide), Pattern.ways, Pattern.ways,
    Pattern.ways_one_seq, if_pos hname, Pattern.ways, List.map_map, List.map_map,
    List.flatMap_map, Text.flatMap_runs_of_stop, List.map_map]
  · simp only [Function.comp_def]
    rfl
  · intro run d rest hd
    have hne : d ≠ '\x7d' := by simpa using hd
    simp [Pattern.ways, hne]

theorem ways_placeholder (hne : name ≠ []) (hname : '\x7d' ∉ name) (rest : Text) :
    placeholderPattern.ways (placeholder name ++ rest) = [⟨[name], placeholder name, rest⟩] := by
  obtain ⟨c, n, rfl⟩ := List.exists_cons_of_ne_nil hne
  rw [List.mem_cons, not_or] at hname
  have hrun : ∀ d ∈ n, decide (d ≠ '\x7d') = true := fun d hd =>
    decide_eq_true fun e => hname.2 (e ▸ hd)
  have htext : placeholder (c :: n) ++ rest = '\x7b' :: c :: (n ++ '\x7d' :: rest) := by
    simp [placeholder]
  rw [htext, ways_open (Ne.symm hname.1), List.dropWhile_append_of_pos hrun,
    List.takeWhile_append_of_pos hrun]
  simp [Pattern.ways, placeholder]

theorem exists_placed_of_mem_ways {w : Way} (h : w ∈ placeholderPattern.ways t) :
    ∃ name rest, Placed t [] name rest := by
  cases t with
  | nil => simp [placeholderPattern, Pattern.ways] at h
  | cons d t =>
    by_cases hd : d = '\x7b'
    · subst hd
      cases t with
      | nil => simp [placeholderPattern, Pattern.ways] at h
      | cons c u =>
        by_cases hc : c = '\x7d'
        · simp [placeholderPattern, Pattern.ways, hc] at h
        · by_cases hu : '\x7d' ∈ u
          · obtain ⟨n, rest, rfl, hn⟩ := List.eq_append_cons_of_mem hu
            refine ⟨c :: n, rest, by simp [placeholder], List.cons_ne_nil c n, ?_⟩
            exact List.not_mem_cons_of_ne_of_not_mem (Ne.symm hc) hn
          · have hdrop : u.dropWhile (· ≠ '\x7d') = [] :=
              List.dropWhile_eq_nil_iff.mpr fun d hd => decide_eq_true fun e => hu (e ▸ hd)
            rw [ways_open hc, hdrop] at h
            cases h
    · simp [placeholderPattern, Pattern.ways, hd] at h

/-- At the beginning of a text the expression matches a placeholder, in one way. -/
theorem mem_ways_placeholderPattern_iff {w : Way} : w ∈ placeholderPattern.ways t ↔
    ∃ name rest, Placed t [] name rest ∧ w = ⟨[name], placeholder name, rest⟩ := by
  have hways {name rest : Text} (h : Placed t [] name rest) :
      placeholderPattern.ways t = [⟨[name], placeholder name, rest⟩] := by
    rw [h.text]
    exact ways_placeholder h.ne_nil h.no_brace rest
  constructor
  · intro hw
    obtain ⟨name, rest, h⟩ := exists_placed_of_mem_ways hw
    rw [hways h] at hw
    exact ⟨name, rest, h, List.mem_singleton.mp hw⟩
  · rintro ⟨name, rest, h, rfl⟩
    rw [hways h]
    exact List.mem_singleton_self _

end DotQuery.Template
