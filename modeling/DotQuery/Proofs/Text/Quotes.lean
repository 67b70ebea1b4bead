import Mathlib.Data.List.Chain
import DotQuery.Proofs.Text.Pieces
import DotQuery.Text.Quoted

/-!
# Quoted texts in other texts

A quoted text is on one line (`Text.lineFeed_not_mem_quoted`). A quote in it that is not the first
or the last character comes behind a backslash, so where a text ends in a quoted one behind another
character, what is in front is known (`Text.eq_of_append_quoted_eq`).
-/

namespace DotQuery

/-! ## Line feeds -/

theorem lineFeed_not_mem_quotedChar (c : Char) : '\n' ∉ quotedChar c := by
  unfold quotedChar
  split
  case h_7 hfeed _ _ _ =>
    split
    · simpa using Ne.symm hfeed
    · simp [Text.lineFeed_not_mem_ofNatHex]
  all_goals decide

theorem Text.lineFeed_not_mem_quoted (t : Text) : '\n' ∉ t.quoted := by
  simp [quoted, lineFeed_not_mem_quotedChar]

/-! ## Quotes -/

/-- The character `d` may follow `c`: a quote follows a backslash only. -/
def EscapedBy (c d : Char) : Prop := d = '"' → c = '\\'

theorem isChain_of_not_mem_quote {t : Text} (h : '"' ∉ t) : t.IsChain EscapedBy := by
  induction t with
  | nil => exact .nil
  | cons c t ih =>
    rw [List.mem_cons, not_or] at h
    refine List.isChain_cons.mpr ⟨fun d hd hquote => ?_, ih h.2⟩
    subst hquote
    exact absurd (List.mem_of_mem_head? hd) h.2

theorem isChain_quotedChar (c : Char) : (quotedChar c).IsChain EscapedBy := by
  unfold quotedChar
  split
  case h_1 => exact .cons_cons (fun _ => rfl) (.singleton _)
  case h_7 =>
    split
    · exact .singleton c
    · refine isChain_of_not_mem_quote ?_
      have hhex := Text.not_mem_ofNatHex (c := '"') rfl c.toNat
      simp [hhex]
  all_goals exact isChain_of_not_mem_quote (by decide)

theorem head_quotedChar_append_ne (c : Char) (t : Text) :
    (quotedChar c ++ t).head? ≠ some '"' := by
  unfold quotedChar
  split
  case h_7 hquote _ _ _ _ _ =>
    split
    · exact fun h => hquote (Option.some.inj h)
    · nofun
  all_goals nofun

theorem head_flatMap_quotedChar_ne (t : Text) : (t.flatMap quotedChar).head? ≠ some '"' := by
  cases t with
  | nil => nofun
  | cons c t => exact head_quotedChar_append_ne c _

theorem isChain_flatMap_quotedChar (t : Text) : (t.flatMap quotedChar).IsChain EscapedBy := by
  induction t with
  | nil => exact .nil
  | cons c t ih =>
    refine List.isChain_append.mpr ⟨isChain_quotedChar c, ih, fun a _ b hb hquote => ?_⟩
    exact absurd (hquote ▸ hb) (head_flatMap_quotedChar_ne t)

/-- A quoted text ends in another one only behind a backslash. -/
theorem Text.eq_backslash_of_quoted_eq {s t u : Text} {c : Char}
    (h : s.quoted = u ++ c :: t.quoted) :
    c = '\\' := by
  have hopen : '"' :: s.flatMap quotedChar = u ++ c :: '"' :: t.flatMap quotedChar := by
    refine (List.append_left_inj ['"']).mp ?_
    rw [List.append_assoc]
    exact h
  cases u with
  | nil =>
    have hbody := (List.cons_eq_cons.mp hopen).2
    exact absurd (congrArg List.head? hbody) (head_flatMap_quotedChar_ne s)
  | cons d u =>
    have hbody := (List.cons_eq_cons.mp hopen).2
    have hchain := isChain_flatMap_quotedChar s
    rw [hbody] at hchain
    exact (List.isChain_append_cons_cons.mp hchain).2.1 rfl

theorem Text.eq_of_append_quoted_eq {a b s t : Text} {c : Char} (hc : c ≠ '\\')
    (h : a ++ c :: s.quoted = b ++ c :: t.quoted) : a = b := by
  rcases List.append_eq_append_iff.mp h with ⟨u, rfl, hu⟩ | ⟨u, rfl, hu⟩
  · cases u with
    | nil => exact (List.append_nil a).symm
    | cons d u => exact absurd (eq_backslash_of_quoted_eq (List.cons_eq_cons.mp hu).2) hc
  · cases u with
    | nil => exact List.append_nil b
    | cons d u => exact absurd (eq_backslash_of_quoted_eq (List.cons_eq_cons.mp hu).2) hc

end DotQuery

