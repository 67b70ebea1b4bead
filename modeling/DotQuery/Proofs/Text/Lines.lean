import DotQuery.Text.Basic

/-!
# Lines

`InLines ls t`: the text `t` is the lines `ls`, each with its end. These are the lines that `lines`
gives, and no others (`inLines_iff`).
-/

namespace DotQuery.Text

/-- A CR in front of a LF is a part of the end of the line, any other one of the line. -/
inductive InLines : List Text → Text → Prop where
  | nil : InLines [] []
  | last {l : Text} (hne : l ≠ []) (hl : '\n' ∉ l) : InLines [l] l
  | lineFeed {l t : Text} {ls : List Text} (hl : '\n' ∉ l) (hend : l.getLast? ≠ some '\r')
      (rest : InLines ls t) : InLines (l :: ls) (l ++ '\n' :: t)
  | crlf {l t : Text} {ls : List Text} (hl : '\n' ∉ l) (rest : InLines ls t) :
      InLines (l :: ls) (l ++ '\r' :: '\n' :: t)

variable {c : Char} {l ending t : Text} {ls : List Text}

theorem lines_lineFeed (t : Text) : lines ('\n' :: t) = [] :: lines t := by
  rw [lines]

theorem lines_crlf (t : Text) : lines ('\r' :: '\n' :: t) = [] :: lines t := by
  rw [lines]

/-- A character that is not in the end of a line. -/
theorem lines_cons (hc : c ≠ '\n') (hcr : c = '\r' → t.head? ≠ some '\n') :
    lines (c :: t) = consHead c (lines t) := by
  rw [lines]
  · exact hc
  · rintro u rfl rfl
    exact hcr rfl rfl

theorem lines_append (hl : '\n' ∉ l) (hend : l.getLast? = some '\r' → ending.head? ≠ some '\n')
    (hlines : lines ending = [] :: ls) : lines (l ++ ending) = l :: ls := by
  induction l with
  | nil => exact hlines
  | cons c l ih =>
    rw [List.mem_cons, not_or] at hl
    have hlast (h : l.getLast? = some '\r') : (c :: l).getLast? = some '\r' := by
      rw [List.getLast?_cons, h]
      rfl
    have hcr (h : c = '\r') : (l ++ ending).head? ≠ some '\n' := by
      cases l with
      | nil => exact hend (congrArg some h)
      | cons d l => exact fun hd => hl.2 (List.mem_cons.mpr (.inl (Option.some.inj hd).symm))
    rw [List.cons_append, lines_cons (Ne.symm hl.1) hcr, ih hl.2 fun h => hend (hlast h)]
    rfl

theorem lines_of_not_mem (hne : l ≠ []) (hl : '\n' ∉ l) : lines l = [l] := by
  induction l with
  | nil => exact absurd rfl hne
  | cons c l ih =>
    rw [List.mem_cons, not_or] at hl
    have hcr (_ : c = '\r') : l.head? ≠ some '\n' := fun h => hl.2 (List.mem_of_head? h)
    rw [lines_cons (Ne.symm hl.1) hcr]
    cases l with
    | nil => rfl
    | cons d l =>
      rw [ih (List.cons_ne_nil d l) hl.2]
      rfl

theorem lines_of_inLines (h : InLines ls t) : lines t = ls := by
  induction h with
  | nil => rfl
  | last hne hl => exact lines_of_not_mem hne hl
  | lineFeed hl hend _ ih =>
    exact lines_append hl (fun h => absurd h hend) (by rw [lines_lineFeed, ih])
  | crlf hl _ ih =>
    exact lines_append hl (fun _ h => absurd (Option.some.inj h) (by decide))
      (by rw [lines_crlf, ih])

theorem InLines.cons (hc : c ≠ '\n') (hcr : c = '\r' → t.head? ≠ some '\n') (h : InLines ls t) :
    InLines (consHead c ls) (c :: t) := by
  cases h with
  | nil =>
    have hl : '\n' ∉ [c] := List.not_mem_cons_of_ne_of_not_mem hc.symm List.not_mem_nil
    exact .last (List.cons_ne_nil c []) hl
  | last hne hl =>
    exact .last (List.cons_ne_nil _ _) (List.not_mem_cons_of_ne_of_not_mem hc.symm hl)
  | @lineFeed l u ls hl hend rest =>
    refine InLines.lineFeed (l := c :: l) (List.not_mem_cons_of_ne_of_not_mem hc.symm hl) ?_ rest
    cases l with
    | nil =>
      intro h
      exact hcr (Option.some.inj h) rfl
    | cons d l => rwa [List.getLast?_cons_cons]
  | @crlf l u ls hl rest =>
    exact InLines.crlf (l := c :: l) (List.not_mem_cons_of_ne_of_not_mem hc.symm hl) rest

theorem inLines_lines (t : Text) : InLines (lines t) t := by
  induction t using lines.induct with
  | case1 => exact .nil
  | case2 t ih =>
    rw [lines_lineFeed]
    exact InLines.lineFeed (l := []) List.not_mem_nil nofun ih
  | case3 t ih =>
    rw [lines_crlf]
    exact InLines.crlf (l := []) List.not_mem_nil ih
  | case4 c t hc hcr ih =>
    have hhead (h : c = '\r') : t.head? ≠ some '\n' := by
      intro ht
      obtain ⟨u, hu⟩ := List.head?_eq_some_iff.mp ht
      exact hcr u h hu
    rw [lines_cons hc hhead]
    exact ih.cons hc hhead

theorem inLines_iff : InLines ls t ↔ t.lines = ls :=
  ⟨lines_of_inLines, fun h => h ▸ inLines_lines t⟩

end DotQuery.Text
