import DotQuery.Text.Class

/-!
# Tokens and blanks in texts

`cutAtFirst` finds a token exactly if it occurs, at a place before which it does not occur
(`cutAtFirst_eq_none_iff`, `cutAtFirst_eq_some`). A separator that is no character of a token keeps
what is in front of it apart from what is behind (`infix_append_cons_iff`,
`cutAtFirst_append_cons`). `cutAtLast` cuts at the one occurrence of a character that is followed by
none (`cutAtLast_eq_some_iff`). `trim` gives a part of the text, once and for all, and does not see
blanks around it.
-/

namespace DotQuery.Text

variable {token t : Text}

/-! ## Separators -/

theorem prefix_append_cons_iff {sep : Char} (hsep : sep ∉ token) {a u : Text} :
    token <+: a ++ sep :: u ↔ token <+: a := by
  induction token generalizing a with
  | nil => simp
  | cons c token ih =>
    rw [List.mem_cons, not_or] at hsep
    cases a with
    | nil => simp [List.cons_prefix_cons, Ne.symm hsep.1]
    | cons b a => rw [List.cons_append, List.cons_prefix_cons, List.cons_prefix_cons, ih hsep.2]

theorem not_prefix_sep {sep : Char} (hsep : sep ∉ token) (hne : token ≠ []) (u : Text) :
    ¬ token <+: sep :: u := fun h =>
  hne (List.prefix_nil.mp ((prefix_append_cons_iff hsep (a := [])).mp h))

theorem infix_append_cons_iff {sep : Char} (hsep : sep ∉ token) (hne : token ≠ []) {a u : Text} :
    token <:+: a ++ sep :: u ↔ token <:+: a ∨ token <:+: u := by
  induction a with
  | nil => simp [List.infix_cons_iff, not_prefix_sep hsep hne, hne]
  | cons b a ih =>
    rw [List.cons_append, List.infix_cons_iff, List.infix_cons_iff, ih, ← List.cons_append,
      prefix_append_cons_iff hsep, or_assoc]

/-! ## First occurrences -/

theorem afterToken?_eq_some_iff {rest : Text} :
    afterToken? token t = some rest ↔ t = token ++ rest := by
  induction token generalizing t with
  | nil => simp [afterToken?, eq_comm]
  | cons c token ih =>
    cases t with
    | nil => simp [afterToken?]
    | cons d t =>
      unfold afterToken?
      split
      · next h => simp [ih, h]
      · next h => simp [Ne.symm h]

theorem afterToken?_eq_none_iff : afterToken? token t = none ↔ ¬ token <+: t := by
  rw [Option.eq_none_iff_forall_ne_some]
  constructor
  · rintro h ⟨rest, hrest⟩
    exact h rest (afterToken?_eq_some_iff.mpr hrest.symm)
  · intro h rest hrest
    exact h ⟨rest, (afterToken?_eq_some_iff.mp hrest).symm⟩

theorem cutAtFirst_cons_of_not_isPrefix {c : Char} (h : ¬ token <+: c :: t) :
    cutAtFirst token (c :: t) =
      (cutAtFirst token t).map fun (before, rest) => (c :: before, rest) := by
  rw [cutAtFirst, afterToken?_eq_none_iff.mpr h]

theorem cutAtFirst_token_append (hne : token ≠ []) (rest : Text) :
    cutAtFirst token (token ++ rest) = some ([], rest) := by
  cases token with
  | nil => exact absurd rfl hne
  | cons c token =>
    rw [List.cons_append, cutAtFirst, ← List.cons_append, afterToken?_eq_some_iff.mpr rfl]

theorem cutAtFirst_eq_none_iff (hne : token ≠ []) :
    cutAtFirst token t = none ↔ ¬ token <:+: t := by
  induction t with
  | nil => simp [cutAtFirst, hne]
  | cons c t ih =>
    by_cases h : token <+: c :: t
    · obtain ⟨rest, hrest⟩ := h
      rw [← hrest, cutAtFirst_token_append hne]
      simp [List.infix_append_left]
    · rw [cutAtFirst_cons_of_not_isPrefix h, Option.map_eq_none_iff, ih, List.infix_cons_iff]
      simp [h]

theorem cutAtFirst_eq_some {before rest : Text} (hne : token ≠ [])
    (h : cutAtFirst token t = some (before, rest)) :
    t = before ++ token ++ rest ∧ ¬ token <:+: before := by
  induction t generalizing before with
  | nil => simp [cutAtFirst, hne] at h
  | cons c t ih =>
    by_cases hp : token <+: c :: t
    · obtain ⟨u, hu⟩ := hp
      rw [← hu, cutAtFirst_token_append hne] at h
      cases h
      exact ⟨hu.symm, by simpa using hne⟩
    · rw [cutAtFirst_cons_of_not_isPrefix hp, Option.map_eq_some_iff] at h
      obtain ⟨⟨a, b⟩, hab, he⟩ := h
      cases he
      obtain ⟨ht, ha⟩ := ih hab
      refine ⟨by rw [ht]; rfl, fun hin => ?_⟩
      rcases List.infix_cons_iff.mp hin with hin | hin
      · refine hp (hin.trans ?_)
        rw [ht, List.append_assoc]
        exact List.prefix_append (c :: a) _
      · exact ha hin

theorem cutAtFirst_append_singleton {sep : Char} {before : Text} (h : sep ∉ before) (after : Text) :
    cutAtFirst [sep] (before ++ sep :: after) = some (before, after) := by
  induction before with
  | nil => exact cutAtFirst_token_append (List.cons_ne_nil sep []) after
  | cons c before ih =>
    rw [List.mem_cons, not_or] at h
    have hc : ¬ [sep] <+: c :: (before ++ sep :: after) := fun hprefix =>
      h.1 (List.cons_prefix_cons.mp hprefix).1
    rw [List.cons_append, cutAtFirst_cons_of_not_isPrefix hc, ih h.2]
    rfl

/-- A separator in front of which a token does not occur. -/
theorem cutAtFirst_append_cons {sep : Char} (hsep : sep ∉ token) (hne : token ≠ []) {a : Text}
    (ha : ¬ token <:+: a) (u : Text) :
    cutAtFirst token (a ++ sep :: u) =
      (cutAtFirst token u).map fun (before, rest) => (a ++ sep :: before, rest) := by
  induction a with
  | nil => exact cutAtFirst_cons_of_not_isPrefix (not_prefix_sep hsep hne u)
  | cons c a ih =>
    rw [List.infix_cons_iff, not_or] at ha
    have hp : ¬ token <+: c :: (a ++ sep :: u) := fun h =>
      ha.1 ((prefix_append_cons_iff hsep (a := c :: a)).mp h)
    rw [List.cons_append, cutAtFirst_cons_of_not_isPrefix hp, ih ha.2, Option.map_map]
    rfl

/-- A character behind a text that is no character of the token. -/
theorem cutAtFirst_concat {sep : Char} (hsep : sep ∉ token) (hne : token ≠ []) (t : Text) :
    cutAtFirst token (t ++ [sep]) =
      (cutAtFirst token t).map fun (before, rest) => (before, rest ++ [sep]) := by
  induction t with
  | nil =>
    rw [List.nil_append, cutAtFirst_cons_of_not_isPrefix (not_prefix_sep hsep hne [])]
    simp [cutAtFirst, hne]
  | cons c t ih =>
    by_cases h : token <+: c :: t
    · obtain ⟨rest, hrest⟩ := h
      rw [← hrest, List.append_assoc, cutAtFirst_token_append hne, cutAtFirst_token_append hne]
      rfl
    · have h' : ¬ token <+: c :: (t ++ [sep]) := fun hp =>
        h ((prefix_append_cons_iff hsep (a := c :: t)).mp hp)
      rw [List.cons_append, cutAtFirst_cons_of_not_isPrefix h', cutAtFirst_cons_of_not_isPrefix h,
        ih, Option.map_map, Option.map_map]
      rfl

/-! ## Last occurrences -/

theorem cutAtLast_eq_none_iff {sep : Char} : cutAtLast sep t = none ↔ sep ∉ t := by
  induction t with
  | nil => simp [cutAtLast]
  | cons c t ih =>
    rw [List.mem_cons, not_or, ← ih, cutAtLast]
    cases cutAtLast sep t with
    | some around => simp
    | none => simp [eq_comm]

theorem cutAtLast_append_cons {sep : Char} (before : Text) {after : Text} (h : sep ∉ after) :
    cutAtLast sep (before ++ sep :: after) = some (before, after) := by
  induction before with
  | nil =>
    rw [List.nil_append, cutAtLast, cutAtLast_eq_none_iff.mpr h]
    exact if_pos rfl
  | cons c before ih =>
    rw [List.cons_append, cutAtLast, ih]

theorem cutAtLast_eq_some_iff {sep : Char} {before after : Text} :
    cutAtLast sep t = some (before, after) ↔ t = before ++ sep :: after ∧ sep ∉ after := by
  refine ⟨fun h => ?_, fun ⟨ht, hafter⟩ => ht ▸ cutAtLast_append_cons before hafter⟩
  induction t generalizing before with
  | nil => cases h
  | cons c t ih =>
    rw [cutAtLast] at h
    cases ht : cutAtLast sep t with
    | some around =>
      rw [ht] at h
      cases h
      obtain ⟨htext, hafter⟩ := ih ht
      exact ⟨by rw [htext]; rfl, hafter⟩
    | none =>
      rw [ht] at h
      obtain ⟨hc, haround⟩ := Option.ite_none_right_eq_some.mp h
      cases haround
      exact ⟨by rw [hc]; rfl, cutAtLast_eq_none_iff.mp ht⟩

/-! ## Trimming -/

theorem trimLeft_isInfix (t : Text) : t.trimLeft <:+: t := (List.dropWhile_suffix _).isInfix

theorem trimRight_isPrefix (t : Text) : t.trimRight <+: t := by
  rw [← List.reverse_suffix, trimRight, List.reverse_reverse]
  exact List.dropWhile_suffix _

theorem trim_isInfix (t : Text) : t.trim <:+: t :=
  (trimRight_isPrefix _).isInfix.trans (trimLeft_isInfix t)

theorem trimLeft_of_head {t : Text} (h : ∀ c, t.head? = some c → isBlank c = false) :
    t.trimLeft = t := by
  cases t with
  | nil => rfl
  | cons c t => rw [trimLeft, List.dropWhile_cons_of_neg (by simp [h c rfl])]

/-- A text without blanks is its own trimmed part. -/
theorem trim_of_no_blank {t : Text} (h : ∀ c ∈ t, isBlank c = false) : t.trim = t := by
  have hback : trimLeft t.reverse = t.reverse :=
    trimLeft_of_head fun c hc => h c (List.mem_reverse.mp (List.mem_of_mem_head? hc))
  calc t.trim
      = trimRight t := by rw [trim, trimLeft_of_head fun c hc => h c (List.mem_of_mem_head? hc)]
    _ = t.reverse.reverse := congrArg List.reverse hback
    _ = t := List.reverse_reverse t

theorem head_trimLeft {t : Text} {c : Char} (h : t.trimLeft.head? = some c) :
    isBlank c = false := by
  have hdrop := List.head?_dropWhile_not isBlank t
  rw [show (t.dropWhile isBlank).head? = some c from h] at hdrop
  exact hdrop

theorem trimLeft_trimRight_trimLeft (t : Text) :
    t.trimLeft.trimRight.trimLeft = t.trimLeft.trimRight := by
  refine trimLeft_of_head fun c hc => ?_
  obtain ⟨rest, hrest⟩ := trimRight_isPrefix t.trimLeft
  refine head_trimLeft (t := t) (c := c) ?_
  rw [← hrest, List.head?_append, hc]
  rfl

theorem trimRight_trimRight (t : Text) : t.trimRight.trimRight = t.trimRight := by
  have h : trimLeft (trimLeft t.reverse) = trimLeft t.reverse :=
    trimLeft_of_head fun c hc => head_trimLeft hc
  unfold trimRight
  rw [List.reverse_reverse]
  exact congrArg List.reverse h

theorem trim_trim (t : Text) : t.trim.trim = t.trim := by
  unfold trim
  rw [trimLeft_trimRight_trimLeft, trimRight_trimRight]

theorem trim_cons_blank {c : Char} (hc : isBlank c = true) (t : Text) : trim (c :: t) = t.trim := by
  unfold trim trimLeft
  rw [List.dropWhile_cons_of_pos hc]

theorem trimRight_concat_blank {c : Char} (hc : isBlank c = true) (t : Text) :
    trimRight (t ++ [c]) = t.trimRight := by
  unfold trimRight
  rw [List.reverse_append, List.reverse_singleton, List.singleton_append,
    List.dropWhile_cons_of_pos hc]

theorem trim_concat_blank {c : Char} (hc : isBlank c = true) (t : Text) :
    trim (t ++ [c]) = t.trim := by
  unfold trim trimLeft
  rw [List.dropWhile_append]
  split
  · next h =>
    rw [List.isEmpty_iff.mp h, List.dropWhile_cons_of_pos hc]
    rfl
  · exact trimRight_concat_blank hc _

end DotQuery.Text
