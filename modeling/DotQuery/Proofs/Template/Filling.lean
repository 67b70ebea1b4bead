import DotQuery.Proofs.Template.Placeholders
import DotQuery.Proofs.Text.Pieces

/-!
# Filling a template

`Filled document t out`: the text `out` is `t` with its leftmost placeholder replaced, and then
those of the text behind it. `fill` reads the template once and gives this text and no other
(`fill_eq_iff`). A part that is not cut inside a placeholder is filled on its own (`fill_append`),
and a document without fields changes nothing (`fill_of_ne_object`).
-/

namespace DotQuery.Template

variable {document : Value} {t u a before name rest out : Text} {c : Char}

/-- What a template is filled to. -/
inductive Filled (document : Value) : Text → Text → Prop where
  | copied {t : Text} (none : ∀ before name rest, ¬ Placed t before name rest) :
      Filled document t t
  | field {t before name rest out : Text} {fields : Fields Value} {v : Value}
      (first : First t before name rest) (object : document = .object fields)
      (field : fields.lookup name = some v) (behind : Filled document rest out) :
      Filled document t (before ++ v.output true ++ out)
  | verbatim {t before name rest out : Text} (first : First t before name rest)
      (missing : ∀ fields, document = .object fields → fields.lookup name = none)
      (behind : Filled document rest out) :
      Filled document t (before ++ placeholder name ++ out)

/-! ## One step -/

theorem fill_open (document : Value) (t : Text) :
    fill document ('\x7b' :: t) = fillOpen document [] t := by
  rw [fill, if_pos rfl]

theorem fill_of_ne (document : Value) (hc : c ≠ '\x7b') (t : Text) :
    fill document (c :: t) = c :: fill document t := by
  rw [fill, if_neg hc]

theorem fillOpen_append (document : Value) (read : Text) (hname : '\x7d' ∉ name) (t : Text) :
    fillOpen document read (name ++ t) = fillOpen document (name.reverse ++ read) t := by
  induction name generalizing read with
  | nil => rfl
  | cons c name ih =>
    rw [List.mem_cons, not_or] at hname
    rw [List.cons_append, fillOpen, if_neg (Ne.symm hname.1), ih _ hname.2]
    simp

theorem fill_of_no_brace (document : Value) (h : '\x7d' ∉ t) : fill document t = t := by
  induction t with
  | nil => rfl
  | cons c t ih =>
    rw [List.mem_cons, not_or] at h
    by_cases hc : c = '\x7b'
    · have hopen := fillOpen_append document [] h.2 []
      rw [List.append_nil, List.append_nil, fillOpen, List.reverse_reverse] at hopen
      rw [hc, fill_open, hopen]
    · rw [fill_of_ne document hc, ih h.2]

theorem fill_placeholder (document : Value) (h : Placed t [] name rest) :
    fill document t = fillPlaceholder document name ++ fill document rest := by
  have hne : name.reverse ++ [] ≠ [] := by simpa using h.ne_nil
  have hread := fillOpen_append document [] h.no_brace ('\x7d' :: rest)
  rw [fillOpen, if_pos rfl, if_neg hne, List.append_nil, List.reverse_reverse] at hread
  have htext : t = '\x7b' :: (name ++ '\x7d' :: rest) := by simp [h.text, placeholder]
  rw [htext, fill_open, hread]

theorem fill_cons (document : Value) (h : ∀ name rest, ¬ Placed (c :: t) [] name rest) :
    fill document (c :: t) = c :: fill document t := by
  by_cases hc : c = '\x7b'
  · subst hc
    by_cases ht : '\x7d' ∈ t
    · obtain ⟨name, rest, rfl, hname⟩ := List.eq_append_cons_of_mem ht
      by_cases hne : name = []
      · subst hne
        rw [fill_open, List.nil_append, fillOpen, if_pos rfl, if_pos rfl,
          fill_of_ne document (by decide)]
        rfl
      · exact absurd ⟨by simp [placeholder], hne, hname⟩ (h name rest)
    · rw [fill_of_no_brace document ht, fill_of_no_brace]
      exact List.not_mem_cons_of_ne_of_not_mem (by decide) ht
  · exact fill_of_ne document hc t

/-! ## The pass -/

theorem Filled.cons (h : Filled document t out)
    (hc : ∀ name rest, ¬ Placed (c :: t) [] name rest) :
    Filled document (c :: t) (c :: out) := by
  cases h with
  | copied none =>
    refine .copied fun before name rest hplaced => ?_
    cases before with
    | nil => exact hc name rest hplaced
    | cons d before => exact none before name rest (placed_cons_cons_iff.mp hplaced).2
  | field first object field behind =>
    exact .field ((first_cons_cons_iff hc).mpr first) object field behind
  | verbatim first missing behind =>
    exact .verbatim ((first_cons_cons_iff hc).mpr first) missing behind

theorem Filled.of_first (h : First t before name rest) (behind : Filled document rest out) :
    Filled document t (before ++ fillPlaceholder document name ++ out) := by
  unfold fillPlaceholder
  cases document with
  | object fields =>
    cases hfield : fields.lookup name with
    | some v =>
      simp only [Value.get?, hfield]
      exact .field h rfl hfield behind
    | none =>
      simp only [Value.get?, hfield]
      exact .verbatim h (fun _ e => by cases e; exact hfield) behind
  | _ => exact .verbatim h nofun behind

theorem filled_fill (document : Value) (t : Text) : Filled document t (fill document t) := by
  induction t using pass_induction with
  | nil => exact .copied fun _ _ _ => not_placed_nil
  | placeholder name rest hplaced ih =>
    rw [fill_placeholder document hplaced]
    exact .of_first hplaced.first_of_nil ih
  | char c t hhere ih =>
    rw [fill_cons document hhere]
    exact ih.cons hhere

theorem fill_of_first (document : Value) (h : First t before name rest) :
    fill document t = before ++ fillPlaceholder document name ++ fill document rest := by
  induction before generalizing t with
  | nil => exact fill_placeholder document h.toPlaced
  | cons c before ih =>
    obtain ⟨u, rfl⟩ : ∃ u, t = c :: u := ⟨_, h.text⟩
    have hhere : ∀ name' rest', ¬ Placed (c :: u) [] name' rest' := fun name' rest' h' =>
      absurd (h.first [] name' rest' h') (Nat.not_succ_le_zero _)
    rw [fill_cons document hhere, ih ((first_cons_cons_iff hhere).mp h)]
    rfl

theorem fill_of_filled (h : Filled document t out) : fill document t = out := by
  induction h with
  | @copied t none =>
    induction t with
    | nil => rfl
    | cons c t ih =>
      rw [fill_cons document (none []), ih]
      intro before name rest hplaced
      exact none (c :: before) name rest (placed_cons_cons_iff.mpr ⟨rfl, hplaced⟩)
  | field first object field behind ih =>
    rw [fill_of_first document first, ih, object, fillPlaceholder, Value.get?, field]
  | @verbatim t before name rest out first missing behind ih =>
    have hmissing : document.get? name = none := by
      cases document with
      | object fields => exact missing fields rfl
      | _ => rfl
    rw [fill_of_first document first, ih, fillPlaceholder, hmissing]

theorem fill_eq_iff : fill document t = out ↔ Filled document t out :=
  ⟨fun h => h ▸ filled_fill document t, fill_of_filled⟩

theorem fill_of_ne_object (h : ∀ fields, document ≠ .object fields) (t : Text) :
    fill document t = t := by
  induction t using pass_induction with
  | nil => rfl
  | placeholder name rest hplaced ih =>
    have hmissing : document.get? name = none := by
      cases document with
      | object fields => exact absurd rfl (h fields)
      | _ => rfl
    rw [fill_placeholder document hplaced, ih, fillPlaceholder, hmissing]
  | char c t hhere ih => rw [fill_cons document hhere, ih]

/-! ## Parts of a template -/

/-- Behind the last closing brace no brace is opened. -/
def Closed (a : Text) : Prop := '\x7b' ∉ a.rtakeWhile (· ≠ '\x7d')

instance : DecidablePred Closed := fun _ => inferInstanceAs (Decidable (¬ _))

theorem Closed.mem_of_open (h : Closed (u ++ '\x7b' :: a)) : '\x7d' ∈ a := by
  by_contra ha
  have hrun : ∀ c ∈ a.reverse ++ ['\x7b'], decide (c ≠ '\x7d') = true := by
    intro c hc
    rcases List.mem_append.mp hc with hc | hc
    · exact decide_eq_true fun e => ha (e ▸ List.mem_reverse.mp hc)
    · rw [List.mem_singleton.mp hc]
      decide
  have hreverse : (u ++ '\x7b' :: a).reverse = (a.reverse ++ ['\x7b']) ++ u.reverse := by simp
  refine h ?_
  rw [List.rtakeWhile, hreverse, List.takeWhile_append_of_pos hrun]
  simp

theorem Closed.of_append (h : Closed (u ++ a)) : Closed a := by
  intro hmem
  obtain ⟨v, w, hvw, -⟩ := List.eq_append_cons_of_mem hmem
  obtain ⟨x, hx⟩ := List.rtakeWhile_suffix (fun c => decide (c ≠ '\x7d')) a
  rw [hvw] at hx
  have hw : '\x7d' ∈ w := Closed.mem_of_open (u := u ++ x ++ v) (by simpa [← hx] using h)
  have hclass := List.mem_rtakeWhile_imp (hvw ▸ List.mem_append_right v (List.mem_cons_of_mem _ hw))
  simp at hclass

/-- The brace that closes the first name is the first one. -/
theorem name_unique {name' rest' : Text} (hname : '\x7d' ∉ name) (hname' : '\x7d' ∉ name')
    (h : name ++ '\x7d' :: rest = name' ++ '\x7d' :: rest') : name = name' := by
  have hpieces := congrArg (Text.splitOn '\x7d') h
  rw [Text.splitOn_append_cons hname, Text.splitOn_append_cons hname'] at hpieces
  exact (List.cons_eq_cons.mp hpieces).1

/-- The text behind a closed part completes no placeholder of it. -/
theorem not_placed_append (ha : Closed (c :: a))
    (h : ∀ name rest, ¬ Placed (c :: a) [] name rest) (b : Text) :
    ∀ name rest, ¬ Placed (c :: (a ++ b)) [] name rest := by
  intro name rest hplaced
  obtain ⟨rfl, htext⟩ := List.cons_eq_cons.mp hplaced.text
  obtain ⟨n, r, rfl, hn⟩ := List.eq_append_cons_of_mem (ha.mem_of_open (u := []))
  have hparts : n ++ '\x7d' :: (r ++ b) = name ++ '\x7d' :: rest := by simpa using htext
  have hname : n = name := name_unique hn hplaced.no_brace hparts
  subst hname
  exact h n r ⟨by simp [placeholder], hplaced.ne_nil, hn⟩

theorem fill_append (document : Value) (ha : Closed a) (b : Text) :
    fill document (a ++ b) = fill document a ++ fill document b := by
  induction a using pass_induction with
  | nil => rfl
  | placeholder name rest hplaced ih =>
    have hjoined : Placed (placeholder name ++ rest ++ b) [] name (rest ++ b) :=
      ⟨List.append_assoc .., hplaced.ne_nil, hplaced.no_brace⟩
    rw [fill_placeholder document hjoined, fill_placeholder document hplaced, ih ha.of_append,
      List.append_assoc]
  | char c a hhere ih =>
    have htail : Closed a := Closed.of_append (u := [c]) ha
    rw [List.cons_append, fill_cons document (not_placed_append ha hhere b),
      fill_cons document hhere, ih htail, List.cons_append]

/-- A template is filled in one pass from the left, in parts if it is not cut inside a placeholder,
and only from an object. -/
theorem fill_one_pass (document : Value) :
    (∀ t w, w ∈ placeholderPattern.ways t ↔
        ∃ name rest, Placed t [] name rest ∧ w = ⟨[name], placeholder name, rest⟩) ∧
      (∀ t out, fill document t = out ↔ Filled document t out) ∧
      (∀ a b, Closed a → fill document (a ++ b) = fill document a ++ fill document b) ∧
      ((∀ fields, document ≠ .object fields) → ∀ t, fill document t = t) :=
  ⟨fun _ _ => mem_ways_placeholderPattern_iff, fun _ _ => fill_eq_iff,
    fun _ b ha => fill_append document ha b, fill_of_ne_object⟩

/-- A name with a brace, one brace without a name, and a value that looks like a placeholder. -/
theorem fill_one_pass_inner_braces :
    let document : Value :=
      .object [("a".toList, .string "\x7bb\x7d".toList), ("\x7ba".toList, .null)]
    Closed "\x7b\x7dx\x7d\x7ba\x7d".toList ∧
      fill document ("\x7b\x7dx\x7d\x7ba\x7d".toList ++ "\x7b\x7ba\x7d\x7d".toList) =
        "\x7b\x7dx\x7d\x7bb\x7d".toList ++ "null\x7d".toList := by
  intro document
  have hclosed : Closed "\x7b\x7dx\x7d\x7ba\x7d".toList := by decide
  exact ⟨hclosed, ((fill_one_pass document).2.2.1 _ _ hclosed).trans rfl⟩

end DotQuery.Template
