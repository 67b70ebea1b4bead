import DotQuery.Proofs.Block.DirectiveForm

/-!
# The order of the forms

The labels of the forms differ before the shorter one ends, so no text is read by two forms
(`pairwise_exclusive_forms`). Of forms that exclude each other the first one that matches is the
only one, whatever their order (`firstForm_of_perm`). What depends on the order is the column of the
error for a text that has none of the forms, since only the last form says where it stopped.
-/

namespace DotQuery.Block.Directive

variable {t r line : Text} {d : Directive} {f g : Text → Lexed Directive}
  {fs gs : List (Text → Lexed Directive)}

/-! ## Reading in any order -/

/-- What reading made of a line, all of which must be used. -/
def conclude (line : Text) : Lexed Directive → Except SyntaxError Directive
  | ⟨some d, []⟩ => .ok d
  | ⟨some _, r⟩ => .error ⟨line, line.byteLength - Text.byteLength r, []⟩
  | ⟨none, r⟩ =>
    .error ⟨line, line.byteLength - Text.byteLength r,
      "expected directive (id, id-desc, id-ds, file)".toList⟩

/-- Read a line that starts with the marker by the forms in the given order. -/
def parseInOrder (fs : List (Text → Lexed Directive)) (line : Text) :
    Except SyntaxError Directive :=
  conclude line (firstForm (line.drop marker.length) fs)

theorem parse_eq_parseInOrder (line : Text) : parse line = parseInOrder forms line := by
  unfold parse parseInOrder
  rcases firstForm (line.drop marker.length) forms with ⟨_ | d, _ | ⟨c, r⟩⟩ <;> rfl

/-! ## Forms that exclude each other -/

/-- No text is read by both forms. -/
def Exclusive (f g : Text → Lexed Directive) : Prop := ∀ t, (f t).value = none ∨ (g t).value = none

theorem Exclusive.symm (h : Exclusive f g) : Exclusive g f := fun t => (h t).symm

/-- A form reads only texts that begin with its label. -/
def Needs (f : Text → Lexed Directive) (label : Text) : Prop :=
  ∀ t d, (f t).value = some d → label <+: t

theorem needs_labelledValue (label : Text) (h : Text → Directive) :
    Needs (fun t => (labelledValue label t).map h) (label ++ [':']) := by
  intro t d hread
  obtain ⟨v, hv, -⟩ := Option.map_eq_some_iff.mp hread
  obtain ⟨r, rfl⟩ := label_of_labelledValue hv
  exact ⟨r, by simp⟩

theorem exclusive_of_needs {a b : Text} (hf : Needs f a) (hg : Needs g b) (hab : ¬ a <+: b)
    (hba : ¬ b <+: a) : Exclusive f g := by
  intro t
  cases hft : (f t).value with
  | none => exact .inl rfl
  | some d =>
    refine .inr (Option.eq_none_iff_forall_ne_some.mpr fun e hgt => ?_)
    rcases List.prefix_or_prefix_of_prefix (hf t d hft) (hg t e hgt) with h | h
    · exact hab h
    · exact hba h

/-- The forms with their labels. -/
def labelledForms : List ((Text → Lexed Directive) × Text) :=
  forms.zip ["id-desc:".toList, "id-ds".toList, "id:".toList, "file:".toList]

theorem needs_label : ∀ p ∈ labelledForms, Needs p.1 p.2 := by
  intro p hp
  simp only [labelledForms, forms, List.zip_cons_cons, List.zip_nil_right, List.mem_cons,
    List.not_mem_nil, or_false] at hp
  rcases hp with rfl | rfl | rfl | rfl
  · exact needs_labelledValue "id-desc".toList description
  · intro t d h
    rcases hword : keyword "id-ds".toList t with ⟨_ | _, r⟩
    · simp only [hword] at h
      cases h
    · exact ⟨r, (keyword_eq_iff.mp hword).1.symm⟩
  · exact needs_labelledValue "id".toList id
  · exact needs_labelledValue "file".toList file

theorem pairwise_exclusive_forms : forms.Pairwise Exclusive := by
  have hlabels : labelledForms.Pairwise fun p q => ¬ p.2 <+: q.2 ∧ ¬ q.2 <+: p.2 := by
    simp only [labelledForms, forms]
    decide
  have hforms : labelledForms.map Prod.fst = forms := rfl
  rw [← hforms, List.pairwise_map]
  exact hlabels.imp_of_mem fun hp hq hpq =>
    exclusive_of_needs (needs_label _ hp) (needs_label _ hq) hpq.1 hpq.2

theorem firstForm_of_mem (hfs : fs.Pairwise Exclusive) (hf : f ∈ fs) (h : f t = ⟨some d, r⟩) :
    firstForm t fs = ⟨some d, r⟩ := by
  induction fs with
  | nil => cases hf
  | cons g fs ih =>
    obtain ⟨hg, hfs⟩ := List.pairwise_cons.mp hfs
    rcases List.mem_cons.mp hf with rfl | hf
    · exact firstForm_cons_of_some h
    · have hother : (g t).value = none := by
        rcases hg f hf t with hnone | hnone
        · exact hnone
        · rw [h] at hnone
          cases hnone
      rw [firstForm_cons_of_none hother (List.ne_nil_of_mem hf)]
      exact ih hfs hf

theorem firstForm_of_perm (hfs : fs.Pairwise Exclusive) (hperm : fs.Perm gs)
    (h : firstForm t gs = ⟨some d, r⟩) : firstForm t fs = ⟨some d, r⟩ := by
  obtain ⟨f, hf, hread⟩ := exists_of_firstForm h
  exact firstForm_of_mem hfs (hperm.mem_iff.mpr hf) hread

/-! ## The grammar -/

theorem conclude_of_none {x : Lexed Directive} (h : x.value = none) (line : Text) :
    ∃ column, conclude line x =
      .error ⟨line, column, "expected directive (id, id-desc, id-ds, file)".toList⟩ := by
  rcases x with ⟨_ | d, r⟩
  · exact ⟨_, rfl⟩
  · cases h

/-- Another order changes at most the column of an error. -/
theorem parseInOrder_of_perm (hperm : fs.Perm forms) (line : Text) :
    parseInOrder fs line = parse line ∨
      ∃ e column, parse line = .error e ∧ parseInOrder fs line = .error { e with column } := by
  have hfs : fs.Pairwise Exclusive :=
    hperm.symm.pairwise pairwise_exclusive_forms fun h => h.symm
  rw [parse_eq_parseInOrder]
  unfold parseInOrder
  generalize line.drop marker.length = t
  rcases hforms : firstForm t forms with ⟨_ | d, r⟩
  · rcases hread : firstForm t fs with ⟨_ | d, r'⟩
    · obtain ⟨column, h⟩ := conclude_of_none (x := ⟨none, r⟩) rfl line
      obtain ⟨column', h'⟩ := conclude_of_none (x := ⟨none, r'⟩) rfl line
      exact .inr ⟨_, column', h, h'⟩
    · have hsame := firstForm_of_perm pairwise_exclusive_forms hperm.symm hread
      rw [hforms] at hsame
      cases hsame
  · rw [firstForm_of_perm hfs hperm hforms]
    exact .inl rfl

theorem parseInOrder_eq_ok_iff (hperm : fs.Perm forms) :
    parseInOrder fs line = .ok d ↔ parse line = .ok d := by
  rcases parseInOrder_of_perm hperm line with h | ⟨e, column, h, h'⟩
  · rw [h]
  · rw [h, h']
    simp

theorem form_unique {d e : Directive} (hd : Form t d) (he : Form t e) : d = e :=
  Except.ok.inj ((parse_eq_ok_iff.mpr hd).symm.trans (parse_eq_ok_iff.mpr he))

/-- A line is read exactly if the text behind the marker has one of the forms, and no text has two.
Of two readers at most one takes a text, so in any order they read the same; the order shows in the
column of an error only. -/
theorem parse_grammar (t : Text) :
    (∀ d, parse (marker ++ t) = .ok d ↔ Form t d) ∧
      (∀ d e, Form t d → Form t e → d = e) ∧
      (∀ f g, [f, g].Sublist forms → (f t).value = none ∨ (g t).value = none) ∧
      ∀ fs, fs.Perm forms →
        (∀ d, parseInOrder fs (marker ++ t) = .ok d ↔ Form t d) ∧
          ∀ e, parse (marker ++ t) = .error e →
            ∃ column, parseInOrder fs (marker ++ t) = .error { e with column } := by
  refine ⟨fun _ => parse_eq_ok_iff, fun _ _ => form_unique, fun f g hfg => ?_, fun fs hperm => ?_⟩
  · have hpair : [f, g].Pairwise Exclusive := pairwise_exclusive_forms.sublist hfg
    exact List.pairwise_pair.mp hpair t
  · refine ⟨fun d => (parseInOrder_eq_ok_iff hperm).trans parse_eq_ok_iff, fun e he => ?_⟩
    rcases parseInOrder_of_perm hperm (marker ++ t) with h | ⟨e', column, h, h'⟩
    · exact ⟨e.column, h.trans he⟩
    · cases h.symm.trans he
      exact ⟨column, h'⟩

/-- A description that looks like a number is read in the reverse order as well. -/
theorem parse_grammar_reversed :
    let t := "id-desc:\u00a0id: 7".toList
    forms.reverse.Perm forms ∧ Form t (.description "id: 7".toList) ∧
      parseInOrder forms.reverse (marker ++ t) = .ok (.description "id: 7".toList) := by
  have hperm : forms.reverse.Perm forms := List.reverse_perm forms
  have hgrammar := parse_grammar "id-desc:\u00a0id: 7".toList
  have hform : Form "id-desc:\u00a0id: 7".toList (.description "id: 7".toList) :=
    (hgrammar.1 _).mp (by decide)
  exact ⟨hperm, hform, ((hgrammar.2.2.2 _ hperm).1 _).mpr hform⟩

end DotQuery.Block.Directive
