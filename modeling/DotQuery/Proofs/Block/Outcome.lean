import DotQuery.Proofs.Block.Reading
import DotQuery.Proofs.Text.Lines
import DotQuery.Proofs.Text.Numerals

/-!
# What a block is

What a text is parsed to depends on what its lines say and on nothing else (`Outcome`): the first
ill-formed line decides before all others, then the first number. So lines of different sorts may be
mixed in any way (`Interleaved.parse_eq`).
-/

namespace DotQuery.Block

variable {source t : Text} {ls ms : List Text} {n : Nat} {r : Except BlockError Block}

/-! ## Numbers -/

/-- Digits that denote a number of 64 bits. -/
structure IsId (t : Text) : Prop where
  ne_nil : t ≠ []
  digits : ∀ c ∈ t, isDigit c = true
  lt : t.natural < Text.wordLimit

theorem natural?_eq_some_iff : Text.natural? t = some n ↔ IsId t ∧ n = t.natural := by
  unfold Text.natural?
  rw [Option.ite_none_right_eq_some, Bool.and_eq_true, Text.allDigits_iff, decide_eq_true_iff]
  constructor
  · rintro ⟨⟨⟨hne, hall⟩, hlt⟩, hn⟩
    exact ⟨⟨hne, hall, hlt⟩, (Option.some.inj hn).symm⟩
  · rintro ⟨⟨hne, hall, hlt⟩, rfl⟩
    exact ⟨⟨⟨hne, hall⟩, hlt⟩, rfl⟩

theorem number_eq_iff : number t = ⟨some n, []⟩ ↔ IsId t ∧ n = t.natural := by
  constructor
  · intro h
    unfold number at h
    split at h
    · next m hm =>
      obtain ⟨hvalue, hrest⟩ := Lexed.mk.inj h
      cases hvalue
      have hall : ∀ c ∈ t, isDigit c = true := List.dropWhile_eq_nil_iff.mp hrest
      rwa [List.takeWhile_eq_self_iff.mpr hall, natural?_eq_some_iff] at hm
    · cases h
  · rintro ⟨hid, rfl⟩
    rw [number, List.takeWhile_eq_self_iff.mpr hid.digits, natural?_eq_some_iff.mpr ⟨hid, rfl⟩,
      List.dropWhile_eq_nil_iff.mpr hid.digits]

/-! ## Outcomes -/

/-- What a text with the lines `ls` is parsed to. -/
inductive Outcome (ls : List Text) : Except BlockError Block → Prop where
  | badDirective {before after : List Text} {l : Text} {e : SyntaxError}
      (split : ls = before ++ l :: after) (good : ∀ k ∈ before, WellFormed k)
      (bad : ¬ WellFormed l) (error : Directive.parse l.trim = .error e) :
      Outcome ls (.error (.badDirective e))
  | missingId (good : ∀ l ∈ ls, WellFormed l) (noIds : texts Directive.id? ls = []) :
      Outcome ls (.error .missingId)
  | invalidId {t : Text} (good : ∀ l ∈ ls, WellFormed l)
      (first : (texts Directive.id? ls).head? = some t) (invalid : ¬ IsId t) :
      Outcome ls (.error (.invalidId t))
  | block {t : Text} (good : ∀ l ∈ ls, WellFormed l)
      (first : (texts Directive.id? ls).head? = some t) (valid : IsId t) :
      Outcome ls (.ok
        { id := t.natural
          description := (texts Directive.description? ls).find? (· ≠ [])
          showHeader := !hidesHeader ls
          file := (texts Directive.file? ls).head?.filter (· ≠ [])
          body := Text.joinWith ['\n'] (bodyLines ls) })

namespace Draft

variable {d : Draft}

theorem finish_of_id_eq_none (h : d.id = none) : d.finish = .error .missingId := by
  simp only [finish, h]

theorem finish_of_isId (h : d.id = some t) (ht : IsId t) :
    d.finish = .ok
      { id := t.natural
        description := d.description
        showHeader := d.showHeader
        file := d.file.filter (· ≠ [])
        body := Text.joinWith ['\n'] d.body.reverse } := by
  simp only [finish, h, number_eq_iff.mpr ⟨ht, rfl⟩]

theorem finish_of_not_isId (h : d.id = some t) (ht : ¬ IsId t) :
    d.finish = .error (.invalidId t) := by
  simp only [finish, h]
  split
  · next n hn => exact absurd (number_eq_iff.mp hn).1 ht
  · rfl

end Draft

theorem parse_of_wellFormed (h : ∀ l ∈ source.lines, WellFormed l) :
    parse source = (Draft.empty.after source.lines).finish := by
  rw [parse, Draft.readLines_of_wellFormed h]

theorem parse_of_ill_formed {before after : List Text} {l : Text}
    (split : source.lines = before ++ l :: after) (good : ∀ k ∈ before, WellFormed k)
    (bad : ¬ WellFormed l) :
    ∃ e, Directive.parse l.trim = .error e ∧ parse source = .error (.badDirective e) := by
  obtain ⟨e, herror, hread⟩ := Draft.readLines_of_ill_formed good bad Draft.empty after
  refine ⟨e, herror, ?_⟩
  rw [parse, split, hread]

theorem parse_of_outcome (h : Outcome source.lines r) : parse source = r := by
  cases h with
  | badDirective split good bad error =>
    obtain ⟨e, herror, hparse⟩ := parse_of_ill_formed split good bad
    cases error.symm.trans herror
    exact hparse
  | missingId good noIds =>
    rw [parse_of_wellFormed good, Draft.finish_of_id_eq_none (congrArg List.head? noIds)]
  | invalidId good first invalid =>
    rw [parse_of_wellFormed good, Draft.finish_of_not_isId first invalid]
  | block good first valid =>
    rw [parse_of_wellFormed good, Draft.finish_of_isId first valid]
    simp [Draft.after, Draft.empty]

theorem exists_outcome (ls : List Text) : ∃ r, Outcome ls r := by
  -- Either a line is the first that is ill-formed, or none is.
  cases hbad : ls.find? fun l => !decide (WellFormed l) with
  | some l =>
    obtain ⟨hl, before, after, split, hbefore⟩ := List.find?_eq_some_iff_append.mp hbad
    have bad : ¬ WellFormed l := by simpa using hl
    obtain ⟨e, herror, -⟩ := Draft.readLine_of_ill_formed bad Draft.empty
    exact ⟨_, .badDirective split (fun k hk => by simpa using hbefore k hk) bad herror⟩
  | none =>
    have good : ∀ l ∈ ls, WellFormed l := by simpa using List.find?_eq_none.mp hbad
    cases first : (texts Directive.id? ls).head? with
    | none => exact ⟨_, .missingId good (List.head?_eq_none_iff.mp first)⟩
    | some t =>
      by_cases valid : IsId t
      · exact ⟨_, .block good first valid⟩
      · exact ⟨_, .invalidId good first valid⟩

theorem parse_eq_iff : parse source = r ↔ Outcome source.lines r := by
  refine ⟨fun h => ?_, parse_of_outcome⟩
  obtain ⟨r', hr'⟩ := exists_outcome source.lines
  rwa [← h, parse_of_outcome hr']

/-! ## Interleavings -/

/-- The lines that are directives of one sort, given by its text. -/
def linesOf (select : Directive → Option Text) (ls : List Text) : List Text :=
  ls.filter fun l => ((directive? l).bind select).isSome

/-- The same lines, and those of each sort in the same order. Lines that hide the header may stand
anywhere. -/
structure Interleaved (ls ms : List Text) : Prop where
  perm : ls.Perm ms
  ids : linesOf Directive.id? ls = linesOf Directive.id? ms
  descriptions : linesOf Directive.description? ls = linesOf Directive.description? ms
  files : linesOf Directive.file? ls = linesOf Directive.file? ms
  body : bodyLines ls = bodyLines ms

theorem texts_linesOf (select : Directive → Option Text) (ls : List Text) :
    texts select (linesOf select ls) = texts select ls := by
  rw [texts, linesOf, List.filterMap_filter]
  refine List.filterMap_congr fun l _ => ?_
  cases (directive? l).bind select <;> rfl

theorem texts_of_linesOf_eq {select : Directive → Option Text}
    (h : linesOf select ls = linesOf select ms) : texts select ls = texts select ms := by
  rw [← texts_linesOf, h, texts_linesOf]

theorem hidesHeader_of_perm (h : ls.Perm ms) : hidesHeader ls = hidesHeader ms := h.any_eq

namespace Interleaved

theorem after_eq (h : Interleaved ls ms) (d : Draft) : d.after ls = d.after ms := by
  rw [Draft.after, texts_of_linesOf_eq h.ids, texts_of_linesOf_eq h.descriptions,
    texts_of_linesOf_eq h.files, h.body, hidesHeader_of_perm h.perm, Draft.after]

theorem parse_eq {source' : Text} (h : Interleaved source.lines source'.lines)
    (good : ∀ l ∈ source.lines, WellFormed l) : parse source' = parse source := by
  have good' : ∀ l ∈ source'.lines, WellFormed l := fun l hl => good l (h.perm.mem_iff.mpr hl)
  rw [parse_of_wellFormed good, parse_of_wellFormed good', h.after_eq]

end Interleaved

/-! ## Parsing -/

/-- The outcome of a block, and that it does not depend on how the sorts of lines are mixed. -/
theorem parse_exact (source : Text) :
    (∀ ls, source.lines = ls ↔ Text.InLines ls source) ∧
    (∀ l x, directive? l = some x ↔ Says l x) ∧
    (∀ r, parse source = r ↔ Outcome source.lines r) ∧
    ∀ source' : Text, (∀ l ∈ source.lines, WellFormed l) →
      Interleaved source.lines source'.lines → parse source' = parse source :=
  ⟨fun _ => Text.inLines_iff.symm, fun _ _ => directive?_eq_some_iff, fun _ => parse_eq_iff,
    fun _ good h => h.parse_eq good⟩

/-- An empty file hides the next one, a number that is no number is not reached, and CRLF counts. -/
theorem parse_exact_mixed_lines :
    let source := " #qj-file:\r\n[\n#qj-id: 07\n#qj-id-ds\n#qj-file: a\n]\n#qj-id: x".toList
    let mixed := "[\n#qj-id: 07\n]\n#qj-id: x\n #qj-file:\n#qj-file: a\r\n#qj-id-ds\n".toList
    parse mixed = parse source ∧ parse source = .ok ⟨7, none, false, none, "[\n]".toList⟩ := by
  refine ⟨(parse_exact _).2.2.2 _ ?good ?interleaved, by rfl⟩
  case good => decide
  case interleaved =>
    exact
      { perm := by decide
        ids := by decide
        descriptions := by decide
        files := by decide
        body := by decide }

end DotQuery.Block
