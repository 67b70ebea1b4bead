import DotQuery.Proofs.Predicate.LeftFold
import DotQuery.Proofs.Predicate.Reading
import DotQuery.Proofs.Query.Separators
import DotQuery.Proofs.Query.Uses
import DotQuery.Proofs.Text.Quotes
import DotQuery.Report

/-!
# What an explanation says

An explanation has a title and for each segment a heading, and under that of a filter the details of
its predicate: one line for each condition, or the error that every run reports which reaches the
filter (`Query.Explained`). A line of details never has a line feed in it, since a predicate has
none; a title or a heading has one only if the text of the query has.
-/

namespace DotQuery

/-! ## Lines -/

namespace Explain

variable {p : Palette}

/-- What stands in front of the conditions of a predicate. -/
def labels (chain : Chain) : List Text :=
  "where".toList :: chain.connectives.map fun k => Text.padLeft 5 k.token

def conditionText (p : Palette) (label : Text) (c : Condition) : Text :=
  indent ++ p.dim ++ label ++ p.reset ++ ' ' :: c.description

def errorText (p : Palette) (e : InvalidCondition) : Text :=
  indent ++ p.red ++ "error:".toList ++ p.reset ++ ' ' :: e.message

/-- The lines under the heading of a segment, without their ends. -/
def details (p : Palette) : Segment → List Text
  | .filter _ pred =>
    match Chain.parse pred.source with
    | .ok chain => List.zipWith (conditionText p) (labels chain) chain.conditions
    | .error e => [errorText p e]
  | _ => []

def heading (p : Palette) (position : Nat) (s : Segment) : Text :=
  "  ".toList ++ p.dim ++ Text.ofNat position ++ p.reset ++ ' ' :: p.cyan ++
    Text.padRight 11 s.kind ++ p.reset ++ ' ' :: summary s

def title (p : Palette) (source : Text) : Text :=
  p.bold ++ "Query:".toList ++ p.reset ++ ' ' :: p.green ++ source ++ p.reset

/-- The lines of an explanation, without their ends. -/
def lines (p : Palette) (q : Query) : List Text :=
  title p q.source :: q.segments.zipIdx.flatMap fun (s, i) => heading p i s :: details p s

/-- The number of lines under the heading of a segment. -/
def detailCount : Segment → Nat
  | .filter _ pred =>
    match Chain.parse pred.source with
    | .ok chain => chain.length
    | .error _ => 1
  | _ => 0

/-- The number of lines about some segments: a heading for each, and what is under it. -/
def lineCount : List Segment → Nat
  | [] => 0
  | s :: ss => 1 + detailCount s + lineCount ss

theorem chainLines_eq (chain : Chain) : chainLines p chain =
    (List.zipWith (conditionText p) (labels chain) chain.conditions).flatMap (· ++ ['\n']) := by
  unfold chainLines labels Chain.connectives Chain.conditions
  rw [List.map_map, List.zipWith_cons_cons, List.zipWith_map, List.zipWith_self, List.flatMap_cons,
    List.flatMap_map]
  rfl

theorem segmentLines_eq {s : Segment} (h : s.Faithful) (n : Nat) :
    segmentLines p n s = (heading p n s :: details p s).flatMap (· ++ ['\n']) := by
  rw [List.flatMap_cons]
  cases s with
  | filter name pred =>
    simp only [segmentLines, predicateLines, details]
    rw [Predicate.Faithful.chain_eq h]
    cases Chain.parse pred.source with
    | ok chain => exact congrArg _ (chainLines_eq chain)
    | error e => exact congrArg _ (List.flatMap_singleton ..).symm
  | _ => rfl

theorem linesFrom_eq {ss : List Segment} (h : ∀ s ∈ ss, s.Faithful) (n : Nat) :
    linesFrom p n ss = ((ss.zipIdx n).flatMap fun (s, i) => heading p i s :: details p s).flatMap
      (· ++ ['\n']) := by
  induction ss generalizing n with
  | nil => rfl
  | cons s ss ih =>
    rw [List.forall_mem_cons] at h
    rw [linesFrom, segmentLines_eq h.1, ih h.2, ← List.flatMap_append]
    rfl

theorem length_zipWith_labels (f : Text → Condition → Text) (chain : Chain) :
    (List.zipWith f (labels chain) chain.conditions).length = chain.length := by
  rw [List.length_zipWith, chain.length_conditions, labels, List.length_cons, List.length_map,
    chain.length_connectives, Nat.min_self]

theorem length_details (s : Segment) : (details p s).length = detailCount s := by
  cases s with
  | filter name pred =>
    unfold details detailCount
    dsimp only
    cases Chain.parse pred.source with
    | ok chain => exact length_zipWith_labels _ chain
    | error e => rfl
  | _ => rfl

theorem length_lines (q : Query) : (lines p q).length = 1 + lineCount q.segments := by
  have hlength (n : Nat) (ss : List Segment) :
      ((ss.zipIdx n).flatMap fun (s, i) => heading p i s :: details p s).length = lineCount ss := by
    induction ss generalizing n with
    | nil => rfl
    | cons s ss ih =>
      rw [List.zipIdx_cons, List.flatMap_cons, List.length_append, ih, List.length_cons,
        length_details, lineCount, Nat.add_comm 1]
  rw [lines, List.length_cons, hlength, Nat.add_comm]

end Explain

/-! ## Line feeds -/

/-- No mark has a line feed. -/
def Palette.OneLine (p : Palette) : Prop :=
  ∀ mark ∈ [p.bold, p.green, p.cyan, p.dim, p.red, p.reset], '\n' ∉ mark

theorem Palette.oneLine_ite (color : Bool) : (if color then colored else plain).OneLine := by
  unfold OneLine
  cases color <;> decide

namespace Explain

variable {p : Palette} {s : Segment} {t : Text}

theorem lineFeed_not_mem_summary (h : s.uncached.ReadFrom t) (ht : '\n' ∉ t) :
    '\n' ∉ summary s := by
  unfold summary
  cases s with
  | field name => exact Text.lineFeed_not_mem_quoted name
  | index place => exact Text.lineFeed_not_mem_ofNat place
  | projection names =>
    obtain ⟨-, -, -, inner, hform, hnames⟩ := h
    have hname : ∀ name ∈ names, '\n' ∉ name := by
      intro name hname hfeed
      obtain ⟨piece, hpiece, rfl⟩ := List.mem_map.mp ((hnames.mem_iff name).mp hname)
      refine ht ?_
      rw [hform.text]
      have hinner := Text.mem_of_mem_splitOn hpiece ((Text.trim_isInfix piece).subset hfeed)
      exact List.mem_append_left _ (List.mem_cons_of_mem _ hinner)
    have hjoined := Text.not_mem_joinWith (by decide : '\n' ∉ [',', ' ']) hname
    simp [hjoined]
  | filter name pred =>
    have hsource : '\n' ∉ pred.source := h.2.1
    cases name <;> simp [hsource, Text.lineFeed_not_mem_quoted]

theorem lineFeed_not_mem_kind (s : Segment) : '\n' ∉ Text.padRight 11 s.kind := by
  have hkind : '\n' ∉ s.kind := by cases s <;> exact of_decide_eq_true rfl
  simp [Text.padRight, hkind]

theorem lineFeed_not_mem_heading (hp : p.OneLine) (h : s.uncached.ReadFrom t) (ht : '\n' ∉ t)
    (position : Nat) : '\n' ∉ heading p position s := by
  have hsummary := lineFeed_not_mem_summary h ht
  simp only [Palette.OneLine, List.forall_mem_cons] at hp
  unfold heading
  simp [hp, Text.lineFeed_not_mem_ofNat, lineFeed_not_mem_kind, hsummary]

theorem lineFeed_not_mem_title (hp : p.OneLine) (ht : '\n' ∉ t) : '\n' ∉ title p t := by
  simp only [Palette.OneLine, List.forall_mem_cons] at hp
  simp [title, hp, ht]

theorem lineFeed_not_mem_description {c : Condition} (hkey : '\n' ∉ c.key)
    (hvalue : '\n' ∉ c.value) : '\n' ∉ c.description := by
  have htoken : '\n' ∉ c.operator.token := by cases c.operator <;> decide
  unfold Condition.description Condition.text
  split <;> simp [hkey, hvalue, htoken]

theorem lineFeed_not_mem_conditionText (hp : p.OneLine) {label : Text} (hlabel : '\n' ∉ label)
    {c : Condition} (hkey : '\n' ∉ c.key) (hvalue : '\n' ∉ c.value) :
    '\n' ∉ conditionText p label c := by
  simp only [Palette.OneLine, List.forall_mem_cons] at hp
  simp [conditionText, indent, hp, hlabel, lineFeed_not_mem_description hkey hvalue]

theorem lineFeed_not_mem_errorText (hp : p.OneLine) {e : InvalidCondition}
    (he : '\n' ∉ e.condition) : '\n' ∉ errorText p e := by
  have hmessage : '\n' ∉ e.message := by
    unfold InvalidCondition.message
    simp [he]
  simp only [Palette.OneLine, List.forall_mem_cons] at hp
  simp [errorText, indent, hp, hmessage]

theorem lineFeed_not_mem_labels (chain : Chain) : ∀ label ∈ labels chain, '\n' ∉ label := by
  rw [labels, List.forall_mem_cons, List.forall_mem_map]
  exact ⟨by decide, fun k _ => by cases k <;> decide⟩

theorem lineFeed_not_mem_details (hp : p.OneLine) (h : s.uncached.ReadFrom t) :
    ∀ l ∈ details p s, '\n' ∉ l := by
  cases s with
  | filter name pred =>
    have hsource : '\n' ∉ pred.source := h.2.1
    unfold details
    dsimp only
    cases hparse : Chain.parse pred.source with
    | ok chain =>
      dsimp only
      rw [← List.map_uncurry_zip_eq_zipWith, List.forall_mem_map]
      intro ⟨label, c⟩ hmem
      obtain ⟨hlabel, hc⟩ := List.of_mem_zip hmem
      obtain ⟨hkey, hvalue⟩ := Chain.subset_of_parse hparse c hc
      exact lineFeed_not_mem_conditionText hp (lineFeed_not_mem_labels chain label hlabel)
        (fun h => hsource (hkey h)) fun h => hsource (hvalue h)
    | error e =>
      have he := Chain.subset_of_parse_error hparse
      exact List.forall_mem_singleton.mpr
        (lineFeed_not_mem_errorText hp fun h => hsource (he h))
  | _ => nofun

end Explain

/-! ## Explanations and runs -/

namespace Query

open Explain

variable {q : Query} {p : Palette} {i : Nat} {e : InvalidCondition}

/-- An explanation of a query, against all runs of it, whatever was done with it before. -/
structure Explained (q : Query) (p : Palette) : Prop where
  succeeds : (q.explain p).report.failure = none
  text : (q.explain p).text = (lines p q).flatMap (· ++ ['\n'])
  /-- One line for each condition of a predicate that parses. -/
  conditions : ∀ i name pred chain, q.segments[i]? = some (.filter name pred) →
    Chain.parse pred.source = .ok chain →
    details p (.filter name pred) =
        List.zipWith (conditionText p) (labels chain) chain.conditions ∧
      (details p (.filter name pred)).length = chain.length ∧
      ∀ uses d e, ((q.after uses).execute d).result ≠ .error (.badPredicate i e)
  /-- One line for the error of any other predicate, on which all runs fail that reach it. -/
  error : ∀ i name pred e, q.segments[i]? = some (.filter name pred) →
    Chain.parse pred.source = .error e →
    details p (.filter name pred) = [errorText p e] ∧
      ∀ uses d w, q.Reaches d i w →
        ((q.after uses).execute d).result = .error (.badPredicate i e)
  oneLine : ∀ s ∈ q.segments, ∀ l ∈ details p s, '\n' ∉ l
  count : '\n' ∉ q.source →
    (q.explain p).text.count '\n' = 1 + lineCount q.segments

theorem Faithful.badPredicate_iff (hq : q.Faithful) {d : Value} :
    (q.execute d).result = .error (.badPredicate i e) ↔ (∃ w, q.Reaches d i w) ∧
      ∃ name pred, q.segments[i]? = some (.filter name pred) ∧
        Chain.parse pred.source = .error e := by
  rw [hq.result_eq_error_iff]
  constructor
  · rintro ⟨s, w, hs, hw, hfails⟩
    cases hfails with
    | badPredicate hparse => exact ⟨⟨w, hw⟩, _, _, hs, hparse⟩
  · rintro ⟨⟨w, hw⟩, name, pred, hs, hparse⟩
    exact ⟨_, w, hs, hw, .badPredicate hparse⟩

theorem Faithful.badPredicate_after_iff (hq : q.Faithful) (uses : List Use) {d : Value}
    {name : Option Text} {pred : Predicate} (hs : q.segments[i]? = some (.filter name pred)) :
    ((q.after uses).execute d).result = .error (.badPredicate i e) ↔
      (∃ w, q.Reaches d i w) ∧ Chain.parse pred.source = .error e := by
  have hgrows := q.grows_after uses
  obtain ⟨pred', hs', hsource, -⟩ := parsed_after_iff hq hs uses
  rw [(hgrows.faithful hq).badPredicate_iff]
  refine and_congr (exists_congr fun w => hgrows.reaches_iff hq) ?_
  rw [← hsource]
  constructor
  · rintro ⟨name', pred'', hs'', hparse⟩
    cases hs'.symm.trans hs''
    exact hparse
  · exact fun hparse => ⟨name, pred', hs', hparse⟩

theorem Faithful.lineFeed_not_mem_lines (hq : q.Faithful) (hp : p.OneLine)
    (hsource : '\n' ∉ q.source) : ∀ l ∈ lines p q, '\n' ∉ l := by
  rw [lines, List.forall_mem_cons]
  refine ⟨lineFeed_not_mem_title hp hsource, fun l hl => ?_⟩
  obtain ⟨⟨s, i⟩, hmem, hl⟩ := List.mem_flatMap.mp hl
  obtain ⟨piece, hpiece, hread⟩ := hq.exists_piece (List.fst_mem_of_mem_zipIdx hmem)
  have hfeed : '\n' ∉ piece := fun h => hsource (subset_of_mem_pieces hpiece h)
  rcases List.mem_cons.mp hl with rfl | hl
  · exact lineFeed_not_mem_heading hp hread hfeed i
  · exact lineFeed_not_mem_details hp hread l hl

theorem Faithful.explain_eq_lines (hq : q.Faithful) (p : Palette) :
    (q.explain p).text = (lines p q).flatMap (· ++ ['\n']) :=
  congrArg (sourceLine p q.source ++ ·) (linesFrom_eq hq.segments 0)

theorem explain_tells_runs (hq : q.Faithful) (color : Bool) :
    q.Explained (if color then .colored else .plain) where
  succeeds := rfl
  text := hq.explain_eq_lines _
  conditions i name pred chain hs hparse := by
    have hdetails : ∀ p, details p (.filter name pred) =
        List.zipWith (conditionText p) (labels chain) chain.conditions := fun p => by
      simp only [details, hparse]
    rw [hdetails]
    refine ⟨rfl, length_zipWith_labels _ chain, fun uses d e h => ?_⟩
    rw [hq.badPredicate_after_iff uses hs, hparse] at h
    cases h.2
  error i name pred e hs hparse := by
    refine ⟨?_, fun uses d w hw => (hq.badPredicate_after_iff uses hs).mpr ⟨⟨w, hw⟩, hparse⟩⟩
    simp only [details, hparse]
  oneLine s hs := by
    obtain ⟨piece, -, hread⟩ := hq.exists_piece hs
    exact lineFeed_not_mem_details (Palette.oneLine_ite color) hread
  count hsource := by
    have hlines := hq.lineFeed_not_mem_lines (Palette.oneLine_ite color) hsource
    rw [hq.explain_eq_lines, Text.count_flatMap_concat hlines, length_lines]

/-- The first predicate has been asked for, the second does not parse: a title, two headings, two
conditions and an error, which is that of the run. -/
theorem explain_tells_runs_good_and_bad :
    let q : Query := ⟨"a[x>=1&&*].b[oops]".toList,
      [.filter (some ['a']) (.ofText "x>=1&&*".toList),
        .filter (some ['b']) (.ofText "oops".toList)]⟩
    let r := q.after [.chain 0]
    let d : Value := .object [(['a'], .array [])]
    Query.compile q.source = .ok q ∧ r.Faithful ∧ r ≠ q ∧
      (r.explain .plain).text.count '\n' = 6 ∧
      details .plain (.filter (some ['b']) (.ofText "oops".toList)) =
        ["      error: invalid condition: 'oops'".toList] ∧
      (r.execute d).result = .error (.badPredicate 1 ⟨"oops".toList⟩) := by
  intro q r d
  have hcompile : Query.compile q.source = .ok q := by decide
  have hr : r.Faithful := (q.grows_after [.chain 0]).faithful (faithful_of_compile hcompile)
  have hexplained := explain_tells_runs hr false
  have herror :=
    hexplained.error 1 (some ['b']) (.ofText "oops".toList) ⟨"oops".toList⟩ rfl (by decide)
  refine ⟨hcompile, hr, by decide, ?_, herror.1.trans (by decide), ?_⟩
  · exact (hexplained.count (by decide)).trans (by decide)
  · exact herror.2 [] d (.array []) ⟨by decide, rfl⟩

end Query

end DotQuery
