import ExpectError.Annotate
import ExpectError.Proofs.Directives
import ExpectError.Proofs.MarkupProductions
import ExpectError.Proofs.SplitLines

/-!
# Annotating by lines

The pass that goes by offsets puts comments between lines: each stands on a line of its own, directly
above the line on which the token of its diagnostic begins and indented like it. The lines of the
source stay as they are.

* `commentAbove?`: the comment line that a diagnostic puts above a line;
* `isWholeLine_of_mem_plan`, `map_text_filter_plan`: the plan consists of comment lines, and those
  for the start of a line are the comments above it;
* `lines_annotate?`: the lines of the result.
-/

namespace ExpectError.Offset

open Text Insertion

/-- A comment on a line of its own, indented like the line below it. -/
def commentLine (line : List Char) (code : ℕ) : String :=
  String.ofList (line.takeWhile isIndent) ++ Directive.lineComment code .offset ++ "\n"

/-- The comment line that a diagnostic puts above line `number` of a file: there is one if the first
token that stops behind the start of the diagnostic begins on that line. -/
def commentAbove? (file : SourceFile) (number : ℕ) (line : List Char) (mark : Mark) :
    Option String := do
  let token ← file.tokens.find? fun token => mark.start < token.stop
  if (LineMap.ofText file.text).lineOf token.start = number then
    return commentLine line mark.code
  else none

variable {source : String} {file : SourceFile} {mark : Mark} {marks : List Mark}
  {insertion : Insertion}

/-! ### The plan -/

theorem insertionFor?_eq_some
    (h : insertionFor? file (LineMap.ofText file.text) mark = some insertion) :
    ∃ token ∈ file.tokens,
      insertion.pos = (LineMap.ofText file.text).lineStartOf token.start ∧
      insertion.text = String.ofList ((LineMap.ofText file.text).indentationOf token.start) ++
        Directive.lineComment mark.code .offset ++ "\n" := by
  obtain ⟨token, htoken, heq⟩ := Option.bind_eq_some_iff.1 h
  cases heq
  exact ⟨token, List.mem_of_find?_eq_some htoken, rfl, rfl⟩

theorem mem_lineStarts_of_mem_plan (h : insertion ∈ plan file marks) :
    insertion.pos ∈ lineStarts file.text := by
  obtain ⟨mark, -, hmark⟩ := List.mem_filterMap.1 h
  obtain ⟨token, -, hpos, -⟩ := insertionFor?_eq_some hmark
  exact hpos ▸ (LineMap.lineStartOf_spec file.text token.start).1

theorem isWholeLine_of_mem_plan (h : insertion ∈ plan file marks) :
    IsWholeLine insertion.text.toList := by
  obtain ⟨mark, -, hmark⟩ := List.mem_filterMap.1 h
  obtain ⟨token, -, -, htext⟩ := insertionFor?_eq_some hmark
  have hcomment : (Directive.lineComment mark.code .offset).toList ≠ [] := by
    simp [Directive.lineComment]
  refine ⟨(LineMap.ofText file.text).indentationOf token.start ++
    (Directive.lineComment mark.code .offset).toList, ?_, ?_, ?_⟩
  · rw [htext, String.toList_append, String.toList_append, String.toList_ofList]
    rfl
  · simp [hcomment]
  · intro c hc
    rcases List.mem_append.1 hc with hc | hc
    · exact LineMap.isLineBreak_of_mem_indentationOf hc
    · exact Directive.isLineBreak_eq_false (Directive.mem_lineComment hc)

/-- The insertions at the start of a line are the comment lines above it. -/
theorem map_text_filter_plan {number start : ℕ} {line : List Char}
    (hstart : (lineStarts file.text)[number]? = some start)
    (hindent : ∀ offset, (LineMap.ofText file.text).lineStartOf offset = start →
      (LineMap.ofText file.text).indentationOf offset = line.takeWhile isIndent)
    (marks : List Mark) :
    ((plan file marks).filter fun i => i.pos = start).map (·.text) =
      marks.filterMap (commentAbove? file number line) := by
  rw [plan, List.filter_filterMap, List.map_filterMap]
  refine List.filterMap_congr fun mark _ => ?_
  rw [insertionFor?, SourceFile.tokenAt?, commentAbove?]
  cases file.tokens.find? fun token => decide (mark.start < token.stop) with
  | none => rfl
  | some token =>
    have hline : (LineMap.ofText file.text).lineStartOf token.start = start ↔
        (LineMap.ofText file.text).lineOf token.start = number := by
      rw [← LineMap.starts_ofText] at hstart
      exact LineMap.lineStartOf_eq_iff hstart
    simp only [Option.bind_eq_bind, Option.bind_some, Option.pure_def]
    by_cases h : (LineMap.ofText file.text).lineOf token.start = number
    · simp [h, hline.2 h, hindent _ (hline.2 h), commentLine]
    · simp [h, mt hline.1 h]

/-! ### The annotated text -/

/-- The insertions at an offset, in the order in which their words stand there. -/
def comments (source : String) (file : SourceFile) (marks : List Mark) (start : ℕ) :
    List Insertion :=
  placedAt source.toList (sortForApplication (plan file marks)).reverse start

theorem comments_perm (hsource : file.text = source.toList) (start : ℕ) :
    (comments source file marks start).Perm ((plan file marks).filter fun i => i.pos = start) := by
  have hperm := (List.reverse_perm _).trans (sortForApplication_perm (plan file marks))
  refine (hperm.filter _).trans (List.Perm.of_eq ?_)
  refine List.filter_congr fun i hi => ?_
  have hplace := isBoundary_of_mem_lineStarts (mem_lineStarts_of_mem_plan hi)
  rw [floorBoundary_eq_self (hsource ▸ hplace)]

theorem mem_comments (hsource : file.text = source.toList) {start : ℕ}
    (h : insertion ∈ comments source file marks start) :
    insertion ∈ plan file marks ∧ insertion.pos = start := by
  simpa using (comments_perm hsource start).mem_iff.1 h

theorem pairwise_comments (hsource : file.text = source.toList) (start : ℕ) :
    (comments source file marks start).Pairwise fun a b => bytesOf a.text ≤ bytesOf b.text := by
  have hascending : (comments source file marks start).Pairwise Ascending := by
    refine List.Pairwise.filter _ (List.pairwise_reverse.2 ?_)
    exact (pairwise_sortForApplication (plan file marks)).imp ascending_iff_appliesBefore.2
  have hpos : ∀ i ∈ comments source file marks start, i.pos = start :=
    fun i hi => (mem_comments hsource hi).2
  refine hascending.imp_of_mem fun {a b} ha hb hab => ?_
  rcases hab with hab | hab
  · have := hpos a ha
    have := hpos b hb
    omega
  · exact hab.2

theorem splitLines_applyAll_plan (hsource : file.text = source.toList) :
    splitLines (applyAll source (plan file marks)).toList =
      linesBelow (fun start => (comments source file marks start).map (·.text.toList)) 0
        (splitLines source.toList) := by
  have hwords : wordsAt source.toList (sortForApplication (plan file marks)).reverse =
      fun start => ((comments source file marks start).map (·.text.toList)).flatten := by
    funext start
    rw [wordsAt, List.flatMap_def]
    rfl
  rw [toList_applyAll, hwords]
  apply splitLines_interleave
  · intro start line hline
    obtain ⟨i, hi, rfl⟩ := List.mem_map.1 hline
    exact isWholeLine_of_mem_plan (mem_comments hsource hi).1
  · intro start hlt hne
    obtain ⟨i, hi⟩ := List.exists_mem_of_ne_nil _ (mt List.map_eq_nil_iff.2 hne)
    obtain ⟨hplan, rfl⟩ := mem_comments hsource hi
    have hstart := mem_lineStarts_of_mem_plan hplan
    rw [hsource, lineStarts, List.mem_cons] at hstart
    exact hstart.resolve_left (by omega)

/-- The lines of the annotated text are the lines of the source, unchanged and in their order. Above
each of them stands one comment line for each diagnostic whose token begins on it, in ascending
order, and nothing else; the order in which the diagnostics are given does not matter. -/
theorem lines_annotate? {fileName source : String} {file : SourceFile}
    (hread : SourceFile.read? (.ofFileName fileName) source.toList = some file)
    (marks : List Mark) :
    ∃ (output : String) (above : ℕ → List String),
      annotate? fileName source marks = some output ∧
      (∀ number line, (LineMap.ofText source.toList).lines[number]? = some line →
        (above number).Perm (marks.filterMap (commentAbove? file number line)) ∧
        (above number).Pairwise fun a b => bytesOf a ≤ bytesOf b) ∧
      (LineMap.ofText output.toList).lines =
        (LineMap.ofText source.toList).lines.zipIdx.flatMap (fun line =>
          (above line.2).map String.toList ++ [line.1]) ∧
      ∀ others, others.Perm marks → annotate? fileName source others = some output := by
  have hsource := (SourceFile.tree_eq_of_read? hread).1
  have hannotate : ∀ marks,
      annotate? fileName source marks = some (applyAll source (plan file marks)) := fun marks => by
    simp [annotate?, hread]
  -- what stands above a line is found by the offset at which the line starts
  have hget : ∀ {number start}, (lineStarts source.toList)[number]? = some start →
      (lineStarts source.toList).getD number 0 = start := fun h => by
    rw [List.getD_eq_getElem?_getD, h, Option.getD_some]
  refine ⟨applyAll source (plan file marks), fun number =>
    (comments source file marks ((lineStarts source.toList).getD number 0)).map (·.text),
    hannotate marks, fun number line hline => ?_, ?_, fun others hperm => ?_⟩
  · obtain ⟨start, hstart, hindent⟩ := LineMap.getElem?_starts hline
    simp only [hget hstart]
    rw [← hsource] at hstart hindent
    constructor
    · rw [← map_text_filter_plan hstart hindent]
      exact (comments_perm hsource start).map _
    · exact List.pairwise_map.2 (pairwise_comments hsource start)
  · rw [LineMap.lines_eq_splitLines, LineMap.lines_eq_splitLines,
      splitLines_applyAll_plan hsource]
    refine linesBelow_eq_flatMap 0 0 _ (fun number => ((comments source file marks
      ((lineStarts source.toList).getD number 0)).map (·.text)).map String.toList) ?_
    intro number start hstart
    rw [startsOf_splitLines] at hstart
    simp only [Nat.zero_add, hget hstart, List.map_map]
    rfl
  · have hplan : (plan file others).Perm (plan file marks) := hperm.filterMap _
    rw [hannotate, applyAll, applyAll, sortForApplication_eq_of_perm hplan]

/-- Two diagnostics in front of the second name: both comments stand above the second line. -/
theorem lines_annotate?_names :
    ∃ (output : String) (above : ℕ → List String),
      annotate? "a.ts" "a\n b" [⟨2, 8⟩, ⟨3, 7⟩] = some output ∧
      (above 0).Perm [] ∧
      (above 1).Perm [commentLine [' ', 'b'] 8, commentLine [' ', 'b'] 7] ∧
      (LineMap.ofText output.toList).lines =
        (above 0).map String.toList ++ ["a\n".toList] ++
          ((above 1).map String.toList ++ [" b".toList]) := by
  have heval : (SourceFile.read? (.ofFileName "a.ts") "a\n b".toList).map (fun file =>
      ([⟨2, 8⟩, ⟨3, 7⟩].filterMap (commentAbove? file 0 ['a', '\n']),
        [⟨2, 8⟩, ⟨3, 7⟩].filterMap (commentAbove? file 1 [' ', 'b']))) =
        some ([], [commentLine [' ', 'b'] 8, commentLine [' ', 'b'] 7]) := by
    decide +kernel
  obtain ⟨file, hread, hfile⟩ := Option.map_eq_some_iff.1 heval
  obtain ⟨hfirst, hsecond⟩ := Prod.mk.inj hfile
  obtain ⟨output, above, hannotate, habove, hlines, -⟩ := lines_annotate? hread [⟨2, 8⟩, ⟨3, 7⟩]
  have hsplit : (LineMap.ofText "a\n b".toList).lines = [['a', '\n'], [' ', 'b']] := by
    decide +kernel
  rw [hsplit] at habove hlines
  refine ⟨output, above, hannotate, hfirst ▸ (habove 0 _ rfl).1, hsecond ▸ (habove 1 _ rfl).1, ?_⟩
  rw [hlines]
  simp

end ExpectError.Offset
