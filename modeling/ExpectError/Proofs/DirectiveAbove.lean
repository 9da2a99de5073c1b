import ExpectError.Proofs.Annotation
import ExpectError.Proofs.Directives
import ExpectError.Proofs.SplitLines

/-!
# The line above a node

A directive silences the line below it. The block of an issue goes in front of an anchor, the matched
node or one of its ancestors, so the directive stands on the line above that on which the anchor
starts, and the node is as many lines further down as it was in the source.

* `isSilenced`: what the checker makes of a directive;
* `getElem?_splitLines_append`: the line that a stretch of text with a line feed at its end completes;
* `lineOf_append_block`: a block moves what is behind it down by one line;
* `directive_above`: the line of the directive, that of the anchor and that of the node.
-/

open ExpectError.Tree (Path)

namespace ExpectError.Text

/-- The line in which the first part of a text ends, if it goes on up to a line feed. -/
theorem getElem?_splitLines_append {body : List Char} (hbody : ∀ c ∈ body, isLineBreak c = false)
    (before rest : List Char) :
    ∃ front, (splitLines (before ++ (body ++ '\n' :: rest)))[
      endings before (body ++ '\n' :: rest)]? = some (front ++ (body ++ ['\n'])) := by
  induction before with
  | nil =>
    have hend : endsLine '\n' rest = true := rfl
    refine ⟨[], ?_⟩
    rw [List.nil_append, splitLines_append_of_isLineBreak_eq_false hbody, splitLines, if_pos hend]
    rfl
  | cons c before ih =>
    obtain ⟨front, hfront⟩ := ih
    rw [List.cons_append, splitLines, endings]
    split
    · exact ⟨front, by rw [Nat.add_comm, List.getElem?_cons_succ, hfront]⟩
    · rw [Nat.zero_add]
      cases hsplit : splitLines (before ++ (body ++ '\n' :: rest)) with
      | nil => exact absurd hsplit (splitLines_ne_nil _)
      | cons first others =>
        rw [hsplit] at hfront
        rw [List.modifyHead_cons]
        cases hnumber : endings before (body ++ '\n' :: rest) with
        | zero =>
          rw [hnumber, List.getElem?_cons_zero, Option.some.injEq] at hfront
          exact ⟨c :: front, by rw [List.getElem?_cons_zero, hfront, List.cons_append]⟩
        | succ number =>
          rw [hnumber, List.getElem?_cons_succ] at hfront
          exact ⟨front, by rw [List.getElem?_cons_succ, hfront]⟩

/-- A stretch of text with one line feed in it and no other terminator ends one line. -/
theorem endings_block {body indentation : List Char} (hbody : ∀ c ∈ body, isLineBreak c = false)
    (hindentation : ∀ c ∈ indentation, isLineBreak c = false) (rest : List Char) :
    endings (body ++ '\n' :: indentation) rest = 1 := by
  rw [endings_append, endings_eq_zero hbody, endings, endings_eq_zero hindentation]
  rfl

/-- Between two places of a text lie as many lines as end there, whatever stands in front. -/
theorem LineMap.lineOf_append_append (a b c : List Char) :
    (LineMap.ofText (a ++ (b ++ c))).lineOf (byteLength a + byteLength b) =
      (LineMap.ofText (a ++ (b ++ c))).lineOf (byteLength a) + endings b c := by
  rw [← byteLength_append, ← List.append_assoc, lineOf_append, List.append_assoc, lineOf_append,
    endings_append]

/-- A stretch of text that ends one line, put in front of a place: the place is one line below the
line in which the stretch begins, and what is further behind keeps its distance to the place. -/
theorem LineMap.lineOf_append_block {block : List Char} (hblock : ∀ rest, endings block rest = 1)
    (before between after : List Char) :
    (LineMap.ofText (before ++ (block ++ (between ++ after)))).lineOf
        (byteLength before + byteLength block) =
      (LineMap.ofText (before ++ (block ++ (between ++ after)))).lineOf (byteLength before) + 1 ∧
    (LineMap.ofText (before ++ (block ++ (between ++ after)))).lineOf
        (byteLength before + byteLength between + byteLength block) +
          (LineMap.ofText (before ++ (between ++ after))).lineOf (byteLength before) =
      (LineMap.ofText (before ++ (block ++ (between ++ after)))).lineOf
        (byteLength before + byteLength block) +
          (LineMap.ofText (before ++ (between ++ after))).lineOf
            (byteLength before + byteLength between) := by
  have hplace := lineOf_append_append before block (between ++ after)
  have hbehind := lineOf_append_append (before ++ block) between after
  have hsource := lineOf_append_append before between after
  rw [hblock] at hplace
  rw [List.append_assoc, byteLength_append] at hbehind
  rw [Nat.add_right_comm, hbehind, hsource, hplace]
  exact ⟨rfl, by omega⟩

end ExpectError.Text

namespace ExpectError.Structural

open Text Insertion

/-- Does a checker that reads directives say nothing about a diagnostic at an offset? It says nothing
exactly if the line above carries a directive. -/
def isSilenced (map : LineMap) (offset : ℕ) : Bool :=
  match map.lineOf offset with
  | 0 => false
  | above + 1 => map.lines[above]?.any fun line => decide (Directive.mark.toList <:+: line)

theorem isInfix_commentOf (code : ℕ) (placement : Placement) :
    Directive.mark.toList <:+: (commentOf code placement).toList := by
  have hwords : ∀ pass, Directive.mark.toList <:+: (Directive.words code pass).toList := by
    intro pass
    rw [Directive.toList_words]
    simp only [List.append_assoc]
    exact (List.prefix_append _ _).isInfix
  cases placement with
  | leadingComment =>
    show _ <:+: (Directive.lineComment code .structural).toList
    rw [Directive.lineComment, String.toList_append]
    exact (hwords _).trans (List.suffix_append _ _).isInfix
  | markupSibling =>
    show _ <:+: (Directive.markupComment code).toList
    rw [Directive.markupComment, String.toList_append, String.toList_append]
    exact (hwords _).trans
      ((List.suffix_append _ _).isInfix.trans (List.prefix_append _ _).isInfix)

theorem isLineBreak_of_mem_commentOf {code : ℕ} {placement : Placement} {c : Char}
    (h : c ∈ (commentOf code placement).toList) : isLineBreak c = false := by
  cases placement with
  | leadingComment => exact Directive.isLineBreak_eq_false (Directive.mem_lineComment h)
  | markupSibling => exact Directive.isLineBreak_eq_false (Directive.mem_markupComment h)

/-- A single insertion at a boundary. -/
theorem interleave_wordsFor_singleton {source before after : List Char} {insertion : Insertion}
    (hsource : source = before ++ after) (hbefore : byteLength before = insertion.pos) :
    interleave (wordsFor [insertion]) 0 source = before ++ (insertion.text.toList ++ after) := by
  have hwords : wordsFor [insertion] =
      Function.update (fun _ => []) (byteLength before) (insertion.text.toList ++ []) := by
    funext n
    rw [wordsFor_cons, ← hbefore, Function.update_apply]
    by_cases h : n = byteLength before
    · simp [h, wordsFor]
    · simp [h, Ne.symm h, wordsFor]
  rw [interleave_eq_append hsource, hwords, interleave_prepend, interleave_nil_words]
  intro n hn
  rw [hwords, Function.update_of_ne (by omega)]

section SingleIssue

variable {fileName source : String} {file : SourceFile} {issue : Issue} {path : Path}
  {placement : Placement}

/-- The annotation for a single issue: the source with the block in front of the anchor. -/
theorem annotate_singleton
    (hread : SourceFile.read? (.ofFileName fileName) source.toList = some file)
    (hclean : file.errors = [])
    (hnode : nodeAt? (nodesByRange file) issue.range = some path)
    (hplacement : placementOf? file path = some placement)
    {before after : List Char} (hsource : source.toList = before ++ after)
    (hbefore : byteLength before = placement.anchor.start) :
    ∃ output, annotate fileName source [issue] = .ok output ∧
      output.toList = before ++ ((insertionOf (LineMap.ofText source.toList) issue.code
        placement).text.toList ++ after) := by
  have htext := (SourceFile.tree_eq_of_read? hread).1
  obtain ⟨output, hannotate, houtput⟩ := exists_annotate_eq_ok hread hclean [issue]
  have hblocks : [issue].filterMap
      (insertionFor? file (LineMap.ofText file.text) (nodesByRange file)) =
        [insertionOf (LineMap.ofText source.toList) issue.code placement] := by
    simp [insertionFor?, hnode, hplacement, htext]
  refine ⟨output, hannotate, ?_⟩
  rw [houtput, hblocks, interleave_wordsFor_singleton hsource hbefore]

/-- The place of a matched node's annotation, and the parts of the source in front of it, between it
and the node, and behind that. -/
theorem exists_placement_parts (hfile : CleanFile file)
    (hnode : nodeAt? (nodesByRange file) issue.range = some path) :
    ∃ placement before between after, placementOf? file path = some placement ∧
      placement.anchor ∈ path.chain ∧ file.text = before ++ (between ++ after) ∧
      byteLength before = placement.anchor.start ∧
      byteLength before + byteLength between = path.node.start := by
  have hmem := List.mem_of_find?_eq_some (nodeAt?_eq_find? file issue.range ▸ hnode)
  have hroot : Tree.isTag file.tree.kind = false := by rw [hfile.kind_eq]
  obtain ⟨placement, hplacement, hanchor⟩ :=
    Placement.exists_placementOf? file (hfile.filled.tagsEnclosed hroot hmem)
  have hplaces := hfile.filled.place_of_mem_chain (hfile.start_eq ▸ isBoundary_zero _) hmem
  obtain ⟨before, rest, htext, hbefore⟩ := hplaces _ hanchor
  obtain ⟨front, after, htext', hfront⟩ := hplaces path.node List.mem_cons_self
  have hle := hfile.filled.start_le_of_mem_chain hmem _ hanchor
  obtain ⟨between, rfl, rfl⟩ :=
    exists_append_of_byteLength_le (htext.symm.trans htext') (by omega)
  exact ⟨placement, before, between, after, hplacement, hanchor, htext, hbefore,
    by rw [← hfront, byteLength_append]⟩

end SingleIssue

/-- How the lines of the annotated text lie: the line on which the block begins carries the comment,
the anchor starts on the next one, and the node as many lines below the anchor as in the source. -/
structure LinesAround (map newMap : LineMap) (comment : String) (anchor node shift : ℕ) : Prop where
  exists_comment : ∃ front,
    newMap.lines[newMap.lineOf anchor]? = some (front ++ (comment.toList ++ ['\n']))
  anchor_below : newMap.lineOf (anchor + shift) = newMap.lineOf anchor + 1
  node_below :
    newMap.lineOf (node + shift) + map.lineOf anchor =
      newMap.lineOf (anchor + shift) + map.lineOf node

/-- The node is directly below the comment exactly if it starts on the anchor's line. -/
theorem LinesAround.directly_below_iff {map newMap : LineMap} {comment : String}
    {anchor node shift : ℕ} (h : LinesAround map newMap comment anchor node shift) :
    newMap.lineOf (node + shift) = newMap.lineOf anchor + 1 ↔
      map.lineOf node = map.lineOf anchor := by
  have hanchor := h.anchor_below
  have hnode := h.node_below
  omega

theorem LinesAround.isSilenced {map newMap : LineMap} {code anchor node shift : ℕ}
    {placement : Placement}
    (h : LinesAround map newMap (commentOf code placement) anchor node shift)
    (hline : map.lineOf node = map.lineOf anchor) :
    isSilenced newMap (node + shift) = true := by
  obtain ⟨front, hcomment⟩ := h.exists_comment
  have hinfix : Directive.mark.toList <:+: front ++ ((commentOf code placement).toList ++ ['\n']) :=
    (isInfix_commentOf code placement).trans
      ((List.prefix_append _ _).isInfix.trans (List.suffix_append _ _).isInfix)
  simp [Structural.isSilenced, h.directly_below_iff.2 hline, hcomment, hinfix]

theorem linesAround_of_parts (map : LineMap) (code : ℕ) (placement : Placement)
    (before between after : List Char) :
    LinesAround (LineMap.ofText (before ++ (between ++ after)))
      (LineMap.ofText (before ++ ((insertionOf map code placement).text.toList ++
        (between ++ after))))
      (commentOf code placement) (byteLength before) (byteLength before + byteLength between)
      (byteLength (insertionOf map code placement).text.toList) := by
  have hplain : ∀ c ∈ (commentOf code placement).toList, isLineBreak c = false :=
    fun c hc => isLineBreak_of_mem_commentOf hc
  have hblock : ∀ rest, endings (insertionOf map code placement).text.toList rest = 1 := by
    rw [toList_insertionOf]
    exact endings_block hplain fun c hc => LineMap.isLineBreak_of_mem_indentationOf hc
  obtain ⟨hanchor, hnode⟩ := LineMap.lineOf_append_block hblock before between after
  refine ⟨?_, hanchor, hnode⟩
  rw [LineMap.lineOf_append, LineMap.lines_eq_splitLines, toList_insertionOf, List.append_assoc,
    List.cons_append]
  exact getElem?_splitLines_append hplain before _

/-- The annotation for a single issue with the range of a node. The block goes in front of an anchor,
which is the node or one of its ancestors. The line of the directive is directly above that on which
the anchor now starts, and the node is as many lines below the anchor as in the source. So the node
is directly below the directive exactly if it starts on the anchor's line, and then a diagnostic
there is silenced. -/
theorem directive_above {fileName source : String} {file : SourceFile} {issue : Issue} {path : Path}
    (hread : SourceFile.read? (.ofFileName fileName) source.toList = some file)
    (hclean : file.errors = [])
    (hnode : nodeAt? (nodesByRange file) issue.range = some path) :
    ∃ (placement : Placement) (before block after : List Char) (output : String),
      placementOf? file path = some placement ∧ placement.anchor ∈ path.chain ∧
      annotate fileName source [issue] = .ok output ∧
      (source.toList = before ++ after ∧ output.toList = before ++ (block ++ after) ∧
        byteLength before = placement.anchor.start ∧ placement.anchor.start ≤ path.node.start) ∧
      LinesAround (LineMap.ofText source.toList) (LineMap.ofText output.toList)
        (commentOf issue.code placement) placement.anchor.start path.node.start
        (byteLength block) ∧
      ((LineMap.ofText output.toList).lineOf (path.node.start + byteLength block) =
          (LineMap.ofText output.toList).lineOf placement.anchor.start + 1 ↔
        (LineMap.ofText source.toList).lineOf path.node.start =
          (LineMap.ofText source.toList).lineOf placement.anchor.start) ∧
      ((LineMap.ofText source.toList).lineOf path.node.start =
          (LineMap.ofText source.toList).lineOf placement.anchor.start →
        isSilenced (LineMap.ofText output.toList) (path.node.start + byteLength block) = true) := by
  have htext := (SourceFile.tree_eq_of_read? hread).1
  obtain ⟨placement, before, between, after, hplacement, hanchor, hparts, hbefore, hbetween⟩ :=
    exists_placement_parts (cleanFile_of_read? hread hclean) hnode
  rw [htext] at hparts
  obtain ⟨output, hannotate, houtput⟩ :=
    annotate_singleton hread hclean hnode hplacement hparts hbefore
  -- where lines start in the new text depends only on the parts around the block
  have hlines := linesAround_of_parts (LineMap.ofText source.toList) issue.code placement before
    between after
  rw [← houtput, ← hparts, hbetween, hbefore] at hlines
  exact ⟨placement, before, _, between ++ after, output, hplacement, hanchor, hannotate,
    ⟨hparts, houtput, hbefore, by omega⟩, hlines, hlines.directly_below_iff, hlines.isSilenced⟩

/-- The value of an attribute is annotated through the attribute, which starts on the same line. -/
theorem directive_above_attributeValue :
    ∃ (output : String) (shift : ℕ),
      annotate "a.tsx" "<A b=\"c\"/>" [{ range := ⟨1, 6, 1, 9⟩, code := 7, message := "" }] =
        .ok output ∧
      byteLength output.toList = byteLength "<A b=\"c\"/>".toList + shift ∧
      isSilenced (LineMap.ofText output.toList) (5 + shift) = true := by
  have heval : (SourceFile.read? (.ofFileName "a.tsx") "<A b=\"c\"/>".toList).map (fun file =>
      (file.errors, (nodeAt? (nodesByRange file) ⟨1, 6, 1, 9⟩).map fun path =>
        (path.node.start, (placementOf? file path).map fun placement => placement.anchor.start))) =
        some ([], some (5, some 3)) := by
    decide +kernel
  obtain ⟨file, hread, hfile⟩ := Option.map_eq_some_iff.1 heval
  obtain ⟨hclean, hmatch⟩ := Prod.mk.inj hfile
  obtain ⟨path, hnode, hplaces⟩ := Option.map_eq_some_iff.1 hmatch
  obtain ⟨hstart, hanchor⟩ := Prod.mk.inj hplaces
  have hnode' : nodeAt? (nodesByRange file)
      ({ range := ⟨1, 6, 1, 9⟩, code := 7, message := "" } : Issue).range = some path := hnode
  obtain ⟨placement, before, block, after, output, hplacement, -, hannotate,
    ⟨hsource, houtput, -⟩, -, -, hsilenced⟩ := directive_above hread hclean hnode'
  have hstart' : placement.anchor.start = 3 := by simpa [hplacement] using hanchor
  refine ⟨output, byteLength block, hannotate, ?_, hstart ▸ hsilenced ?_⟩
  · rw [houtput, hsource]
    simp only [byteLength_append]
    omega
  · rw [hstart, hstart']
    decide +kernel

/-- If the value stands on a line below the name of its attribute, the directive is above the name,
and the checker still reports the value. -/
theorem not_isSilenced_attributeValue :
    ∃ (file : SourceFile) (path : Path) (output : String),
      SourceFile.read? (.ofFileName "a.tsx") "const e = <A b=\n\"c\" />;\n".toList = some file ∧
      file.errors = [] ∧
      nodeAt? (nodesByRange file) ⟨2, 1, 2, 4⟩ = some path ∧
      annotate "a.tsx" "const e = <A b=\n\"c\" />;\n"
        [{ range := ⟨2, 1, 2, 4⟩, code := 2322, message := "" }] = .ok output ∧
      path.node.textOf file.text = "\"c\"".toList ∧
      slice? 65 68 output.toList = some "\"c\"".toList ∧
      isSilenced (LineMap.ofText output.toList) 65 = false := by
  have heval : (SourceFile.read? (.ofFileName "a.tsx")
      "const e = <A b=\n\"c\" />;\n".toList).map (fun file =>
        (file.errors,
          (nodeAt? (nodesByRange file) ⟨2, 1, 2, 4⟩).map fun path => path.node.textOf file.text,
          plan file [{ range := ⟨2, 1, 2, 4⟩, code := 2322, message := "" }])) =
        some ([], some "\"c\"".toList,
          [⟨13, "// @ts-expect-error ratchet TS2322 (jscodeshift)\n"⟩]) := by
    decide +kernel
  obtain ⟨file, hread, hfile⟩ := Option.map_eq_some_iff.1 heval
  obtain ⟨hclean, hmatch, hplan⟩ : file.errors = [] ∧
      (nodeAt? (nodesByRange file) ⟨2, 1, 2, 4⟩).map (fun path => path.node.textOf file.text) =
        some "\"c\"".toList ∧
      plan file [{ range := ⟨2, 1, 2, 4⟩, code := 2322, message := "" }] =
        [⟨13, "// @ts-expect-error ratchet TS2322 (jscodeshift)\n"⟩] := by
    simpa only [Prod.mk.injEq] using hfile
  obtain ⟨path, hnode, hvalue⟩ := Option.map_eq_some_iff.1 hmatch
  refine ⟨file, path, _, hread, hclean, hnode, annotate_of_clean _ hread hclean, hvalue, ?_⟩
  rw [hplan, applyAll, sortForApplication, List.mergeSort_singleton]
  decide +kernel

end ExpectError.Structural
