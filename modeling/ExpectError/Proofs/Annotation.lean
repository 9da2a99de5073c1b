import ExpectError.Annotate
import ExpectError.Proofs.Insertions
import ExpectError.Proofs.Placements
import ExpectError.Proofs.MarkupProductions

/-!
# Annotating by syntax nodes

Each issue whose range is the range of a node asks for one block of words, in front of the node or of
one of its ancestors. The blocks are collected by offset and inserted all at once; the text that
results is the source with the blocks in it, and nothing else.

* `exists_insertionFor?`: an issue with the range of a node asks for a block;
* `toList_applyAll_collected`: collecting blocks by offset loses none of them and keeps their order;
* `annotate_eq_interleave`: what becomes of a text.
-/

open ExpectError.Tree (Path)

namespace ExpectError.Structural

open Text Insertion

/-! ### Blocks collected by offset -/

/-- The words of those insertions that have a given offset, in their order. -/
def wordsFor (insertions : List Insertion) (b : ℕ) : List Char :=
  (insertions.filter fun i => i.pos = b).flatMap (·.text.toList)

/-- The words for each offset kept in one insertion. -/
def collected (blocks : List Insertion) : List Insertion :=
  blocks.foldl (fun done next => attach next done) []

theorem map_pos_attach (i : Insertion) (done : List Insertion) :
    (attach i done).map (·.pos) =
      if i.pos ∈ done.map (·.pos) then done.map (·.pos) else done.map (·.pos) ++ [i.pos] := by
  induction done with
  | nil => simp [attach]
  | cons first rest ih =>
    rw [attach]
    by_cases h : first.pos = i.pos
    · simp [h]
    · simp only [h, if_false, List.map_cons, ih, List.mem_cons, Ne.symm h, false_or]
      split <;> simp

theorem nodup_attach {i : Insertion} {done : List Insertion} (h : (done.map (·.pos)).Nodup) :
    ((attach i done).map (·.pos)).Nodup := by
  rw [map_pos_attach]
  split
  next => exact h
  next hi =>
    rw [← List.concat_eq_append]
    exact h.concat hi

theorem wordsFor_cons (i : Insertion) (rest : List Insertion) (b : ℕ) :
    wordsFor (i :: rest) b = (if i.pos = b then i.text.toList else []) ++ wordsFor rest b := by
  unfold wordsFor
  by_cases h : i.pos = b <;> simp [h]

theorem wordsFor_eq_nil {insertions : List Insertion} {b : ℕ} (h : b ∉ insertions.map (·.pos)) :
    wordsFor insertions b = [] := by
  have : insertions.filter (fun i => i.pos = b) = [] := by
    refine List.filter_eq_nil_iff.2 fun i hi => ?_
    simp only [decide_eq_true_eq]
    rintro rfl
    exact h (List.mem_map_of_mem hi)
  rw [wordsFor, this, List.flatMap_nil]

theorem wordsFor_attach {i : Insertion} {done : List Insertion} (h : (done.map (·.pos)).Nodup)
    (b : ℕ) :
    wordsFor (attach i done) b = wordsFor done b ++ if i.pos = b then i.text.toList else [] := by
  induction done with
  | nil => rw [attach, wordsFor_cons]; simp [wordsFor]
  | cons first rest ih =>
    obtain ⟨hfirst, hrest⟩ := List.nodup_cons.1 h
    rw [attach]
    split
    next hpos =>
      rw [wordsFor_cons, wordsFor_cons]
      by_cases hb : i.pos = b
      · -- the words for this offset are all in the first insertion
        have hnil : wordsFor rest b = [] := wordsFor_eq_nil (by rwa [← hb, ← hpos])
        simp [hpos, hb, hnil]
      · simp [hpos, hb]
    next hpos => rw [wordsFor_cons, wordsFor_cons, ih hrest, List.append_assoc]

theorem collected_append (blocks : List Insertion) (i : Insertion) :
    collected (blocks ++ [i]) = attach i (collected blocks) := by
  simp [collected]

theorem nodup_collected (blocks : List Insertion) : ((collected blocks).map (·.pos)).Nodup := by
  induction blocks using List.reverseRecOn with
  | nil => exact List.nodup_nil
  | append_singleton blocks i ih => rw [collected_append]; exact nodup_attach ih

theorem wordsFor_collected (blocks : List Insertion) (b : ℕ) :
    wordsFor (collected blocks) b = wordsFor blocks b := by
  induction blocks using List.reverseRecOn with
  | nil => rfl
  | append_singleton blocks i ih =>
    rw [collected_append, wordsFor_attach (nodup_collected blocks), ih]
    by_cases h : i.pos = b <;> simp [wordsFor, h]

theorem mem_map_pos_collected {blocks : List Insertion} {b : ℕ}
    (h : b ∈ (collected blocks).map (·.pos)) : b ∈ blocks.map (·.pos) := by
  induction blocks using List.reverseRecOn with
  | nil => simp [collected] at h
  | append_singleton blocks i ih =>
    rw [collected_append, map_pos_attach] at h
    rw [List.map_append, List.mem_append]
    split at h
    · exact Or.inl (ih h)
    · rcases List.mem_append.1 h with h | h
      · exact Or.inl (ih h)
      · exact Or.inr h

theorem eq_of_perm_of_length_le_one {α : Type} {a b : List α} (h : b.Perm a)
    (hle : a.length ≤ 1) : b = a := by
  match a with
  | [] => exact h.eq_nil
  | [x] => exact List.perm_singleton.1 h
  | _ :: _ :: _ => simp at hle

/-- At most one insertion has a given offset, so their order does not matter. -/
theorem wordsFor_perm {a b : List Insertion} (hnodup : (a.map (·.pos)).Nodup) (h : b.Perm a) :
    wordsFor b = wordsFor a := by
  funext n
  have hperm := h.filter fun i => decide (i.pos = n)
  have hle : (a.filter fun i => decide (i.pos = n)).length ≤ 1 := by
    have := List.nodup_iff_count_le_one.1 hnodup n
    rw [List.count, List.countP_map, List.countP_eq_length_filter] at this
    exact this
  rw [wordsFor, eq_of_perm_of_length_le_one hperm hle, wordsFor]

/-- Insertions with different offsets, all at boundaries of the source. -/
theorem toList_applyAll_of_nodup (source : String) {insertions : List Insertion}
    (hnodup : (insertions.map (·.pos)).Nodup)
    (hplaces : ∀ i ∈ insertions, IsBoundary source.toList i.pos) :
    (applyAll source insertions).toList = interleave (wordsFor insertions) 0 source.toList := by
  have hperm := (List.reverse_perm _).trans (sortForApplication_perm insertions)
  rw [toList_applyAll, ← wordsFor_perm hnodup hperm]
  congr 1
  funext b
  unfold wordsAt placedAt wordsFor
  congr 1
  refine List.filter_congr fun i hi => ?_
  rw [floorBoundary_eq_self (hplaces i (hperm.mem_iff.1 hi))]

theorem toList_applyAll_collected (source : String) {blocks : List Insertion}
    (hplaces : ∀ i ∈ blocks, IsBoundary source.toList i.pos) :
    (applyAll source (collected blocks)).toList =
      interleave (wordsFor blocks) 0 source.toList := by
  rw [toList_applyAll_of_nodup source (nodup_collected blocks), funext (wordsFor_collected blocks)]
  intro i hi
  obtain ⟨j, hj, heq⟩ := List.mem_map.1 (mem_map_pos_collected (List.mem_map_of_mem hi))
  exact heq ▸ hplaces j hj

/-! ### The block of an issue -/

/-- Is the range of an issue the range of some node? -/
def isMatched (file : SourceFile) (issue : Issue) : Bool :=
  file.tree.preorder.any fun node =>
    (LineMap.ofText file.text).rangeOf node.start node.stop = issue.range

/-- The block that an issue asks for: a comment with the code of the issue, a line feed and the
indentation of the anchor's line, in front of an anchor that is the first node with the issue's range
or one of its ancestors. -/
def IsBlockOf (file : SourceFile) (issue : Issue) (block : Insertion) : Prop :=
  ∃ path,
    file.tree.paths.find? (fun path =>
      issue.range == (LineMap.ofText file.text).rangeOf path.node.start path.node.stop) = some path ∧
    ∃ anchor ∈ path.node :: path.ancestors,
      block.pos = anchor.start ∧ IsBoundary file.text block.pos ∧
      ∃ comment, (comment = Directive.lineComment issue.code .structural ∨
          comment = Directive.markupComment issue.code) ∧
        block.text = comment ++ "\n" ++
          String.ofList ((LineMap.ofText file.text).indentationOf anchor.start)

theorem lookup_map_eq_find? {α β : Type} [BEq α] (g : β → α) (key : α) (l : List β) :
    (l.map fun x => (g x, x)).lookup key = l.find? fun x => key == g x := by
  induction l with
  | nil => rfl
  | cons x l ih =>
    rw [List.map_cons, List.lookup_cons, List.find?_cons, ih]

/-- The node that is found for a range is the first one with that range. -/
theorem nodeAt?_eq_find? (file : SourceFile) (range : Range) :
    nodeAt? (nodesByRange file) range = file.tree.paths.find? fun path =>
      range == (LineMap.ofText file.text).rangeOf path.node.start path.node.stop :=
  lookup_map_eq_find? _ range _

theorem isMatched_iff_nodeAt? (file : SourceFile) (issue : Issue) :
    isMatched file issue = (nodeAt? (nodesByRange file) issue.range).isSome := by
  rw [nodeAt?_eq_find?, List.isSome_find?, isMatched, ← Tree.map_node_paths, List.any_map]
  congr 1
  funext path
  rw [Bool.eq_iff_iff, Function.comp_apply, decide_eq_true_iff, beq_iff_eq]
  exact eq_comm

/-- What reading without errors gives: a tree that is laid out well, with the whole text as its
root. -/
structure CleanFile (file : SourceFile) : Prop where
  filled : Tree.Filled (IsBoundary file.text) file.tree
  kind_eq : file.tree.kind = .sourceFile
  start_eq : file.tree.start = 0
  stop_eq : file.tree.stop = byteLength file.text

theorem cleanFile_of_read? {dialect : Dialect} {text : List Char} {file : SourceFile}
    (h : SourceFile.read? dialect text = some file) (hclean : file.errors = []) :
    CleanFile file := by
  obtain ⟨htext, hkind, hstart, hstop⟩ := SourceFile.tree_eq_of_read? h
  exact ⟨htext ▸ SourceFile.filled_of_read? h hclean, hkind, hstart, htext ▸ hstop⟩

/-- An issue with the range of a node asks for a block. -/
theorem exists_insertionFor? {file : SourceFile} (hfile : CleanFile file) {issue : Issue}
    (h : isMatched file issue = true) :
    ∃ block, insertionFor? file (LineMap.ofText file.text) (nodesByRange file) issue = some block ∧
      IsBlockOf file issue block := by
  rw [isMatched_iff_nodeAt?, Option.isSome_iff_exists] at h
  obtain ⟨path, hpath⟩ := h
  have hfind := nodeAt?_eq_find? file issue.range ▸ hpath
  have hmem := List.mem_of_find?_eq_some hfind
  have hroot : Tree.isTag file.tree.kind = false := by rw [hfile.kind_eq]
  obtain ⟨placement, hplacement, hanchor⟩ :=
    Placement.exists_placementOf? file (hfile.filled.tagsEnclosed hroot hmem)
  have hplace : IsBoundary file.text placement.anchor.start :=
    hfile.filled.place_of_mem_chain (hfile.start_eq ▸ isBoundary_zero _) hmem _ hanchor
  refine ⟨insertionOf (LineMap.ofText file.text) issue.code placement, ?_, path, hfind,
    placement.anchor, hanchor, rfl, hplace, commentOf issue.code placement, ?_, rfl⟩
  · simp [insertionFor?, hpath, hplacement]
  · cases placement with
    | leadingComment => exact Or.inl rfl
    | markupSibling => exact Or.inr rfl

theorem insertionFor?_eq_none {file : SourceFile} {issue : Issue}
    (h : isMatched file issue = false) :
    insertionFor? file (LineMap.ofText file.text) (nodesByRange file) issue = none := by
  rw [isMatched_iff_nodeAt?, Option.isSome_eq_false_iff, Option.isNone_iff_eq_none] at h
  simp [insertionFor?, h]

/-- The issues that match a node and the blocks that the list of issues asks for correspond to one
another. -/
theorem forall₂_blocks {file : SourceFile} (hfile : CleanFile file) (issues : List Issue) :
    List.Forall₂ (IsBlockOf file) (issues.filter (isMatched file))
      (issues.filterMap
        (insertionFor? file (LineMap.ofText file.text) (nodesByRange file))) := by
  induction issues with
  | nil => exact .nil
  | cons issue issues ih =>
    cases h : isMatched file issue with
    | true =>
      obtain ⟨block, hblock, hisblock⟩ := exists_insertionFor? hfile h
      rw [List.filter_cons_of_pos h, List.filterMap_cons_some hblock]
      exact .cons hisblock ih
    | false =>
      rw [List.filter_cons_of_neg (by simp [h]), List.filterMap_cons_none (insertionFor?_eq_none h)]
      exact ih

theorem exists_left_of_forall₂ {α β : Type} {R : α → β → Prop} {xs : List α} {ys : List β}
    (h : List.Forall₂ R xs ys) {y : β} (hy : y ∈ ys) : ∃ x, R x y := by
  induction h with
  | nil => simp at hy
  | cons hxy _ ih =>
    rcases List.mem_cons.1 hy with rfl | hy
    · exact ⟨_, hxy⟩
    · exact ih hy

/-! ### The annotated text -/

/-- The words of a block: a comment, a line feed, and the indentation. -/
theorem toList_insertionOf (map : LineMap) (code : ℕ) (placement : Placement) :
    (insertionOf map code placement).text.toList = (commentOf code placement).toList ++
      '\n' :: map.indentationOf placement.anchor.start := by
  simp [insertionOf]

/-- Every text without errors is annotated: the result is the text with the blocks that the issues
ask for. -/
theorem exists_annotate_eq_ok {fileName source : String} {file : SourceFile}
    (hread : SourceFile.read? (.ofFileName fileName) source.toList = some file)
    (hclean : file.errors = []) (issues : List Issue) :
    ∃ output, annotate fileName source issues = .ok output ∧
      output.toList = interleave (wordsFor (issues.filterMap
        (insertionFor? file (LineMap.ofText file.text) (nodesByRange file)))) 0 source.toList := by
  have htext := (SourceFile.tree_eq_of_read? hread).1
  refine ⟨applyAll source (plan file issues), annotate_of_clean issues hread hclean,
    toList_applyAll_collected source fun block hblock => ?_⟩
  obtain ⟨issue, path, -, anchor, -, -, hplace, -⟩ :=
    exists_left_of_forall₂ (forall₂_blocks (cleanFile_of_read? hread hclean) issues) hblock
  exact htext ▸ hplace

/-- A text on which reading comes to an end is refused exactly if a syntax error is noted. Otherwise
the result is the text with one block for each issue whose range is the range of a node, in the order
of the issues where several blocks stand at one offset, and nothing else; without such issues, it is
the text itself. -/
theorem annotate_eq_interleave {fileName source : String} {file : SourceFile}
    (hread : SourceFile.read? (.ofFileName fileName) source.toList = some file)
    (issues : List Issue) :
    ((∃ failure, annotate fileName source issues = .error failure) ↔ file.errors ≠ []) ∧
    (file.errors = [] →
      ∃ (blocks : List Insertion) (output : String),
        annotate fileName source issues = .ok output ∧
        List.Forall₂ (IsBlockOf file) (issues.filter (isMatched file)) blocks ∧
        output.toList =
          interleave (fun b => (blocks.filter fun i => i.pos = b).flatMap (·.text.toList)) 0
            source.toList) ∧
    (file.errors = [] → (∀ issue ∈ issues, isMatched file issue = false) →
      annotate fileName source issues = .ok source) := by
  have htext := (SourceFile.tree_eq_of_read? hread).1
  have hok := annotate_of_clean issues hread
  refine ⟨?_, ?_, ?_⟩
  · constructor
    · rintro ⟨failure, hfailure⟩ hclean
      rw [hok hclean] at hfailure
      cases hfailure
    · intro herrors
      obtain ⟨first, others, herrors⟩ := List.exists_cons_of_ne_nil herrors
      exact ⟨_, annotate_of_errors issues hread herrors⟩
  · intro hclean
    have hblocks := forall₂_blocks (cleanFile_of_read? hread hclean) issues
    -- a block stands at the start of a node, and nodes start at boundaries of the text
    refine ⟨_, _, hok hclean, hblocks, toList_applyAll_collected source fun block hblock => ?_⟩
    obtain ⟨issue, hissue⟩ := exists_left_of_forall₂ hblocks hblock
    obtain ⟨path, -, anchor, -, -, hplace, -⟩ := hissue
    exact htext ▸ hplace
  · intro hclean hnone
    have hplan : plan file issues = [] := by
      have : issues.filterMap (insertionFor? file (LineMap.ofText file.text) (nodesByRange file)) =
          [] :=
        List.filterMap_eq_nil_iff.2 fun issue hissue => insertionFor?_eq_none (hnone issue hissue)
      simp [plan, this]
    rw [hok hclean, hplan]
    congr 1
    have happlied : (applyAll source (collected [])).toList =
        interleave (wordsFor []) 0 source.toList :=
      toList_applyAll_collected source (by simp)
    exact String.toList_injective (happlied.trans (interleave_nil_words 0 _))

/-- The only name in a text of one letter gets a block. -/
theorem annotate_eq_interleave_name :
    ∃ file, SourceFile.read? (.ofFileName "a.ts") "a".toList = some file ∧
      ∃ (block : Insertion) (output : String),
        annotate "a.ts" "a" [{ range := ⟨1, 1, 1, 2⟩, code := 1, message := "" }] = .ok output ∧
        IsBlockOf file { range := ⟨1, 1, 1, 2⟩, code := 1, message := "" } block ∧
        output.toList = interleave (fun b => ([block].filter fun i => i.pos = b).flatMap
          (·.text.toList)) 0 "a".toList := by
  have heval : (SourceFile.read? (.ofFileName "a.ts") "a".toList).map (fun file =>
      (file.errors, isMatched file { range := ⟨1, 1, 1, 2⟩, code := 1, message := "" })) =
        some ([], true) := by
    decide +kernel
  obtain ⟨file, hread, hfile⟩ := Option.map_eq_some_iff.1 heval
  obtain ⟨hclean, hmatched⟩ := Prod.mk.inj hfile
  obtain ⟨blocks, output, hok, hblocks, houtput⟩ :=
    (annotate_eq_interleave hread [{ range := ⟨1, 1, 1, 2⟩, code := 1, message := "" }]).2.1 hclean
  rw [List.filter_cons_of_pos hmatched, List.filter_nil] at hblocks
  obtain ⟨block, _, hblock, hnil, rfl⟩ := List.forall₂_cons_left_iff.1 hblocks
  cases hnil
  exact ⟨file, hread, block, output, hok, hblock, houtput⟩

end ExpectError.Structural
