import ExpectError.Proofs.AnnotatedReading
import ExpectError.Proofs.BlockChildren

/-!
# Annotated children of elements

A child of an element is annotated by a comment in braces. The annotated text is read again without
errors: the elements keep their children, and the blocks stand in front of the annotated ones.

* `inStep`: all constructs are read in step in a text and in the text with blocks;
* `SourceFile.isUnblocked`: nothing in reading a text comes out otherwise with the blocks;
* `SourceFile.exists_read?_grown`: what the text with blocks is read to;
* `Structural.grown_annotate`: what an annotated text is read to.
-/

namespace ExpectError

open Text Insertion

namespace Grammar

variable {text : List Char} {words : ℕ → List Char} {counts : ℕ → ℕ} {n m : ℕ} {context : Context}
  {s t : State}

/-- All constructs are read in step, however deep they are nested. -/
theorem inStep (hw : IsBlocksFor text words counts) (hnm : n ≤ m) : InStep text words counts n m := by
  induction n generalizing m with
  | zero => exact ⟨fun _ _ _ => .of_none _, fun _ _ _ _ _ => .of_none _⟩
  | succ n ih =>
    obtain ⟨m, rfl⟩ := Nat.exists_eq_add_of_le' hnm
    have hrules : InStep text words counts n (m + n) := ih (Nat.le_add_left n m)
    have hdeeper (context : Context) (hsize : context.size = byteLength text) :
        { context with depth := context.depth + 1 }.size = byteLength text := hsize
    constructor
    · intro c context s t hc hsize hst
      by_cases hmarkup : c = .markup false
      · subst hmarkup
        have hproduction : Tracks text words n (m + n) context (produce (.markup false))
            (fun _ => Parallel text words counts) s t := by
          refine Tracks.nested (fun _ => ?_) ?_
          · exact tracks_outsideTags hw hrules hsize (outsideTags_missing _) (hst.report _ _)
          · have hside : SideBySide text words false s t := hst.sideBySide
            have helement := tracks_elementOrFragment hw hrules (hdeeper context hsize) false
              hside.stands hst.toAbreast
            refine helement.mono fun _ u v ⟨piece, _, _, hcollects⟩ => hcollects.parallel ?_
            rw [Grown, hcollects.trees, hcollects.pieces, hst.pieces]
            simp
        rw [Tracks, Reader.guarded_unguarded] at hproduction
        exact hproduction
      · have hguard : blockGuard words c = unblocked words := by
          cases c with
          | markup among => cases among <;> simp_all
          | _ => rfl
        have hproduction := (lockstep_parallel hw).follows_guarded hrules.follows_construct
          (produce c) context hsize (byteLength_le_interleave words 0 text) hst
        rw [← hguard, Reader.guarded_unguarded] at hproduction
        exact hproduction
    · intro context s t hsize hdepth hs hkind hst
      have hproduction : Tracks text words n (m + n) context (produce (.markup true))
          (fun _ u v => ∃ piece, piece.start = s.position ∧ piece.kind ≠ .token .jsxText ∧
            Collects text words true s t [piece] [piece.grown counts] u v) s t := by
        refine Tracks.nested (fun htooDeep => absurd hdepth (Nat.not_lt.2 htooDeep)) ?_
        exact tracks_elementOrFragment hw hrules (hdeeper context hsize) true hs hst
      rw [Tracks, Reader.guarded_unguarded] at hproduction
      exact hproduction

/-- The first token is the same in both texts. -/
theorem parallel_first (hw : IsBlocksFor text words counts)
    (hguard : unblocked words (.scan .code) (Scanner.ofText text) = true) :
    Parallel text words counts (State.advance .code { scanner := Scanner.ofText text })
      (State.advance .code { scanner := Scanner.ofText (interleave words 0 text) }) := by
  obtain ⟨hscan, hclear⟩ := clear_of_unblocked hguard
  exact ⟨⟨Scanner.aligned_scan_of_clear hw.isPartingFor hscan (atStop_ofText text words) hclear,
    .nil⟩, Scan.full_apply .code _, hclear.front _ (State.stop_le_start_scan .code _) le_rfl, rfl⟩

end Grammar

namespace SourceFile

open Grammar

variable {dialect : Dialect} {text : List Char} {words : ℕ → List Char} {counts : ℕ → ℕ}
  {file : SourceFile}

/-- Does reading a text come to an end without a move that comes out otherwise with blocks in front of
some boundaries of the text? -/
def isUnblocked (dialect : Dialect) (text : List Char) (words : ℕ → List Char) : Bool :=
  let size := byteLength text
  (wholeText.guarded (unblocked words) (guardedBy (blockGuard words) (depthBound size))
    { size, mode := { markup := dialect = .markup } } { scanner := Scanner.ofText text }).isSome

/-- A text with blocks in it is read like the text without them: with the same problems, and to a tree
that has the blocks among the children of elements. -/
theorem exists_read?_grown (hread : read? dialect text = some file)
    (hw : IsBlocksFor text words counts) (hunblocked : isUnblocked dialect text words = true) :
    ∃ other, read? dialect (interleave words 0 text) = some other ∧
      other.errors.map (·.problem) = file.errors.map (·.problem) ∧
      other.tree.shape = file.tree.grown counts := by
  obtain ⟨⟨_, s⟩, hs⟩ := Option.isSome_iff_exists.1 hunblocked
  have hfile : read? dialect text = some _ :=
    Option.bind_eq_some_iff.2 ⟨((), s), run_of_guardedBy hs, rfl⟩
  obtain rfl := Option.some.inj (hread.symm.trans hfile)
  -- the first token is read before anything else
  obtain ⟨⟨_, first⟩, hadvance, hrest⟩ := Option.bind_eq_some_iff.1 hs
  obtain ⟨hmove, hadvance⟩ := Option.ite_none_right_eq_some.1 hadvance
  cases hadvance
  have hsize := byteLength_le_interleave words 0 text
  have hbound : depthBound (byteLength text) ≤ depthBound (byteLength (interleave words 0 text)) := by
    unfold depthBound
    omega
  obtain ⟨t, ht, hst⟩ := (lockstep_parallel hw).follows_guarded (inStep hw hbound).follows_construct _ _
    rfl hsize (parallel_first hw hmove) hrest
  rw [Reader.guarded_unguarded] at ht
  refine ⟨_, Option.bind_eq_some_iff.2 ⟨((), t), ht, rfl⟩, ?_, ?_⟩
  · have hproblems : List.Forall₂ (· = ·) (t.errors.map (·.problem)) (s.errors.map (·.problem)) :=
      List.forall₂_map_left_iff.2 (List.forall₂_map_right_iff.2
        (hst.errors.flip.imp fun _ _ h => h.1.symm))
    rw [List.forall₂_eq_eq_eq] at hproblems
    simp [hproblems]
  · rw [Tree.shape_node, Tree.grown_node rfl, List.map_reverse, List.map_reverse, hst.pieces]

end SourceFile

namespace Structural

variable {fileName source : String} {file : SourceFile} {issues : List Issue}

/-- The words of the blocks that a list of issues asks for. -/
def annotations (file : SourceFile) (issues : List Issue) : ℕ → List Char :=
  wordsFor ((placed file issues).map fun place =>
    insertionOf (LineMap.ofText file.text) place.1.code place.2)

/-- How many issues are annotated in front of each offset. -/
def annotatedAt (file : SourceFile) (issues : List Issue) (b : ℕ) : ℕ :=
  (placed file issues).countP fun place => place.2.anchor.start = b

/-- The comment of an annotated child, with the line break and the indentation behind it. -/
theorem isBlock_insertionOf (map : LineMap) (code : ℕ) {placement : Placement}
    (h : ∃ anchor, placement = .markupSibling anchor) :
    IsBlock (insertionOf map code placement).text.toList := by
  obtain ⟨anchor, rfl⟩ := h
  refine ⟨' ' :: ((Directive.words code .structural).toList ++ [' ']),
    map.indentationOf anchor.node.start, List.forall_mem_cons.2 ⟨rfl,
      List.forall_mem_append.2 ⟨fun _ => isPlain_of_mem_words, List.forall_mem_singleton.2 rfl⟩⟩,
    fun _ => LineMap.isIndent_of_mem_indentationOf, ?_⟩
  rw [toList_insertionOf, commentOf, Directive.markupComment]
  simp [String.toList_append, Placement.anchor]

/-- The blocks of issues that are annotated among the children of elements. -/
theorem isBlocksFor_annotations
    (hend : ∀ place ∈ placed file issues, place.2.anchor.start < byteLength file.text)
    (hchild : ∀ place ∈ placed file issues, ∃ anchor, place.2 = .markupSibling anchor) :
    IsBlocksFor file.text (annotations file issues) (annotatedAt file issues) where
  exists_blocks b := by
    refine ⟨((placed file issues).filter fun place => place.2.anchor.start = b).map fun place =>
      (insertionOf (LineMap.ofText file.text) place.1.code place.2).text.toList, ?_, ?_, ?_⟩
    · rw [List.length_map, annotatedAt, List.countP_eq_length_filter]
    · intro block hblock
      obtain ⟨place, hplace, rfl⟩ := List.mem_map.1 hblock
      exact isBlock_insertionOf _ _ (hchild place (List.mem_filter.1 hplace).1)
    · rw [annotations, wordsFor, List.filter_map, List.flatMap_map, List.flatMap_def]
      rfl
  end_eq := wordsFor_eq_nil fun hmem => by
    obtain ⟨place, hplace, heq⟩ := List.mem_map.1 (List.map_map ▸ hmem)
    exact (hend place hplace).ne heq

/-- In an empty text there are no elements. -/
theorem placed_eq_nil_of_empty {dialect : Dialect}
    (hread : SourceFile.read? dialect [] = some file)
    (hchild : ∀ place ∈ placed file issues, ∃ anchor, place.2 = .markupSibling anchor) :
    placed file issues = [] := by
  have hempty : (SourceFile.read? dialect []).map (·.tree.children.isEmpty) = some true := by
    cases dialect <;> decide +kernel
  rw [hread, Option.map_some, Option.some_inj, List.isEmpty_iff] at hempty
  obtain ⟨-, hkind, -, -⟩ := SourceFile.tree_eq_of_read? hread
  refine List.eq_nil_iff_forall_not_mem.2 fun place hplace => ?_
  obtain ⟨anchor, hanchor⟩ := hchild place hplace
  obtain ⟨issue, -, hplace⟩ := List.mem_filterMap.1 hplace
  obtain ⟨path, hpath, hplace⟩ := Option.bind_eq_some_iff.1 hplace
  obtain ⟨placement, hplacement, heq⟩ := Option.bind_eq_some_iff.1 hplace
  rw [nodeAt?_eq_find?] at hpath
  have hmem := List.mem_of_find?_eq_some hpath
  cases htree : file.tree with
  | node kind start stop children =>
    rw [htree] at hempty hkind hmem
    obtain rfl : children = [] := hempty
    obtain rfl : kind = .sourceFile := hkind
    have hroot : path = { node := .node .sourceFile start stop [], ancestors := [] } := by
      simpa [Tree.paths, Tree.pathsBelow, Tree.pathsBelowAll] using hmem
    subst hroot
    have hleading : placementOf? file { node := .node .sourceFile start stop [], ancestors := [] } =
        some (.leadingComment (Placement.hoist file _)) := rfl
    cases hplacement.symm.trans hleading
    cases heq
    cases hanchor

/-- A text without errors in which only children of elements are annotated is read without errors
again, if nothing that is done in reading the text comes out otherwise with the blocks. Elements then
keep their children, and in front of each annotated one stand, for each of its issues, an expression
without anything in it and a run of blank text; the last run is part of the child if that is text. -/
theorem grown_annotate (hread : SourceFile.read? (.ofFileName fileName) source.toList = some file)
    (hclean : file.errors = [])
    (hchild : ∀ place ∈ placed file issues, ∃ anchor, place.2 = .markupSibling anchor)
    (hunblocked : SourceFile.isUnblocked (.ofFileName fileName) file.text
      (annotations file issues) = true) :
    ∃ output other, annotate fileName source issues = .ok output ∧
      SourceFile.read? (.ofFileName fileName) output.toList = some other ∧
      other.errors = [] ∧ other.tree.shape = file.tree.grown (annotatedAt file issues) := by
  have htext := (SourceFile.tree_eq_of_read? hread).1
  obtain ⟨output, hannotate, houtput⟩ := exists_annotate_eq_ok hread hclean issues
  rw [filterMap_insertionFor?, ← htext] at houtput
  have hend : ∀ place ∈ placed file issues, place.2.anchor.start < byteLength file.text := by
    intro place hplace
    by_cases hempty : file.text = []
    · rw [htext] at hempty
      rw [hempty] at hread
      rw [placed_eq_nil_of_empty hread hchild] at hplace
      cases hplace
    · exact start_lt_of_mem_placed (cleanFile_of_read? hread hclean) hempty hplace
  obtain ⟨other, hother, hproblems, hshape⟩ :=
    SourceFile.exists_read?_grown (htext ▸ hread) (isBlocksFor_annotations hend hchild) hunblocked
  refine ⟨output, other, hannotate, houtput ▸ hother, ?_, hshape⟩
  simpa [hclean] using hproblems

/-- A child of an element gets a comment, and the text behind it another one. -/
theorem grown_annotate_siblings :
    ∃ (file : SourceFile) (output : String) (other : SourceFile),
      SourceFile.read? (.ofFileName "a.tsx") "const e = <div><b>x</b> y</div>;\n".toList = some file ∧
      annotate "a.tsx" "const e = <div><b>x</b> y</div>;\n"
        [{ range := ⟨1, 16, 1, 24⟩, code := 1, message := "" },
          { range := ⟨1, 24, 1, 26⟩, code := 2, message := "" }] = .ok output ∧
      SourceFile.read? (.ofFileName "a.tsx") output.toList = some other ∧ other.errors = [] ∧
      other.tree.shape = file.tree.grown fun b => [15, 23].count b := by
  have heval : (SourceFile.read? (.ofFileName "a.tsx")
      "const e = <div><b>x</b> y</div>;\n".toList).map (fun file =>
        let issues : List Issue := [{ range := ⟨1, 16, 1, 24⟩, code := 1, message := "" },
          { range := ⟨1, 24, 1, 26⟩, code := 2, message := "" }]
        (file.errors,
          (placed file issues).all fun place =>
            place.2.casesOn (motive := fun _ => Bool) (fun _ => false) (fun _ => true),
          (placed file issues).map (·.2.anchor.start),
          SourceFile.isUnblocked (.ofFileName "a.tsx") file.text (annotations file issues))) =
        some ([], true, [15, 23], true) := by
    decide +kernel
  obtain ⟨file, hread, hfile⟩ := Option.map_eq_some_iff.1 heval
  simp only [Prod.mk.injEq, List.all_eq_true] at hfile
  obtain ⟨hclean, hplaces, hstarts, hunblocked⟩ := hfile
  obtain ⟨output, other, hannotate, hother, herrors, hshape⟩ := grown_annotate hread hclean
    (fun place hplace => by
      have h := hplaces place hplace
      cases hkind : place.2 with
      | leadingComment anchor => simp [hkind] at h
      | markupSibling anchor => exact ⟨anchor, rfl⟩)
    hunblocked
  refine ⟨file, output, other, hread, hannotate, hother, herrors, hshape.trans ?_⟩
  congr 1
  funext b
  rw [annotatedAt, ← hstarts, List.count, List.countP_map]
  rfl

end Structural

end ExpectError
