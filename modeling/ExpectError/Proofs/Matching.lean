import ExpectError.Proofs.Annotation
import ExpectError.Proofs.Issues
import ExpectError.Proofs.Lines

/-!
# Issues and spans

An issue and a node are compared by their ranges, lines and columns counted from one, although both
come from byte offsets. In a text that is read without errors this loses nothing: ranges between
boundaries determine their offsets, and every node starts and stops at a boundary.

* `nodeAt?_rangeOf`: the node found for a range is the first one with the span of that range;
* `forall₂_standsFor`: the issues of a file match the nodes with the spans of its diagnostics.
-/

open ExpectError.Tree (Path)

namespace ExpectError.Structural

open Text

theorem CleanFile.isBoundary_of_mem_paths {file : SourceFile} (hfile : CleanFile file) {p : Path}
    (h : p ∈ file.tree.paths) :
    IsBoundary file.text p.node.start ∧ IsBoundary file.text p.node.stop := by
  refine hfile.filled.place_of_mem_paths ⟨?_, ?_⟩ h
  · rw [hfile.start_eq]
    exact isBoundary_zero _
  · rw [hfile.stop_eq]
    exact isBoundary_byteLength _

/-- The node that is found for the range of two boundaries is the first one that spans them. -/
theorem nodeAt?_rangeOf {file : SourceFile} (hfile : CleanFile file) {s e : ℕ}
    (hs : IsBoundary file.text s) (he : IsBoundary file.text e) :
    nodeAt? (nodesByRange file) ((LineMap.ofText file.text).rangeOf s e) =
      file.tree.paths.find? (Path.spans s e) := by
  rw [nodeAt?_eq_find?]
  refine List.find?_congr fun p hp => ?_
  obtain ⟨hstart, hstop⟩ := hfile.isBoundary_of_mem_paths hp
  rw [Bool.eq_iff_iff, beq_iff_eq, LineMap.rangeOf_inj hs he hstart hstop, Path.spans_iff]
  exact and_congr eq_comm eq_comm

/-- Is a diagnostic about a file, with a start in it? -/
def isLocatedIn (path : String) (d : Diagnostic) : Bool :=
  d.file = some path && d.start.isSome

/-- An issue stands for a diagnostic in a file: if the diagnostic starts and stops at boundaries of
the text, a node is found for the issue exactly if one has the diagnostic's span, and it is then the
first node with this span and an ancestor of any other, or the same. -/
def StandsFor (file : SourceFile) (d : Diagnostic) (issue : Issue) : Prop :=
  ∀ s, d.start = some s → IsBoundary file.text s → IsBoundary file.text (s + d.length.getD 0) →
    ((nodeAt? (nodesByRange file) issue.range).isSome = true ↔
      ∃ node ∈ file.tree.preorder, node.start = s ∧ node.stop = s + d.length.getD 0) ∧
    ∀ path, nodeAt? (nodesByRange file) issue.range = some path →
      file.tree.paths.find? (Path.spans s (s + d.length.getD 0)) = some path ∧
      ∀ other ∈ file.tree.paths, other.spans s (s + d.length.getD 0) = true →
        path.chain <:+ other.chain

theorem stop?_eq {d : Diagnostic} {s : ℕ} (hstart : d.start = some s)
    (hle : s + d.length.getD 0 ≤ Diagnostic.maxOffset) : d.stop? = some (s + d.length.getD 0) := by
  rw [Diagnostic.stop?, hstart, Option.map_some, Nat.min_eq_left hle]

theorem standsFor_issueOf {file : SourceFile} (hfile : CleanFile file)
    (hlength : byteLength file.text ≤ Diagnostic.maxOffset) {d : Diagnostic} {start : ℕ}
    (hstart : d.start = some start) :
    StandsFor file d (Reduced.issueOf (LineMap.ofText file.text) start d) := by
  intro s hs hboundary hboundary'
  obtain rfl : start = s := Option.some.inj (hstart.symm.trans hs)
  have hstop := stop?_eq hstart (hboundary'.le.trans hlength)
  have hnode : nodeAt? (nodesByRange file)
      (Reduced.issueOf (LineMap.ofText file.text) start d).range =
        file.tree.paths.find? (Path.spans start (start + d.length.getD 0)) := by
    rw [← nodeAt?_rangeOf hfile hboundary hboundary', Reduced.issueOf, hstop, Option.getD_some]
  rw [hnode]
  constructor
  · rw [List.isSome_find?, List.any_eq_true, ← Tree.map_node_paths]
    constructor
    · rintro ⟨p, hp, hspans⟩
      exact ⟨p.node, List.mem_map_of_mem hp, Path.spans_iff.1 hspans⟩
    · rintro ⟨node, hmem, hspan⟩
      obtain ⟨p, hp, rfl⟩ := List.mem_map.1 hmem
      exact ⟨p, hp, Path.spans_iff.2 hspan⟩
  · intro path hpath
    exact ⟨hpath, fun other hother hspans => hfile.filled.suffix_of_find? hpath hother hspans⟩

/-- In a text that is read without errors, the issues of a file stand for its diagnostics, one for
each and in their order. -/
theorem forall₂_standsFor {fileName source : String} {file : SourceFile}
    (hread : SourceFile.read? (.ofFileName fileName) source.toList = some file)
    (hclean : file.errors = []) (hlength : byteLength source.toList < 2 ^ 32)
    (texts : String → Option String) (path : String) (hsource : texts path = some source)
    (diagnostics : List Diagnostic) :
    List.Forall₂ (StandsFor file) (diagnostics.filter (isLocatedIn path))
      (((Reduced.ofDiagnostics texts diagnostics).issues.get? path).getD []) := by
  have htext := (SourceFile.tree_eq_of_read? hread).1
  have hfile := cleanFile_of_read? hread hclean
  have hle : byteLength file.text ≤ Diagnostic.maxOffset := by
    rw [htext, Diagnostic.maxOffset]
    omega
  rw [Reduced.getD_get?_ofDiagnostics]
  induction diagnostics with
  | nil => exact .nil
  | cons d diagnostics ih =>
    cases hlocated : isLocatedIn path d with
    | true =>
      rw [isLocatedIn, Bool.and_eq_true, decide_eq_true_iff, Option.isSome_iff_exists] at hlocated
      obtain ⟨hpath, start, hstart⟩ := hlocated
      have hissue : Reduced.issueIn? texts path d =
          some (Reduced.issueOf (LineMap.ofText file.text) start d) := by
        simp [Reduced.issueIn?, Diagnostic.location?, Reduced.sourceOf, hpath, hstart, hsource, htext]
      rw [List.filter_cons_of_pos (by simp [isLocatedIn, hpath, hstart]),
        List.filterMap_cons_some hissue]
      exact .cons (standsFor_issueOf hfile hle hstart) ih
    | false =>
      -- a diagnostic of another file, or without a place, gives no issue here
      have hissue : Reduced.issueIn? texts path d = none := by
        cases hname : d.file with
        | none => simp [Reduced.issueIn?, Diagnostic.location?, hname]
        | some name =>
          cases hstart : d.start with
          | none => simp [Reduced.issueIn?, Diagnostic.location?, hstart]
          | some start =>
            have hne : name ≠ path := by
              rintro rfl
              simp [isLocatedIn, hname, hstart] at hlocated
            simp [Reduced.issueIn?, Diagnostic.location?, hname, hstart, hne]
      rw [List.filter_cons_of_neg (by simp [hlocated]), List.filterMap_cons_none hissue]
      exact ih

/-- The diagnostic about the only name in a text of one letter. -/
theorem forall₂_standsFor_name :
    ∃ file, SourceFile.read? (.ofFileName "a.ts") "a".toList = some file ∧
      ∃ issue,
        ((Reduced.ofDiagnostics (fun _ => some "a")
          [{ file := some "a.ts", start := some 0, length := some 1, message := "", code := 1 }]
          ).issues.get? "a.ts").getD [] = [issue] ∧
        (nodeAt? (nodesByRange file) issue.range).isSome = true := by
  have heval : (SourceFile.read? (.ofFileName "a.ts") "a".toList).map (fun file =>
      (file.errors, file.text, file.tree.preorder.any fun t => t.start = 0 && t.stop = 1)) =
        some ([], ['a'], true) := by
    decide +kernel
  obtain ⟨file, hread, hfile⟩ := Option.map_eq_some_iff.1 heval
  obtain ⟨hclean, htext, hspan⟩ : file.errors = [] ∧ file.text = ['a'] ∧
      (file.tree.preorder.any fun t => t.start = 0 && t.stop = 1) = true := by
    simpa using hfile
  have hissues := forall₂_standsFor hread hclean (by decide) (fun _ => some "a") "a.ts" rfl
    [{ file := some "a.ts", start := some 0, length := some 1, message := "", code := 1 }]
  obtain ⟨issue, _, hissue, hnil, heq⟩ := List.forall₂_cons_left_iff.1 hissues
  cases hnil
  refine ⟨file, hread, issue, heq, (hissue 0 rfl (isBoundary_zero _) ?_).1.2 ?_⟩
  · rw [htext]
    exact isBoundary_byteLength ['a']
  · simpa using hspan

end ExpectError.Structural
