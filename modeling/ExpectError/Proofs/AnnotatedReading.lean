import ExpectError.Proofs.Annotation
import ExpectError.Proofs.Directives
import ExpectError.Proofs.SpacedReading
import ExpectError.Proofs.SplitLines

/-!
# Reading an annotated text

To the grammar, line comments that are put into a text are blanks and line feeds. So a text that is
annotated with line comments only is read like the text itself, unless a comment tears a token,
brings a line break in front of a token that must not have one, or stands directly behind a division
sign, which takes its first slash.

* `Replaces`: words that can stand in the place of blanks;
* `commented_interleave`: words in front of the boundaries of a text;
* `read?_annotate`: how a text with line comments is read.
-/

open ExpectError.Tree (Path)

namespace ExpectError

open Text

/-! ### Comments in the place of blanks -/

/-- In front of any texts, the words are the blanks with line comments in their place. -/
def Replaces (blanks words : List Char) : Prop :=
  ∀ ⦃xs ys : List Char⦄, Commented false xs ys → Commented false (blanks ++ xs) (words ++ ys)

theorem Replaces.nil : Replaces [] [] :=
  fun _ _ h => h

theorem Replaces.append {blanks words blanks' words' : List Char} (h : Replaces blanks words)
    (h' : Replaces blanks' words') : Replaces (blanks ++ blanks') (words ++ words') := by
  intro xs ys hrest
  rw [List.append_assoc, List.append_assoc]
  exact h (h' hrest)

theorem Replaces.flatMap {ι : Type} {l : List ι} {blanks words : ι → List Char}
    (h : ∀ i ∈ l, Replaces (blanks i) (words i)) : Replaces (l.flatMap blanks) (l.flatMap words) := by
  induction l with
  | nil => exact .nil
  | cons i l ih =>
    obtain ⟨hi, hl⟩ := List.forall_mem_cons.1 h
    rw [List.flatMap_cons, List.flatMap_cons]
    exact hi.append (ih hl)

theorem Replaces.byteLength_eq {blanks words : List Char} (h : Replaces blanks words) :
    byteLength words = byteLength blanks := by
  simpa using (byteLength_of_commented (h .nil)).symm

theorem Replaces.self (words : List Char) : Replaces words words := by
  intro xs ys hrest
  induction words with
  | nil => exact hrest
  | cons c words ih => exact .char ih

theorem isSpacing_of_isIndent {c : Char} (h : isIndent c = true) : isSpacing c = true := by
  simp only [isIndent, Bool.or_eq_true, decide_eq_true_eq] at h
  rcases h with rfl | rfl <;> rfl

theorem commented_plain {words xs ys : List Char} (hwords : ∀ c ∈ words, isPlain c = true)
    (h : Commented true xs ys) :
    Commented true (List.replicate words.length ' ' ++ xs) (words ++ ys) := by
  induction words with
  | nil => exact h
  | cons c words ih =>
    obtain ⟨hc, hwords⟩ := List.forall_mem_cons.1 hwords
    exact .plain hc (ih hwords)

/-- A line comment replaces as many blanks. -/
theorem Replaces.lineComment {words : List Char} (hwords : ∀ c ∈ words, isPlain c = true) :
    Replaces (List.replicate ('/' :: '/' :: words).length ' ' ++ ['\n'])
      ('/' :: '/' :: words ++ ['\n']) := by
  intro xs ys hrest
  have hclosing : Commented true ('\n' :: xs) ('\n' :: ys) :=
    .closing (.char hrest)
  simpa [List.replicate_succ] using Commented.opening (commented_plain hwords hclosing)

/-- Words in front of the boundaries of a text. -/
theorem commented_interleave {blanks words : ℕ → List Char}
    (hreplaces : ∀ b, Replaces (blanks b) (words b)) (pos : ℕ) (text : List Char) :
    Commented false (Insertion.interleave blanks pos text)
      (Insertion.interleave words pos text) := by
  induction text generalizing pos with
  | nil => simpa [Insertion.interleave] using hreplaces pos .nil
  | cons c text ih => exact hreplaces pos (.char (ih _))

/-! ### Annotations -/

theorem isPlain_of_mem_words {code : ℕ} {pass : Pass} {c : Char}
    (h : c ∈ (Directive.words code pass).toList) : isPlain c = true := by
  have hfixed : ∀ word : List Char, word.all isPlain = true → c ∈ word → isPlain c = true :=
    fun word hword => List.all_eq_true.1 hword c
  rw [Directive.toList_words] at h
  simp only [List.mem_append] at h
  rcases h with ((((h | h) | h) | h) | h) | h
  · exact hfixed _ (by decide) h
  · exact hfixed _ (by decide) h
  · have hdigit := Nat.isDigit_of_mem_toDigits (by decide) (by decide) h
    simp [isPlain, Char.isAlphanum, hdigit]
  · exact hfixed _ (by decide) h
  · exact hfixed _ (by cases pass <;> decide) h
  · exact hfixed _ (by decide) h

namespace Structural

open Insertion

/-- The issues of a list that have a place, with their places. -/
def placed (file : SourceFile) (issues : List Issue) : List (Issue × Placement) :=
  issues.filterMap fun issue => do
    let path ← nodeAt? (nodesByRange file) issue.range
    let placement ← placementOf? file path
    return (issue, placement)

/-- The block of an issue, with blanks in the place of the comment's words. -/
def blankBlock (map : LineMap) (place : Issue × Placement) : Insertion :=
  let pos := place.2.anchor.start
  { pos
    text := String.ofList (List.replicate (commentOf place.1.code place.2).toList.length ' ') ++
      "\n" ++ String.ofList (map.indentationOf pos) }

/-- The words of all blocks, with blanks in the place of the comments' words. -/
def blanks (file : SourceFile) (issues : List Issue) : ℕ → List Char :=
  wordsFor ((placed file issues).map (blankBlock (LineMap.ofText file.text)))

theorem filterMap_insertionFor? (file : SourceFile) (issues : List Issue) :
    issues.filterMap (insertionFor? file (LineMap.ofText file.text) (nodesByRange file)) =
      (placed file issues).map fun place =>
        insertionOf (LineMap.ofText file.text) place.1.code place.2 := by
  rw [placed, List.map_filterMap]
  congr 1
  funext issue
  unfold insertionFor?
  cases nodeAt? (nodesByRange file) issue.range with
  | none => rfl
  | some path => cases hplacement : placementOf? file path <;> simp [hplacement]

/-- A block with a line comment replaces the block with blanks in its place. -/
theorem replaces_block (map : LineMap) (place : Issue × Placement)
    (hline : ∃ anchor, place.2 = .leadingComment anchor) :
    Replaces (blankBlock map place).text.toList
      (insertionOf map place.1.code place.2).text.toList := by
  obtain ⟨anchor, hanchor⟩ := hline
  have hcomment : (commentOf place.1.code place.2).toList =
      '/' :: '/' :: (' ' :: (Directive.words place.1.code .structural).toList) := by
    rw [hanchor, commentOf, Directive.lineComment, String.toList_append]
    rfl
  have hplain : ∀ c ∈ ' ' :: (Directive.words place.1.code .structural).toList,
      isPlain c = true :=
    List.forall_mem_cons.2 ⟨rfl, fun _ => isPlain_of_mem_words⟩
  have hblock := (Replaces.lineComment hplain).append
    (.self (map.indentationOf place.2.anchor.start))
  rw [← hcomment] at hblock
  simpa [blankBlock, toList_insertionOf] using hblock

theorem replaces_wordsFor (map : LineMap) {places : List (Issue × Placement)}
    (hline : ∀ place ∈ places, ∃ anchor, place.2 = .leadingComment anchor) (b : ℕ) :
    Replaces (wordsFor (places.map (blankBlock map)) b)
      (wordsFor (places.map fun place => insertionOf map place.1.code place.2) b) := by
  induction places with
  | nil => exact .nil
  | cons place places ih =>
    obtain ⟨hplace, hplaces⟩ := List.forall_mem_cons.1 hline
    rw [List.map_cons, List.map_cons, wordsFor_cons, wordsFor_cons]
    refine Replaces.append ?_ (ih hplaces)
    by_cases hb : place.2.anchor.start = b
    · simpa [blankBlock, insertionOf, hb] using replaces_block map place hplace
    · simpa [blankBlock, insertionOf, hb] using Replaces.nil

theorem isSpacing_of_mem_blankBlock {map : LineMap} {place : Issue × Placement} {c : Char}
    (h : c ∈ (blankBlock map place).text.toList) : isSpacing c = true := by
  simp only [blankBlock, String.toList_append, String.toList_ofList, List.mem_append] at h
  rcases h with (h | h) | h
  · obtain rfl := List.eq_of_mem_replicate h
    rfl
  · obtain rfl := List.mem_singleton.1 h
    rfl
  · exact isSpacing_of_isIndent (LineMap.isIndent_of_mem_indentationOf h)

/-- No anchor of an issue is the end of a text that is not empty. -/
theorem start_lt_of_mem_placed {file : SourceFile} (hfile : CleanFile file) (hne : file.text ≠ [])
    {issues : List Issue} {place : Issue × Placement} (h : place ∈ placed file issues) :
    place.2.anchor.start < byteLength file.text := by
  obtain ⟨issue, -, hplace⟩ := List.mem_filterMap.1 h
  obtain ⟨path, hpath, hplace⟩ := Option.bind_eq_some_iff.1 hplace
  obtain ⟨placement, hplacement, heq⟩ := Option.bind_eq_some_iff.1 hplace
  cases heq
  rw [nodeAt?_eq_find?] at hpath
  have hmem := List.mem_of_find?_eq_some hpath
  have hroot : Tree.isTag file.tree.kind = false := by rw [hfile.kind_eq]
  obtain ⟨_, hplacement', hanchor⟩ :=
    Placement.exists_placementOf? file (hfile.filled.tagsEnclosed hroot hmem)
  cases hplacement.symm.trans hplacement'
  have hlt : file.tree.start < file.tree.stop := by
    rw [hfile.start_eq, hfile.stop_eq]
    exact Nat.pos_of_ne_zero fun hzero => hne (byteLength_eq_zero.1 hzero)
  have hinside := (Tree.inside_of_mem_pathsBelow file.tree hlt
    ⟨hfile.start_eq ▸ isBoundary_zero _, hfile.stop_eq ▸ isBoundary_byteLength _⟩ hfile.filled
    hmem).1
  have hle := hfile.filled.start_le_of_mem_chain hmem _ hanchor
  have hstop := hfile.stop_eq
  show placement.anchor.start < _
  omega

/-- The blanks of an annotated text. -/
theorem isSpacingFor_blanks {file : SourceFile} (hfile : CleanFile file) (hne : file.text ≠ [])
    (issues : List Issue) : IsSpacingFor file.text (blanks file issues) where
  isSpacing b c hc := by
    obtain ⟨block, hblock, hc⟩ := List.mem_flatMap.1 hc
    obtain ⟨place, -, rfl⟩ := List.mem_map.1 (List.mem_filter.1 hblock).1
    exact isSpacing_of_mem_blankBlock hc
  end_eq := by
    refine wordsFor_eq_nil fun hmem => ?_
    obtain ⟨place, hplace, heq⟩ := List.mem_map.1 (List.map_map ▸ hmem)
    exact (start_lt_of_mem_placed hfile hne hplace).ne heq

/-- A text without errors that is annotated with line comments is read without errors again, to a
tree with the same nodes that differs in the offsets only, if the guard `untorn` refuses nothing that
is done in reading the text: with blanks in the place of the comments nothing comes out otherwise, and
none of them stands directly behind a division sign. -/
theorem read?_annotate {fileName source : String} {file : SourceFile} {issues : List Issue}
    (hread : SourceFile.read? (.ofFileName fileName) source.toList = some file)
    (hclean : file.errors = []) (hne : source ≠ "")
    (hline : ∀ place ∈ placed file issues, ∃ anchor, place.2 = .leadingComment anchor)
    (huntorn : SourceFile.isUntorn (.ofFileName fileName) file.text (blanks file issues) = true) :
    ∃ output other, annotate fileName source issues = .ok output ∧
      SourceFile.read? (.ofFileName fileName) output.toList = some other ∧
      other.errors = [] ∧ other.tree.shape = file.tree.shape := by
  have htext := (SourceFile.tree_eq_of_read? hread).1
  have hne : file.text ≠ [] := by simpa [htext] using hne
  obtain ⟨output, hannotate, houtput⟩ := exists_annotate_eq_ok hread hclean issues
  rw [filterMap_insertionFor?, ← htext] at houtput
  have hreplaces := replaces_wordsFor (LineMap.ofText file.text) hline
  obtain ⟨other, hother, hshape, hproblems⟩ := SourceFile.exists_read?_interleave (htext ▸ hread)
    (isSpacingFor_blanks (cleanFile_of_read? hread hclean) hne issues)
    (fun b => (hreplaces b).byteLength_eq) (commented_interleave hreplaces 0 file.text) huntorn
  rw [← houtput] at hother
  refine ⟨output, other, hannotate, hother, ?_, hshape⟩
  simpa [hclean] using hproblems

/-- The two arguments of a call get comments, and the call is read as before. -/
theorem read?_annotate_arguments :
    ∃ (file : SourceFile) (output : String) (other : SourceFile),
      SourceFile.read? (.ofFileName "a.ts") "f(a, b);\n".toList = some file ∧
      annotate "a.ts" "f(a, b);\n" [{ range := ⟨1, 3, 1, 4⟩, code := 1, message := "" },
        { range := ⟨1, 6, 1, 7⟩, code := 2, message := "" }] = .ok output ∧
      SourceFile.read? (.ofFileName "a.ts") output.toList = some other ∧
      other.errors = [] ∧ other.tree.shape = file.tree.shape := by
  have heval : (SourceFile.read? (.ofFileName "a.ts") "f(a, b);\n".toList).map (fun file =>
      let issues : List Issue := [{ range := ⟨1, 3, 1, 4⟩, code := 1, message := "" },
        { range := ⟨1, 6, 1, 7⟩, code := 2, message := "" }]
      (file.errors,
        (placed file issues).all fun place =>
          place.2.casesOn (motive := fun _ => Bool) (fun _ => true) (fun _ => false),
        SourceFile.isUntorn (.ofFileName "a.ts") file.text (blanks file issues))) =
        some ([], true, true) := by
    decide +kernel
  obtain ⟨file, hread, hfile⟩ := Option.map_eq_some_iff.1 heval
  simp only [Prod.mk.injEq, List.all_eq_true] at hfile
  obtain ⟨hclean, hplaces, huntorn⟩ := hfile
  obtain ⟨output, other, hannotate, hsame⟩ := read?_annotate hread hclean (by decide)
    (fun place hplace => by
      have h := hplaces place hplace
      cases hkind : place.2 with
      | leadingComment anchor => exact ⟨anchor, rfl⟩
      | markupSibling anchor => simp [hkind] at h)
    huntorn
  exact ⟨file, output, other, hread, hannotate, hsame⟩

end Structural

end ExpectError
