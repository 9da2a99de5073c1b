import ExpectError.Passes
import ExpectError.Proofs.FileContents
import ExpectError.Proofs.Issues

/-!
# Files that diagnostics are about

The pass over diagnostics handles the files that they name one after another, in the order of the
bytes of their path names, and the first failure ends it. If the path names lead to places of their
own, then every file is still as it was at the beginning when its turn comes. So what has been
written, at the end or at a failure, is known from the files as they were.

* `IsReported`, `ownMarks`: the files with diagnostics, and the diagnostics of each;
* `Stops`: why the pass cannot get on with a file;
* `Reached`: the state of the pass behind some files;
* `runFiles_reached`: the pass goes from file to file, or stops at one;
* `run_in_order`: what there is when it ends.
-/

namespace ExpectError.Offset

open Text (bytesOf)
open FileTree (SameForm)

variable {diagnostics : List Diagnostic} {marks : List (String × Mark)} {first tree : FileTree}
  {file : String} {own : List Mark} {files done rest : List String} {modified : ℕ}

/-! ### Diagnostics and their files -/

/-- The starts and the codes of the diagnostics of a file, in order. -/
def ownMarks (diagnostics : List Diagnostic) (file : String) : List Mark :=
  diagnostics.filterMap fun d =>
    if d.file = some file then d.start.map fun start => { start, code := d.code } else none

/-- A source file with a diagnostic that has a start. -/
def IsReported (diagnostics : List Diagnostic) (file : String) : Prop :=
  isSupported file = true ∧ ∃ d ∈ diagnostics, d.file = some file ∧ d.start.isSome = true

theorem marksOf_located (diagnostics : List Diagnostic) (file : String) :
    marksOf (located diagnostics) file = ownMarks diagnostics file := by
  induction diagnostics with
  | nil => rfl
  | cons d diagnostics ih =>
    rw [marksOf, located, ownMarks] at ih ⊢
    obtain ⟨named, start, _, _, _, code⟩ := d
    cases named with
    | none => simpa [Diagnostic.location?] using ih
    | some named =>
      cases start with
      | none => simpa [Diagnostic.location?] using ih
      | some start =>
        by_cases hnamed : named = file <;> simpa [Diagnostic.location?, hnamed] using ih

theorem length_located (diagnostics : List Diagnostic) :
    (located diagnostics).length =
      diagnostics.countP fun d => d.file.isSome && d.start.isSome := by
  rw [located, List.length_filterMap_eq_countP]
  refine List.countP_congr fun d _ => ?_
  obtain ⟨named, start, _, _, _, code⟩ := d
  cases named <;> cases start <;> simp [Diagnostic.location?]

theorem mem_map_located :
    file ∈ (located diagnostics).map (·.1) ↔
      ∃ d ∈ diagnostics, d.file = some file ∧ d.start.isSome = true := by
  simp only [located, List.mem_map, List.mem_filterMap]
  constructor
  · rintro ⟨⟨named, mark⟩, ⟨d, hd, hlocated⟩, rfl⟩
    refine ⟨d, hd, ?_⟩
    obtain ⟨named', start, _, _, _, code⟩ := d
    cases named' <;> cases start <;> simp_all [Diagnostic.location?]
  · rintro ⟨d, hd, hfile, hstart⟩
    obtain ⟨start, hstart⟩ := Option.isSome_iff_exists.1 hstart
    exact ⟨(file, { start, code := d.code }),
      ⟨d, hd, by simp [Diagnostic.location?, hfile, hstart]⟩, rfl⟩

theorem filesOf_of_pairwise {marks : List (String × Mark)}
    (h : (marks.map (·.1)).eraseDups.Pairwise fun a b => decide (a ≤ b) = true) :
    filesOf marks = (marks.map (·.1)).eraseDups :=
  List.mergeSort_of_pairwise h

/-- The files are handled in the order of the bytes of their path names. -/
theorem pairwise_filesOf (marks : List (String × Mark)) :
    (filesOf marks).Pairwise fun a b => bytesOf a < bytesOf b := by
  have hsorted : (filesOf marks).Pairwise fun a b => a ≤ b :=
    (List.pairwise_mergeSort (fun a b c => by simpa using String.le_trans)
      (fun a b => by simpa using String.le_total a b) _).imp (by simp)
  have hnodup : (filesOf marks).Nodup :=
    (List.mergeSort_perm _ _).nodup_iff.2 (nodup_eraseDups _)
  refine hsorted.imp₂ (fun a b hle hne => ?_) hnodup
  have hlt : a < b := String.not_le.1 fun hge => hne (String.le_antisymm hle hge)
  rw [Text.bytesOf_eq_flatMap, Text.bytesOf_eq_flatMap]
  exact Text.flatMap_utf8EncodeChar_lt hlt

theorem mem_filesOf_located :
    file ∈ (filesOf (located diagnostics)).filter isSupported ↔ IsReported diagnostics file := by
  rw [List.mem_filter, filesOf, List.mem_mergeSort, List.mem_eraseDups, mem_map_located, and_comm]
  rfl

/-! ### One file -/

/-- The text of a file can be annotated, and the file can be written if that changes it. -/
def CanBeAnnotated (tree : FileTree) (file : String) (own : List Mark) : Prop :=
  ∃ source output, tree.readText (.ofString file) = .ok source ∧
    annotate? file source own = some output ∧
    (output ≠ source → ∃ tree', tree.writeText (.ofString file) output = .ok tree')

/-- A file holds the annotation of the text that it held in another tree. -/
def IsAnnotated (first tree : FileTree) (file : String) (own : List Mark) : Prop :=
  ∃ source output, first.readText (.ofString file) = .ok source ∧
    annotate? file source own = some output ∧ tree.readText (.ofString file) = .ok output

/-- Why the pass cannot get on with a file. -/
inductive Stops (tree : FileTree) (file : String) (own : List Mark) : Failure → Prop
  | unreadable {cause : FileError} (hread : tree.readText (.ofString file) = .error cause) :
      Stops tree file own (.unreadable file cause)
  | endless {source : String} (hread : tree.readText (.ofString file) = .ok source)
      (hannotate : annotate? file source own = none) : Stops tree file own (.endless file)
  | unwritable {source output : String} {cause : FileError}
      (hread : tree.readText (.ofString file) = .ok source)
      (hannotate : annotate? file source own = some output) (hne : output ≠ source)
      (hwrite : tree.writeText (.ofString file) output = .error cause) :
      Stops tree file own (.unwritable file cause)

theorem Stops.not_canBeAnnotated {failure : Failure} (h : Stops tree file own failure) :
    ¬CanBeAnnotated tree file own := by
  rintro ⟨source, output, hread, hannotate, hwrite⟩
  cases h with
  | unreadable hread' => cases hread.symm.trans hread'
  | endless hread' hannotate' =>
    cases hread.symm.trans hread'
    cases hannotate.symm.trans hannotate'
  | unwritable hread' hannotate' hne hwrite' =>
    cases hread.symm.trans hread'
    cases hannotate.symm.trans hannotate'
    obtain ⟨tree', hok⟩ := hwrite hne
    cases hok.symm.trans hwrite'

/-- What the pass does with a file that is as it was in the first tree: the file is annotated and
nothing else changes, or the pass stops. -/
theorem annotateFile_cases (hform : SameForm first tree) (hkept : first.SameAt tree (.ofString file))
    (own : List Mark) :
    (∃ tree' changed, annotateFile tree file own = .ok (tree', changed) ∧ SameForm first tree' ∧
      IsAnnotated first tree' file own ∧ CanBeAnnotated first file own ∧
      (changed = true ↔
        tree'.readBytes (.ofString file) ≠ first.readBytes (.ofString file)) ∧
      ∀ names, first.locate (.ofString file) ≠ .ok names → tree'.find? names = tree.find? names) ∨
    ∃ failure, annotateFile tree file own = .error failure ∧ Stops first file own failure := by
  have hread := FileTree.readText_congr (hform.locate_eq (.ofString file)) hkept
  rw [annotateFile, hread]
  cases hsource : first.readText (.ofString file) with
  | error cause => exact Or.inr ⟨_, rfl, .unreadable hsource⟩
  | ok source =>
    have hbytes := FileTree.readText_eq_ok_iff.1 hsource
    cases hannotate : annotate? file source own with
    | none => exact Or.inr ⟨_, by simp [hannotate], .endless hsource hannotate⟩
    | some output =>
      by_cases hne : output = source
      · subst hne
        refine Or.inl ⟨tree, false, by simp [hannotate], hform,
          ⟨output, output, hsource, hannotate, hread.trans hsource⟩,
          ⟨output, output, hsource, hannotate, fun h => absurd rfl h⟩, ?_, fun _ _ => rfl⟩
        simp [FileTree.readBytes_congr (hform.locate_eq (.ofString file)) hkept]
      -- the file is still where it was in the first tree, with the same contents
      · obtain ⟨names, executable, hfile⟩ := FileTree.exists_fileAt_of_readText hsource
        have hnow : tree.FileAt (.ofString file) names (bytesOf source) executable :=
          ⟨(hform.locate_eq _).trans hfile.locate_eq,
            (hkept _ hfile.locate_eq).trans hfile.find?_eq⟩
        cases hwritable : first.isWritable names with
        | false =>
          have hdenied : first.writeText (.ofString file) output = .error .denied := by
            rw [hfile.writeText_eq, hwritable, if_neg Bool.false_ne_true]
          have hdenied' : tree.writeText (.ofString file) output = .error .denied := by
            rw [hnow.writeText_eq, hform.isWritable_eq, hwritable, if_neg Bool.false_ne_true]
          exact Or.inr ⟨_, by simp [hannotate, hne, hdenied'],
            .unwritable hsource hannotate hne hdenied⟩
        | true =>
          obtain ⟨tree', hwrite, hform', hfind, helse⟩ :=
            hform.exists_writeText hnow hwritable output
          have hat : tree'.FileAt (.ofString file) names (bytesOf output) executable :=
            ⟨(hform'.locate_eq _).trans hfile.locate_eq, hfind⟩
          refine Or.inl ⟨tree', true, by simp [hannotate, hne, hwrite], hform',
            ⟨source, output, hsource, hannotate, hat.readText_eq⟩,
            ⟨source, output, hsource, hannotate, fun _ =>
              ⟨_, (hfile.writeText_eq output).trans (if_pos hwritable)⟩⟩, ?_,
            fun other hother => helse other fun h => hother (h ▸ hfile.locate_eq)⟩
          rw [hat.readBytes_eq, hbytes]
          simpa using hne

/-! ### One file after another -/

/-- The files whose bytes are different in two trees. -/
def changedFiles (first tree : FileTree) (files : List String) : ℕ :=
  files.countP fun file => decide (tree.readBytes (.ofString file) ≠ first.readBytes (.ofString file))

/-- The state of the pass behind some files: they are annotated, and nothing else has changed. -/
structure Reached (marks : List (String × Mark)) (first : FileTree) (done : List String)
    (tree : FileTree) (modified : ℕ) : Prop where
  form : SameForm first tree
  annotated : ∀ file ∈ done, IsAnnotated first tree file (marksOf marks file)
  can : ∀ file ∈ done, CanBeAnnotated first file (marksOf marks file)
  elsewhere : ∀ names, (∀ file ∈ done, first.locate (.ofString file) ≠ .ok names) →
    tree.find? names = first.find? names
  modified_eq : modified = changedFiles first tree done

theorem Reached.start (marks : List (String × Mark)) (first : FileTree) :
    Reached marks first [] first 0 :=
  ⟨.refl first, by simp, by simp, fun _ _ => rfl, rfl⟩

/-- Path names that lead to other places than the files behind are as they were. -/
theorem Reached.sameAt (h : Reached marks first done tree modified) {path : Pathname}
    (hapart : ∀ file ∈ done, first.Apart (.ofString file) path) : first.SameAt tree path :=
  fun names hnames => h.elsewhere names fun file hfile hlocate => hapart file hfile names hlocate hnames

theorem Reached.readBytes_eq (h : Reached marks first done tree modified) {path : Pathname}
    (hapart : ∀ file ∈ done, first.Apart (.ofString file) path) :
    tree.readBytes path = first.readBytes path :=
  FileTree.readBytes_congr (h.form.locate_eq path) (h.sameAt hapart)

/-- What has been written of a file stays if only other places change. -/
theorem IsAnnotated.congr {other : FileTree} (h : IsAnnotated first tree file own)
    (hlocate : other.locate (.ofString file) = tree.locate (.ofString file))
    (hkept : tree.SameAt other (.ofString file)) : IsAnnotated first other file own := by
  obtain ⟨source, output, hread, hannotate, hnow⟩ := h
  exact ⟨source, output, hread, hannotate, (FileTree.readText_congr hlocate hkept).trans hnow⟩

/-- One more file: it is annotated, or the pass stops at it. -/
theorem Reached.step (h : Reached marks first done tree modified)
    (hapart : ∀ earlier ∈ done, first.Apart (.ofString earlier) (.ofString file)) :
    (∃ tree' changed, annotateFile tree file (marksOf marks file) = .ok (tree', changed) ∧
      Reached marks first (done ++ [file]) tree' (if changed then modified + 1 else modified)) ∨
    ∃ failure, annotateFile tree file (marksOf marks file) = .error failure ∧
      Stops first file (marksOf marks file) failure := by
  rcases annotateFile_cases h.form (h.sameAt hapart) (marksOf marks file) with
    ⟨tree', changed, hrun, hform, hannotated, hcan, hchanged, helse⟩ | hstop
  · have hlocate (path : Pathname) : tree'.locate path = tree.locate path :=
      (hform.locate_eq path).trans (h.form.locate_eq path).symm
    have hkept : ∀ other ∈ done, tree.SameAt tree' (.ofString other) := fun other hother names hnames =>
      helse names (hapart other hother names ((h.form.locate_eq _).symm.trans hnames))
    refine Or.inl ⟨tree', changed, hrun, hform, ?_, ?_, ?_, ?_⟩
    · exact List.forall_mem_append.2
        ⟨fun other hother => (h.annotated other hother).congr (hlocate _) (hkept other hother),
          by simpa using hannotated⟩
    · exact List.forall_mem_append.2 ⟨h.can, by simpa using hcan⟩
    · intro names hnames
      exact (helse names (hnames file (by simp))).trans
        (h.elsewhere names fun earlier hearlier => hnames earlier (by simp [hearlier]))
    · -- the count of the earlier files is as before, since this file is apart from them
      have hbehind : changedFiles first tree' done = modified := by
        rw [h.modified_eq]
        exact List.countP_congr fun other hother => by
          rw [FileTree.readBytes_congr (hlocate _) (hkept other hother)]
      rw [changedFiles, List.countP_append, List.countP_singleton]
      rw [changedFiles] at hbehind
      cases changed <;> simp_all
  · exact Or.inr hstop

/-- The pass goes through the files, or it stops at one of them, which is as it was. -/
theorem runFiles_reached (h : Reached marks first done tree modified)
    (hsupported : ∀ file ∈ rest, isSupported file = true)
    (hapart : (done ++ rest).Pairwise fun a b => first.Apart (.ofString a) (.ofString b)) :
    (∃ tree' modified', runFiles marks tree modified rest = (tree', .ok modified') ∧
      Reached marks first (done ++ rest) tree' modified') ∨
    ∃ before file after failure tree' modified', rest = before ++ file :: after ∧
      runFiles marks tree modified rest = (tree', .error failure) ∧
      Reached marks first (done ++ before) tree' modified' ∧
      Stops first file (marksOf marks file) failure := by
  induction rest generalizing done tree modified with
  | nil => exact Or.inl ⟨tree, modified, rfl, by simpa using h⟩
  | cons file rest ih =>
    have hfile : ∀ earlier ∈ done, first.Apart (.ofString earlier) (.ofString file) :=
      fun earlier hearlier =>
        (List.pairwise_append.1 hapart).2.2 earlier hearlier file List.mem_cons_self
    rw [runFiles, if_pos (hsupported file List.mem_cons_self)]
    rcases h.step hfile with ⟨tree', changed, hrun, hnext⟩ | ⟨failure, hrun, hstop⟩
    · rw [hrun]
      have hmore := ih hnext (fun other hother => hsupported other (List.mem_cons_of_mem _ hother))
        (by simpa using hapart)
      simp only [List.append_assoc, List.singleton_append] at hmore
      rcases hmore with hend | ⟨before, stopped, after, failure, tree'', modified', rfl, hend⟩
      · exact Or.inl hend
      · exact Or.inr ⟨file :: before, stopped, after, failure, tree'', modified', rfl, hend⟩
    · rw [hrun]
      exact Or.inr ⟨[], file, rest, failure, tree, modified, rfl, rfl, by simpa using h, hstop⟩

/-- Files that are no source files do not matter. -/
theorem runFiles_filter (marks : List (String × Mark)) (tree : FileTree) (modified : ℕ)
    (files : List String) :
    runFiles marks tree modified (files.filter isSupported) = runFiles marks tree modified files := by
  induction files generalizing tree modified with
  | nil => rfl
  | cons file files ih =>
    by_cases hfile : isSupported file = true
    · rw [List.filter_cons_of_pos hfile, runFiles, runFiles, if_pos hfile, if_pos hfile]
      cases annotateFile tree file (marksOf marks file) with
      | error failure => rfl
      | ok answer => exact ih _ _
    · rw [List.filter_cons_of_neg hfile, ih, runFiles, if_neg hfile]

/-! ### The end -/

/-- The path names of reported files lead to places of their own. The reported files are handled in
the order of the bytes of their path names. If every one of them can be annotated, then the pass
succeeds, each of them holds the annotation of its old text for just its own diagnostics in order,
and the files that changed and the diagnostics with a file and a start are counted. If the pass
stops, then it cannot get on with some file; the files in front of that one are annotated in the
same way, and that one and everything behind it is as it was. Nothing else changes in either
case. -/
theorem run_in_order {tree : FileTree} {diagnostics : List Diagnostic}
    (hapart : ∀ a b, IsReported diagnostics a → IsReported diagnostics b → a ≠ b →
      tree.Apart (.ofString a) (.ofString b)) :
    ∃ files : List String, (files.Pairwise fun a b => bytesOf a < bytesOf b) ∧
      (∀ file, file ∈ files ↔ IsReported diagnostics file) ∧
      ((∀ file ∈ files, CanBeAnnotated tree file (ownMarks diagnostics file)) →
        (run tree diagnostics).2 = .ok
          { filesModified := changedFiles tree (run tree diagnostics).1 files
            issues := diagnostics.countP fun d => d.file.isSome && d.start.isSome } ∧
        (∀ file ∈ files,
          IsAnnotated tree (run tree diagnostics).1 file (ownMarks diagnostics file)) ∧
        ∀ path, (∀ file ∈ files, tree.Apart (.ofString file) path) →
          (run tree diagnostics).1.readBytes path = tree.readBytes path) ∧
      ∀ failure, (run tree diagnostics).2 = .error failure →
        ∃ before file after, files = before ++ file :: after ∧
          Stops tree file (ownMarks diagnostics file) failure ∧
          (∀ earlier ∈ before,
            IsAnnotated tree (run tree diagnostics).1 earlier (ownMarks diagnostics earlier)) ∧
          (∀ other ∈ file :: after, (run tree diagnostics).1.readBytes (.ofString other) =
            tree.readBytes (.ofString other)) ∧
          ∀ path, (∀ earlier ∈ before, tree.Apart (.ofString earlier) path) →
            (run tree diagnostics).1.readBytes path = tree.readBytes path := by
  obtain ⟨files, hfiles⟩ : ∃ files, (filesOf (located diagnostics)).filter isSupported = files :=
    ⟨_, rfl⟩
  have hsorted : files.Pairwise fun a b => bytesOf a < bytesOf b :=
    hfiles ▸ (pairwise_filesOf (located diagnostics)).filter isSupported
  have hreported : ∀ file, file ∈ files ↔ IsReported diagnostics file :=
    fun file => hfiles ▸ mem_filesOf_located
  have hpairwise : files.Pairwise fun a b => tree.Apart (.ofString a) (.ofString b) :=
    hsorted.imp_of_mem fun {a b} ha hb hlt => hapart a b ((hreported a).1 ha) ((hreported b).1 hb)
      fun heq => List.lt_irrefl _ (heq ▸ hlt)
  refine ⟨files, hsorted, hreported, ?_⟩
  rw [run, ← runFiles_filter, hfiles, length_located]
  simp only [← marksOf_located]
  -- where the loop over the sorted files ends: behind the last of them or at one that stops it
  rcases runFiles_reached (.start (located diagnostics) tree)
      (fun file hfile => ((hreported file).1 hfile).1) hpairwise with
    ⟨tree', modified, hrun, hend⟩ | ⟨before, file, after, failure, tree', modified, hsplit, hrun, hend, hstop⟩
  · rw [hrun]
    refine ⟨fun _ => ⟨?_, hend.annotated, fun path => hend.readBytes_eq⟩, fun failure h => ?_⟩
    · rw [hend.modified_eq]
      rfl
    · cases h
  · rw [hrun]
    rw [List.nil_append] at hend
    refine ⟨fun hcan => ?_, fun failure' h => ?_⟩
    · exact absurd (hcan file (by simp [hsplit])) hstop.not_canBeAnnotated
    · cases h
      refine ⟨before, file, after, hsplit, hstop, hend.annotated, fun other hother => ?_,
        fun path => hend.readBytes_eq⟩
      rw [hsplit] at hpairwise
      exact hend.readBytes_eq fun earlier hearlier =>
        (List.pairwise_append.1 hpairwise).2.2 earlier hearlier other hother

/-- Two reported files, of which the second one can only be read. -/
theorem run_in_order_readOnly :
    let tree : FileTree :=
      { entries := [([['r']], .folder), ([['r'], "a.ts".toList], .file "a\n".toUTF8.toList false),
          ([['r'], "b.ts".toList], .file "b\n".toUTF8.toList false)]
        readOnly := [[['r'], "b.ts".toList]] }
    let diagnostics : List Diagnostic :=
      [{ file := some "/r/a.md", start := some 0, message := "", code := 9 },
        { file := some "/r/a.ts", start := some 0, message := "", code := 8 },
        { file := some "/r/b.ts", start := some 0, message := "", code := 7 }]
    (∀ a b, IsReported diagnostics a → IsReported diagnostics b → a ≠ b →
      tree.Apart (.ofString a) (.ofString b)) ∧
    (run tree diagnostics).2 = .error (.unwritable "/r/b.ts" .denied) ∧
    (run tree diagnostics).1.readText (.ofString "/r/a.ts") =
      .ok "// @ts-expect-error ratchet TS8 (ts-morph)\na\n" ∧
    ∃ before after, (∀ file, file ∈ before ++ "/r/b.ts" :: after ↔ IsReported diagnostics file) ∧
      (∀ earlier ∈ before,
        IsAnnotated tree (run tree diagnostics).1 earlier (ownMarks diagnostics earlier)) ∧
      ∀ other ∈ "/r/b.ts" :: after, (run tree diagnostics).1.readBytes (.ofString other) =
        tree.readBytes (.ofString other) := by
  intro tree diagnostics
  have hreported : ∀ file, IsReported diagnostics file → file = "/r/a.ts" ∨ file = "/r/b.ts" := by
    rintro file ⟨hsupported, d, hd, hfile, -⟩
    simp only [diagnostics, List.mem_cons, List.not_mem_nil, or_false] at hd
    rcases hd with rfl | rfl | rfl <;> cases hfile
    · exact absurd hsupported (by decide +kernel)
    · exact Or.inl rfl
    · exact Or.inr rfl
  have ha : tree.locate (.ofString "/r/a.ts") = .ok [['r'], "a.ts".toList] := by decide +kernel
  have hb : tree.locate (.ofString "/r/b.ts") = .ok [['r'], "b.ts".toList] := by decide +kernel
  have hab : tree.Apart (.ofString "/r/a.ts") (.ofString "/r/b.ts") := by
    intro names hnames hother
    have := (ha.symm.trans hnames).trans (hother.symm.trans hb)
    simp at this
  have hapart : ∀ a b, IsReported diagnostics a → IsReported diagnostics b → a ≠ b →
      tree.Apart (.ofString a) (.ofString b) := by
    intro a b hra hrb hne
    rcases hreported a hra with rfl | rfl <;> rcases hreported b hrb with rfl | rfl
    · exact absurd rfl hne
    · exact hab
    · exact hab.symm
    · exact absurd rfl hne
  -- the sorted list is found from the order of its members, so that only the loop is evaluated
  have hfiles : filesOf (located diagnostics) = ["/r/a.md", "/r/a.ts", "/r/b.ts"] :=
    filesOf_of_pairwise (by decide +kernel)
  have hrun : (run tree diagnostics).2 = .error (.unwritable "/r/b.ts" .denied) ∧
      (run tree diagnostics).1.readText (.ofString "/r/a.ts") =
        .ok "// @ts-expect-error ratchet TS8 (ts-morph)\na\n" := by
    rw [run, hfiles]
    decide +kernel
  refine ⟨hapart, hrun.1, hrun.2, ?_⟩
  obtain ⟨files, -, hmem, -, hstopped⟩ := run_in_order hapart
  obtain ⟨before, file, after, rfl, hstop, hbefore, hafter, -⟩ := hstopped _ hrun.1
  cases hstop
  exact ⟨before, after, hmem, hbefore, hafter⟩

/-- Two path names of one file: the file is annotated under the first one, and then the diagnostic
of the second one is looked for in the text that has grown. -/
theorem run_two_names_of_one_file :
    let tree : FileTree :=
      { entries := [([['r']], .folder),
          ([['r'], "a.ts".toList], .file "x;\ny;\n".toUTF8.toList false)] }
    let diagnostics : List Diagnostic :=
      [{ file := some "/r/./a.ts", start := some 0, message := "", code := 1 },
        { file := some "/r/a.ts", start := some 3, message := "", code := 2 }]
    (∀ file ∈ ["/r/./a.ts", "/r/a.ts"], IsReported diagnostics file ∧
      CanBeAnnotated tree file (ownMarks diagnostics file) ∧
      ¬IsAnnotated tree (run tree diagnostics).1 file (ownMarks diagnostics file)) ∧
    (run tree diagnostics).2 = .ok { filesModified := 2, issues := 2 } ∧
    (run tree diagnostics).1.readText (.ofString "/r/a.ts") =
      .ok ("// @ts-expect-error ratchet TS1 (ts-morph)\n" ++
        "// @ts-expect-error ratchet TS2 (ts-morph)\nx;\ny;\n") := by
  intro tree diagnostics
  have hfiles : filesOf (located diagnostics) = ["/r/./a.ts", "/r/a.ts"] :=
    filesOf_of_pairwise (by decide +kernel)
  obtain ⟨hsummary, hread⟩ : (run tree diagnostics).2 = .ok { filesModified := 2, issues := 2 } ∧
      ∀ file ∈ ["/r/./a.ts", "/r/a.ts"], tree.readText (.ofString file) = .ok "x;\ny;\n" ∧
        (run tree diagnostics).1.readText (.ofString file) =
          .ok ("// @ts-expect-error ratchet TS1 (ts-morph)\n" ++
            "// @ts-expect-error ratchet TS2 (ts-morph)\nx;\ny;\n") := by
    rw [run, hfiles]
    decide +kernel
  have hone : ∀ file ∈ ["/r/./a.ts", "/r/a.ts"], ∀ output,
      annotate? file "x;\ny;\n" (ownMarks diagnostics file) = some output →
      output ≠ "// @ts-expect-error ratchet TS1 (ts-morph)\n" ++
        "// @ts-expect-error ratchet TS2 (ts-morph)\nx;\ny;\n" →
      IsReported diagnostics file → IsReported diagnostics file ∧
        CanBeAnnotated tree file (ownMarks diagnostics file) ∧
        ¬IsAnnotated tree (run tree diagnostics).1 file (ownMarks diagnostics file) := by
    intro file hfile output hannotate hne hreported
    obtain ⟨hold, hnew⟩ := hread file hfile
    obtain ⟨names, executable, hat⟩ := FileTree.exists_fileAt_of_readText hold
    refine ⟨hreported, ⟨_, output, hold, hannotate, fun _ =>
      ⟨_, (hat.writeText_eq output).trans (if_pos rfl)⟩⟩, ?_⟩
    rintro ⟨source, output', hold', hannotate', hnew'⟩
    cases hold.symm.trans hold'
    cases hannotate.symm.trans hannotate'
    exact hne (Except.ok.inj (hnew'.symm.trans hnew))
  refine ⟨List.forall_mem_cons.2 ⟨?_, List.forall_mem_singleton.2 ?_⟩, hsummary,
    (hread "/r/a.ts" (by simp)).2⟩
  · exact hone _ (by simp) "// @ts-expect-error ratchet TS1 (ts-morph)\nx;\ny;\n"
      (by decide +kernel) (by decide) ⟨by decide +kernel, _, List.mem_cons_self, rfl, rfl⟩
  · exact hone _ (by simp) "x;\n// @ts-expect-error ratchet TS2 (ts-morph)\ny;\n"
      (by decide +kernel) (by decide)
      ⟨by decide +kernel, _, List.mem_cons_of_mem _ List.mem_cons_self, rfl, rfl⟩

end ExpectError.Offset
