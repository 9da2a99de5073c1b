import ExpectError.Passes
import ExpectError.Proofs.FileContents

/-!
# Files that are annotated at the same time

The structural pass works on several files at once. The work on one file is a few steps: its text is
read, and if that leads to another text, the file is opened for writing, which empties it, and the
text is written. The steps for different files come in any order. Since every file has a place of
its own, a step changes nothing that the work on another file looks at, so every order leaves the
same files and the same counts as working on one file after another (`Structural.run`).

* `Task`, `Task.step`: the work on one file;
* `Pool`, `Pool.Step`: the work on several files;
* `Stage`: what the work on a file has done so far, said on the files as they were;
* `Pool.Fits.step`: every step keeps all files at their stage;
* `ends_alike`: the end is the same in every order, and what it is for each file.
-/

namespace ExpectError

namespace Structural

open Text (bytesOf)
open FileTree (SameForm)

/-! ### The work on one file -/

/-- How far the work on a file has got. -/
inductive Task where
  | waiting
  /-- The text has been read, and another one is to take its place. -/
  | writing (output : String)
  /-- The file has been opened for writing. -/
  | emptied (output : String)
  | done (outcome : FileOutcome)
  deriving DecidableEq, Repr

/-- Is nothing left to be done? -/
def Task.isDone : Task → Bool
  | .done _ => true
  | _ => false

/-- What reading a file leads to. -/
def Task.afterReading (groups : IssuesByFile) (tree : FileTree) (file : String) : Task :=
  if isSupported file then
    match groups.get? file with
    | none => .done .skip
    | some issues =>
      match tree.readText (.ofString file) with
      | .error _ => .done .error
      | .ok source =>
        match annotate file source issues with
        | .error _ => .done .error
        | .ok output => if output = source then .done .nochange else .writing output
  else .done .skip

/-- One step of the work on a file. -/
def Task.step (groups : IssuesByFile) (file : String) (tree : FileTree) : Task → FileTree × Task
  | .waiting => (tree, afterReading groups tree file)
  | .writing output =>
    match tree.writeText (.ofString file) "" with
    | .error _ => (tree, .done .error)
    | .ok tree => (tree, .emptied output)
  | .emptied output =>
    match tree.writeText (.ofString file) output with
    | .error _ => (tree, .done .error)
    | .ok tree => (tree, .done .ok)
  | .done outcome => (tree, .done outcome)

/-! ### The work on several files -/

/-- The files as they are, and the work on those of a list. -/
structure Pool where
  tree : FileTree
  tasks : List (String × Task)

namespace Pool

/-- Some task that is not done makes one step. -/
inductive Step (groups : IssuesByFile) : Pool → Pool → Prop
  | work (tree : FileTree) (before : List (String × Task)) (file : String) (task : Task)
      (after : List (String × Task)) (h : task.isDone = false) :
      Step groups ⟨tree, before ++ (file, task) :: after⟩
        ⟨(task.step groups file tree).1, before ++ (file, (task.step groups file tree).2) :: after⟩

/-- Any number of steps. -/
abbrev Runs (groups : IssuesByFile) : Pool → Pool → Prop :=
  Relation.ReflTransGen (Step groups)

/-- All files of a list are waiting. -/
def start (tree : FileTree) (files : List String) : Pool :=
  ⟨tree, files.map fun file => (file, .waiting)⟩

/-- Is the work on all files done? -/
def IsDone (pool : Pool) : Prop :=
  ∀ entry ∈ pool.tasks, entry.2.isDone = true

/-- Counts the outcome of a task that is done. -/
def count (summary : Summary) (entry : String × Task) : Summary :=
  match entry.2 with
  | .done outcome => summary.record outcome
  | _ => summary

/-- The counts of the outcomes. -/
def summary (pool : Pool) : Summary :=
  pool.tasks.foldl count {}

end Pool

/-! ### What has been done so far -/

/-- How far the work on a file has got, and what the file holds in the meantime; `first` is the tree
at the beginning. -/
inductive Stage (groups : IssuesByFile) (first : FileTree) (file : String) (tree : FileTree) :
    Task → Prop
  | waiting (hkept : first.SameAt tree (.ofString file)) : Stage groups first file tree .waiting
  | writing {output : String} (hkept : first.SameAt tree (.ofString file))
      (hread : Task.afterReading groups first file = .writing output) :
      Stage groups first file tree (.writing output)
  | emptied {output : String} {names : Names} {content : List UInt8} {executable : Bool}
      (hread : Task.afterReading groups first file = .writing output)
      (hfile : first.FileAt (.ofString file) names content executable)
      (hwritable : first.isWritable names = true)
      (hnow : tree.find? names = some (.file [] executable)) :
      Stage groups first file tree (.emptied output)
  | settled {outcome : FileOutcome} (hkept : first.SameAt tree (.ofString file))
      (hread : Task.afterReading groups first file = .done outcome) :
      Stage groups first file tree (.done outcome)
  | refused {output : String} {names : Names} {content : List UInt8} {executable : Bool}
      (hkept : first.SameAt tree (.ofString file))
      (hread : Task.afterReading groups first file = .writing output)
      (hfile : first.FileAt (.ofString file) names content executable)
      (hwritable : first.isWritable names = false) :
      Stage groups first file tree (.done .error)
  | written {output : String} {names : Names} {content : List UInt8} {executable : Bool}
      (hread : Task.afterReading groups first file = .writing output)
      (hfile : first.FileAt (.ofString file) names content executable)
      (hwritable : first.isWritable names = true)
      (hnow : tree.find? names = some (.file (bytesOf output) executable)) :
      Stage groups first file tree (.done .ok)

variable {groups : IssuesByFile} {first tree other : FileTree} {file : String} {task : Task}

/-- A stage is a matter of the file alone. -/
theorem Stage.congr (h : Stage groups first file tree task)
    (hsame : ∀ names, first.locate (.ofString file) = .ok names →
      other.find? names = tree.find? names) : Stage groups first file other task := by
  have hkept : first.SameAt tree (.ofString file) → first.SameAt other (.ofString file) :=
    fun hkept names hnames => (hsame names hnames).trans (hkept names hnames)
  cases h with
  | waiting h => exact .waiting (hkept h)
  | writing h hread => exact .writing (hkept h) hread
  | emptied hread hfile hwritable hnow =>
    exact .emptied hread hfile hwritable ((hsame _ hfile.locate_eq).trans hnow)
  | settled h hread => exact .settled (hkept h) hread
  | refused h hread hfile hwritable => exact .refused (hkept h) hread hfile hwritable
  | written hread hfile hwritable hnow =>
    exact .written hread hfile hwritable ((hsame _ hfile.locate_eq).trans hnow)

/-- Two pieces of work that are done have the same outcome and leave the same in their file. -/
theorem Stage.unique {outcome outcome' : FileOutcome}
    (h : Stage groups first file tree (.done outcome))
    (h' : Stage groups first file other (.done outcome')) :
    outcome = outcome' ∧ ∀ names, first.locate (.ofString file) = .ok names →
      tree.find? names = other.find? names := by
  -- both have read the first text of the file, so two different ends contradict each other
  cases h with
  | settled hkept hread =>
    cases h' with
    | settled hkept' hread' =>
      cases hread.symm.trans hread'
      exact ⟨rfl, fun names hnames => (hkept names hnames).trans (hkept' names hnames).symm⟩
    | refused _ hread' => cases hread.symm.trans hread'
    | written hread' => cases hread.symm.trans hread'
  | refused hkept hread hfile hwritable =>
    cases h' with
    | settled _ hread' => cases hread.symm.trans hread'
    | refused hkept' _ _ _ =>
      exact ⟨rfl, fun names hnames => (hkept names hnames).trans (hkept' names hnames).symm⟩
    | written _ hfile' hwritable' _ =>
      cases hfile.locate_eq.symm.trans hfile'.locate_eq
      cases hwritable.symm.trans hwritable'
  | written hread hfile hwritable hnow =>
    cases h' with
    | settled _ hread' => cases hread.symm.trans hread'
    | refused _ _ hfile' hwritable' =>
      cases hfile.locate_eq.symm.trans hfile'.locate_eq
      cases hwritable.symm.trans hwritable'
    | written hread' hfile' _ hnow' =>
      cases hread.symm.trans hread'
      cases hfile.locate_eq.symm.trans hfile'.locate_eq
      cases hfile.find?_eq.symm.trans hfile'.find?_eq
      refine ⟨rfl, fun names hnames => ?_⟩
      cases hfile.locate_eq.symm.trans hnames
      exact hnow.trans hnow'.symm

/-! ### One step -/

theorem afterReading_congr (groups : IssuesByFile)
    (hlocate : tree.locate (.ofString file) = first.locate (.ofString file))
    (hkept : first.SameAt tree (.ofString file)) :
    Task.afterReading groups tree file = Task.afterReading groups first file := by
  rw [Task.afterReading, Task.afterReading, FileTree.readText_congr hlocate hkept]

theorem afterReading_eq_writing_iff {output : String} :
    Task.afterReading groups tree file = .writing output ↔
      isSupported file = true ∧ ∃ issues source, groups.get? file = some issues ∧
        tree.readText (.ofString file) = .ok source ∧ annotate file source issues = .ok output ∧
        output ≠ source := by
  rw [Task.afterReading]
  cases hsupported : isSupported file with
  | false => simp
  | true =>
    cases hissues : groups.get? file with
    | none => simp
    | some issues =>
      cases hread : tree.readText (.ofString file) with
      | error e => simp
      | ok source =>
        cases hannotate : annotate file source issues with
        | error e => simp [hannotate]
        | ok found =>
          by_cases hfound : found = source
          · simp only [hannotate, hfound, if_pos, reduceCtorEq, false_iff]
            rintro ⟨-, issues', source', hissues', hsource', hannotate', hne⟩
            cases hissues'
            cases hsource'
            exact hne ((Except.ok.inj (hannotate.symm.trans hannotate')).symm.trans hfound)
          · simp only [hannotate, if_pos, if_neg hfound, Task.writing.injEq]
            constructor
            · rintro rfl
              exact ⟨trivial, issues, source, rfl, rfl, hannotate, hfound⟩
            · rintro ⟨-, issues', source', hissues', hsource', hannotate', -⟩
              cases hissues'
              cases hsource'
              exact Except.ok.inj (hannotate.symm.trans hannotate')

/-- After reading, the work is done or a text is to be written. -/
theorem afterReading_cases (groups : IssuesByFile) (tree : FileTree) (file : String) :
    (∃ outcome, Task.afterReading groups tree file = .done outcome) ∨
      ∃ output, Task.afterReading groups tree file = .writing output := by
  rw [Task.afterReading]
  split
  · split
    · exact Or.inl ⟨_, rfl⟩
    · split
      · exact Or.inl ⟨_, rfl⟩
      · split
        · exact Or.inl ⟨_, rfl⟩
        · split
          · exact Or.inl ⟨_, rfl⟩
          · exact Or.inr ⟨_, rfl⟩
  · exact Or.inl ⟨_, rfl⟩

theorem exists_fileAt_of_afterReading {output : String}
    (h : Task.afterReading groups tree file = .writing output) :
    ∃ names content executable, tree.FileAt (.ofString file) names content executable := by
  obtain ⟨-, _, source, -, hread, -⟩ := afterReading_eq_writing_iff.1 h
  obtain ⟨names, executable, hfile⟩ := FileTree.exists_fileAt_of_readText hread
  exact ⟨names, bytesOf source, executable, hfile⟩

/-- A step takes a file to its next stage, and changes nothing anywhere else. -/
theorem Stage.step (h : Stage groups first file tree task) (hform : SameForm first tree) :
    Stage groups first file (task.step groups file tree).1 (task.step groups file tree).2 ∧
      SameForm first (task.step groups file tree).1 ∧
      ∀ names, first.locate (.ofString file) ≠ .ok names →
        (task.step groups file tree).1.find? names = tree.find? names := by
  cases h with
  | waiting hkept =>
    have hread := afterReading_congr groups (hform.locate_eq _) hkept
    refine ⟨?_, hform, fun _ _ => rfl⟩
    rw [Task.step, hread]
    rcases afterReading_cases groups first file with ⟨outcome, h⟩ | ⟨output, h⟩
    · rw [h]
      exact .settled hkept h
    · rw [h]
      exact .writing hkept h
  | @writing output hkept hread =>
    obtain ⟨names, content, executable, hfile⟩ := exists_fileAt_of_afterReading hread
    -- nobody else writes to this file, so it is as it was when it was read
    have hnow : tree.FileAt (.ofString file) names content executable :=
      ⟨(hform.locate_eq _).trans hfile.locate_eq,
        (hkept _ hfile.locate_eq).trans hfile.find?_eq⟩
    rw [Task.step]
    cases hwritable : first.isWritable names with
    | false =>
      have hdenied : tree.writeText (.ofString file) "" = .error .denied := by
        rw [hnow.writeText_eq, if_neg (by rw [hform.isWritable_eq, hwritable]; decide)]
      rw [hdenied]
      exact ⟨.refused hkept hread hfile hwritable, hform, fun _ _ => rfl⟩
    | true =>
      obtain ⟨tree', hwrite, hform', hfind, helse⟩ := hform.exists_writeText hnow hwritable ""
      rw [hwrite]
      exact ⟨.emptied hread hfile hwritable hfind, hform',
        fun other hother => helse other fun h => hother (h ▸ hfile.locate_eq)⟩
  | @emptied output names content executable hread hfile hwritable hnow =>
    have hat : tree.FileAt (.ofString file) names [] executable :=
      ⟨(hform.locate_eq _).trans hfile.locate_eq, hnow⟩
    obtain ⟨tree', hwrite, hform', hfind, helse⟩ := hform.exists_writeText hat hwritable output
    rw [Task.step, hwrite]
    exact ⟨.written hread hfile hwritable hfind, hform',
      fun other hother => helse other fun h => hother (h ▸ hfile.locate_eq)⟩
  | settled hkept hread => exact ⟨.settled hkept hread, hform, fun _ _ => rfl⟩
  | refused hkept hread hfile hwritable =>
    exact ⟨.refused hkept hread hfile hwritable, hform, fun _ _ => rfl⟩
  | written hread hfile hwritable hnow =>
    exact ⟨.written hread hfile hwritable hnow, hform, fun _ _ => rfl⟩

/-! ### Any number of steps -/

/-- Every file of a pool is at its stage, and nothing else has changed. -/
structure Pool.Fits (groups : IssuesByFile) (first : FileTree) (pool : Pool) : Prop where
  form : SameForm first pool.tree
  apart : pool.tasks.Pairwise fun a b => first.Apart (.ofString a.1) (.ofString b.1)
  stages : ∀ entry ∈ pool.tasks, Stage groups first entry.1 pool.tree entry.2
  elsewhere : ∀ names, (∀ entry ∈ pool.tasks, first.locate (.ofString entry.1) ≠ .ok names) →
    pool.tree.find? names = first.find? names

theorem Pool.Fits.start (groups : IssuesByFile) {files : List String}
    (h : files.Pairwise fun a b => first.Apart (.ofString a) (.ofString b)) :
    (Pool.start first files).Fits groups first where
  form := ⟨fun _ => rfl, rfl⟩
  apart := List.pairwise_map.2 h
  stages entry hentry := by
    obtain ⟨file, -, rfl⟩ := List.mem_map.1 hentry
    exact .waiting fun _ _ => rfl
  elsewhere _ _ := rfl

/-- Every step keeps all files at their stage: its own file goes on to the next one, and the places
of the others are not touched. -/
theorem Pool.Fits.step {pool next : Pool} (h : pool.Fits groups first)
    (hstep : Pool.Step groups pool next) : next.Fits groups first := by
  obtain ⟨tree, before, file, task, after, -⟩ := hstep
  have hmem : (file, task) ∈ before ++ (file, task) :: after := by simp
  obtain ⟨hstage, hform, helse⟩ := (h.stages _ hmem).step h.form
  obtain ⟨hbefore, htail, hcross⟩ := List.pairwise_append.1 h.apart
  obtain ⟨hhead, hafter⟩ := List.pairwise_cons.1 htail
  -- no other file of the pool stands at the place of this one
  have hothers : ∀ entry ∈ before ++ after, ∀ names,
      first.locate (.ofString entry.1) = .ok names → first.locate (.ofString file) ≠ .ok names := by
    intro entry hentry names hnames hfile
    rcases List.mem_append.1 hentry with hentry | hentry
    · exact hcross entry hentry (file, task) (by simp) names hnames hfile
    · exact hhead entry hentry names hfile hnames
  refine ⟨hform, ?_, ?_, ?_⟩
  · exact List.pairwise_append.2 ⟨hbefore, List.pairwise_cons.2 ⟨hhead, hafter⟩,
      fun a ha b hb => by
        rcases List.mem_cons.1 hb with rfl | hb
        · exact hcross a ha (file, task) (by simp)
        · exact hcross a ha b (List.mem_cons_of_mem _ hb)⟩
  · intro entry hentry
    have hcases : entry = (file, (task.step groups file tree).2) ∨ entry ∈ before ++ after := by
      simp only [List.mem_append, List.mem_cons] at hentry ⊢
      tauto
    rcases hcases with rfl | hother
    · exact hstage
    · refine (h.stages entry ?_).congr fun names hnames =>
        helse names (hothers entry hother names hnames)
      simp only [List.mem_append, List.mem_cons] at hother ⊢
      tauto
  · intro names hnames
    have hfile : first.locate (.ofString file) ≠ .ok names :=
      hnames (file, (task.step groups file tree).2) (by simp)
    refine (helse names hfile).trans (h.elsewhere names fun entry hentry => ?_)
    simp only [List.mem_append, List.mem_cons] at hentry
    rcases hentry with hentry | rfl | hentry
    · exact hnames entry (by simp [hentry])
    · exact hfile
    · exact hnames entry (by simp [hentry])

theorem Pool.Fits.runs {pool next : Pool} (h : pool.Fits groups first)
    (hruns : Pool.Runs groups pool next) : next.Fits groups first := by
  induction hruns with
  | refl => exact h
  | tail _ hstep ih => exact ih.step hstep

/-! ### One file after another -/

/-- How many steps the work on a file can still take. -/
def Task.left : Task → ℕ
  | .waiting => 3
  | .writing _ => 2
  | .emptied _ => 1
  | .done _ => 0

theorem Task.left_step_lt (groups : IssuesByFile) (file : String) (tree : FileTree)
    (h : task.isDone = false) : (task.step groups file tree).2.left < task.left := by
  cases task with
  | waiting =>
    rw [Task.step]
    rcases afterReading_cases groups tree file with ⟨outcome, h⟩ | ⟨output, h⟩ <;>
      simp [h, Task.left]
  | writing output => rw [Task.step]; split <;> simp [Task.left]
  | emptied output => rw [Task.step]; split <;> simp [Task.left]
  | done outcome => cases h

namespace Pool

/-- How many steps the work on all files can still take. -/
def left (pool : Pool) : ℕ :=
  (pool.tasks.map fun entry => entry.2.left).sum

theorem Step.left_lt {pool next : Pool} (h : Step groups pool next) : next.left < pool.left := by
  obtain ⟨tree, before, file, task, after, hdone⟩ := h
  have := task.left_step_lt groups file tree hdone
  simp only [left, List.map_append, List.map_cons, List.sum_append, List.sum_cons]
  omega

end Pool

theorem tasks_eq {tasks tasks' : List (String × Task)}
    (hfiles : tasks.map Prod.fst = tasks'.map Prod.fst)
    (h : ∀ entry ∈ tasks, Stage groups first entry.1 tree entry.2 ∧ entry.2.isDone = true)
    (h' : ∀ entry ∈ tasks', Stage groups first entry.1 other entry.2 ∧ entry.2.isDone = true) :
    tasks = tasks' := by
  induction tasks generalizing tasks' with
  | nil => exact (List.map_eq_nil_iff.1 hfiles.symm).symm
  | cons entry tasks ih =>
    obtain ⟨entry', tasks', rfl⟩ : ∃ entry' rest, tasks' = entry' :: rest := by
      cases tasks' with
      | nil => cases hfiles
      | cons entry' rest => exact ⟨entry', rest, rfl⟩
    obtain ⟨file, task⟩ := entry
    obtain ⟨file', task'⟩ := entry'
    obtain ⟨rfl, hrest⟩ := List.cons.inj hfiles
    obtain ⟨⟨hstage, hdone⟩, htail⟩ := List.forall_mem_cons.1 h
    obtain ⟨⟨hstage', hdone'⟩, htail'⟩ := List.forall_mem_cons.1 h'
    rw [ih hrest htail htail']
    cases task <;> cases hdone
    cases task' <;> cases hdone'
    rw [(hstage.unique hstage').1]

/-- Two ends of the work on the same files are the same. -/
theorem Pool.Fits.same {pool other : Pool} (h : pool.Fits groups first)
    (h' : other.Fits groups first) (hfiles : pool.tasks.map Prod.fst = other.tasks.map Prod.fst)
    (hdone : pool.IsDone) (hdone' : other.IsDone) :
    pool.tree.Same other.tree ∧ pool.summary = other.summary := by
  have htasks : pool.tasks = other.tasks :=
    tasks_eq hfiles (fun entry hentry => ⟨h.stages entry hentry, hdone entry hentry⟩)
      (fun entry hentry => ⟨h'.stages entry hentry, hdone' entry hentry⟩)
  refine ⟨⟨h.form.readOnly_eq.trans h'.form.readOnly_eq.symm, fun names => ?_⟩, ?_⟩
  · by_cases hnames : ∃ entry ∈ pool.tasks, first.locate (.ofString entry.1) = .ok names
    · obtain ⟨⟨file, task⟩, hentry, hlocate⟩ := hnames
      have htask := hdone _ hentry
      cases task <;> cases htask
      exact ((h.stages _ hentry).unique (h'.stages _ (htasks ▸ hentry))).2 names hlocate
    · push Not at hnames
      exact (h.elsewhere names hnames).trans (h'.elsewhere names (htasks ▸ hnames)).symm
  · rw [Pool.summary, Pool.summary, htasks]

/-- A file gets another text, or the one that it has: it is a source file with issues, its text can
be read and annotated, and it can be written. -/
def IsRewritten (groups : IssuesByFile) (tree : FileTree) (file : String) : Prop :=
  isSupported file = true ∧ ∃ issues source output tree', groups.get? file = some issues ∧
    tree.readText (.ofString file) = .ok source ∧ annotate file source issues = .ok output ∧
    tree.writeText (.ofString file) output = .ok tree'

theorem afterReading_of_readText {issues : List Issue} {source : String}
    (hsupported : isSupported file = true) (hissues : groups.get? file = some issues)
    (hread : tree.readText (.ofString file) = .ok source) :
    Task.afterReading groups tree file =
      match annotate file source issues with
      | .error _ => .done .error
      | .ok output => if output = source then .done .nochange else .writing output := by
  simp only [Task.afterReading, hsupported, if_pos, hissues, hread]

/-- A file that is annotated and can be written holds the annotated text in the end. -/
theorem Stage.readText_eq {issues : List Issue} {source output : String} {tree' : FileTree}
    {outcome : FileOutcome} (h : Stage groups first file tree (.done outcome))
    (hform : SameForm first tree) (hsupported : isSupported file = true)
    (hissues : groups.get? file = some issues)
    (hread : first.readText (.ofString file) = .ok source)
    (hannotate : annotate file source issues = .ok output)
    (hwrite : first.writeText (.ofString file) output = .ok tree') :
    tree.readText (.ofString file) = .ok output := by
  have hafter := afterReading_of_readText hsupported hissues hread
  rw [hannotate] at hafter
  cases h with
  | settled hkept hread' =>
    rw [FileTree.readText_congr (hform.locate_eq _) hkept, hread]
    dsimp only at hafter
    split at hafter
    next heq => rw [heq]
    next => cases hafter.symm.trans hread'
  | refused _ _ hfile hwritable =>
    rw [hfile.writeText_eq, hwritable] at hwrite
    cases hwrite
  | written hread' hfile _ hnow =>
    dsimp only at hafter
    split at hafter
    next => cases hafter.symm.trans hread'
    next =>
      cases hafter.symm.trans hread'
      exact FileTree.FileAt.readText_eq ⟨(hform.locate_eq _).trans hfile.locate_eq, hnow⟩

/-- A file that is not rewritten is as it was. -/
theorem Stage.sameAt {outcome : FileOutcome} (h : Stage groups first file tree (.done outcome))
    (hkept : ¬IsRewritten groups first file) : first.SameAt tree (.ofString file) := by
  cases h with
  | settled hkept _ => exact hkept
  | refused hkept _ _ _ => exact hkept
  | @written output _ _ _ hread hfile hwritable _ =>
    obtain ⟨hsupported, issues, source, hissues, hsource, hannotate, -⟩ :=
      afterReading_eq_writing_iff.1 hread
    have hwrite := (hfile.writeText_eq output).trans (if_pos hwritable)
    exact absurd ⟨hsupported, issues, source, _, _, hissues, hsource, hannotate, hwrite⟩ hkept

/-- When all work is done, a place that is of no rewritten file is as it was. -/
theorem Pool.Fits.sameAt {pool : Pool} (h : pool.Fits groups first) (hdone : pool.IsDone)
    {path : Pathname} (hothers : ∀ entry ∈ pool.tasks, IsRewritten groups first entry.1 →
      first.Apart (.ofString entry.1) path) : first.SameAt pool.tree path := by
  intro names hlocate
  by_cases hnames : ∃ entry ∈ pool.tasks, first.locate (.ofString entry.1) = .ok names
  · obtain ⟨⟨file, task⟩, hentry, hat⟩ := hnames
    have htask := hdone _ hentry
    cases task <;> cases htask
    exact (h.stages _ hentry).sameAt
      (fun hrewritten => hothers _ hentry hrewritten names hat hlocate) names hat
  · push Not at hnames
    exact h.elsewhere names hnames

/-! ### The counts -/

/-- The number of outcomes that are counted. -/
def Summary.total (summary : Summary) : ℕ :=
  summary.ok + summary.nochange + summary.skip + summary.error

end Structural

end ExpectError
