import ExpectError.Proofs.Issues
import ExpectError.Run

/-!
# Files are changed only with leave

A run changes files only in its two passes. In front of them stand the check, which has to find an
issue, the wish for a list instead of changes, and the question, which has to be answered by yes
unless it was answered beforehand. A checker that only reads is taken for granted here; with it, a
run without leave has the tree of files at its end that it had at its beginning.

* `Terminal.DecidedBy`: the word on the first line of the input that decides;
* `Terminal.ask_eq_some_true_iff`: a question is answered by yes if that word says so;
* `Run.HasLeave`: everything that has to come together;
* `Run.changes_only_with_leave`: without leave nothing changes, and with it the passes are made.
-/

namespace ExpectError

namespace Terminal

/-! ### The line that decides -/

/-- A line with the line feed that ends it. -/
def IsLine (line : List UInt8) : Prop :=
  ∃ body, 10 ∉ body ∧ line = body ++ [10]

/-- What a line says: its text in lower case and without the blanks around it. A line that is no
text says nothing. -/
def wordOf? (line : List UInt8) : Option String :=
  (Text.ofBytes? line).map fun text => String.ofList ((Text.trim text.toList).map Char.toLower)

/-- The words that decide. -/
def decisiveWords : List String := ["", "y", "yes", "n", "no"]

/-- A word is the first one of an input that decides. The lines in front of it are texts that say
something else, and its own line may be the last one, without a line feed. -/
def DecidedBy (input : List UInt8) (word : String) : Prop :=
  ∃ (passed : List (List UInt8)) (line rest : List UInt8),
    input = passed.flatten ++ (line ++ rest) ∧
    (∀ other ∈ passed, IsLine other ∧ ∃ said, wordOf? other = some said ∧ said ∉ decisiveWords) ∧
    (IsLine line ∨ rest = [] ∧ 10 ∉ line) ∧
    wordOf? line = some word ∧ word ∈ decisiveWords

theorem byteLines_append {line : List UInt8} (h : IsLine line) (rest : List UInt8) :
    byteLines (line ++ rest) = line :: byteLines rest := by
  obtain ⟨body, hbody, rfl⟩ := h
  induction body with
  | nil => rfl
  | cons byte body ih =>
    rw [List.mem_cons, not_or] at hbody
    rw [List.cons_append, List.cons_append, byteLines, if_neg (Ne.symm hbody.1), ih hbody.2]

theorem byteLines_last {line : List UInt8} (hne : line ≠ []) (h : 10 ∉ line) :
    byteLines line = [line] := by
  induction line with
  | nil => exact absurd rfl hne
  | cons byte line ih =>
    rw [List.mem_cons, not_or] at h
    rw [byteLines, if_neg (Ne.symm h.1)]
    cases line with
    | nil => rfl
    | cons next line => rw [ih (List.cons_ne_nil _ _) h.2]

/-- The first line of an input that is not empty. -/
theorem exists_first_line {input : List UInt8} (hne : input ≠ []) :
    ∃ line rest, input = line ++ rest ∧ line ≠ [] ∧ (IsLine line ∨ rest = [] ∧ 10 ∉ line) := by
  by_cases h : 10 ∈ input
  · obtain ⟨body, rest, rfl, hbody⟩ := List.eq_append_cons_of_mem h
    exact ⟨body ++ [10], rest, by simp, by simp, Or.inl ⟨body, hbody, rfl⟩⟩
  · exact ⟨input, [], by simp, hne, Or.inr ⟨rfl, h⟩⟩

theorem byteLines_of_first_line {line rest : List UInt8} (hne : line ≠ [])
    (h : IsLine line ∨ rest = [] ∧ 10 ∉ line) :
    byteLines (line ++ rest) = line :: byteLines rest := by
  rcases h with h | ⟨rfl, h⟩
  · exact byteLines_append h rest
  · rw [List.append_nil, byteLines_last hne h]
    rfl

/-! ### The question -/

theorem Answer.ofLine_eq (text : String) :
    let said := String.ofList ((Text.trim text.toList).map Char.toLower)
    (Answer.ofLine text.toList = .yes ↔ said = "y" ∨ said = "yes") ∧
      (Answer.ofLine text.toList = .unclear ↔ said ∉ decisiveWords) := by
  dsimp only [Answer.ofLine]
  split <;> simp_all [decisiveWords]

/-- One line: it says yes, or it does not decide and the lines behind it do. -/
theorem askLines_cons_iff (message : String) (line : List UInt8) (lines : List (List UInt8)) :
    (askLines message false (line :: lines)).decision = some true ↔
      ∃ said, wordOf? line = some said ∧
        (said = "y" ∨ said = "yes" ∨
          said ∉ decisiveWords ∧ (askLines message false lines).decision = some true) := by
  rw [askLines]
  cases htext : Text.ofBytes? line with
  | none => simp [wordOf?, htext]
  | some text =>
    obtain ⟨hyes, hunclear⟩ := Answer.ofLine_eq text
    have hword : wordOf? line = some (String.ofList ((Text.trim text.toList).map Char.toLower)) := by
      rw [wordOf?, htext]
      rfl
    generalize String.ofList ((Text.trim text.toList).map Char.toLower) = said at *
    have hsaid : said ∉ decisiveWords → said ≠ "y" ∧ said ≠ "yes" := by
      rintro h
      constructor <;> rintro rfl <;> simp [decisiveWords] at h
    cases hanswer : Answer.ofLine text.toList <;>
      simp_all [Dialogue.after]

/-- Where a question is answered by yes, some line says so, and the ones before it do not decide. -/
theorem decidedBy_of_ask {message : String} {input : List UInt8}
    (h : (ask message false input).decision = some true) :
    DecidedBy input "y" ∨ DecidedBy input "yes" := by
  -- by induction on the length of what is left, one line at a time
  rw [ask] at h
  induction hlength : input.length using Nat.strong_induction_on generalizing input with
  | _ n ih =>
    by_cases hne : input = []
    · subst hne
      simp [byteLines, askLines] at h
    · obtain ⟨line, rest, rfl, hline, hform⟩ := exists_first_line hne
      rw [byteLines_of_first_line hline hform, askLines_cons_iff] at h
      obtain ⟨said, hsaid, rfl | rfl | ⟨hvague, hrest⟩⟩ := h
      · exact Or.inl ⟨[], line, rest, rfl, by simp, hform, hsaid, by simp [decisiveWords]⟩
      · exact Or.inr ⟨[], line, rest, rfl, by simp, hform, hsaid, by simp [decisiveWords]⟩
      · have hshorter : rest.length < n := by
          have := List.length_pos_of_ne_nil hline
          rw [← hlength, List.length_append]
          omega
        rcases hform with hform | ⟨rfl, -⟩
        · refine (ih rest.length hshorter hrest rfl).imp ?_ ?_ <;>
            rintro ⟨passed, last, behind, rfl, hpassed, hlast, hword⟩ <;>
            exact ⟨line :: passed, last, behind, by simp,
              List.forall_mem_cons.2 ⟨⟨hform, said, hsaid, hvague⟩, hpassed⟩, hlast, hword⟩
        · simp [byteLines, askLines] at hrest

/-- A line that says yes answers the question, if the ones before it do not decide. -/
theorem ask_of_decidedBy (message : String) {input : List UInt8} {word : String}
    (hyes : word = "y" ∨ word = "yes") (h : DecidedBy input word) :
    (ask message false input).decision = some true := by
  obtain ⟨passed, line, rest, rfl, hpassed, hline, hword, -⟩ := h
  rw [ask]
  induction passed with
  | nil =>
    have hne : line ≠ [] := by
      rintro rfl
      rcases hyes with rfl | rfl <;> exact absurd hword (by decide)
    rw [List.flatten_nil, List.nil_append, byteLines_of_first_line hne hline, askLines_cons_iff]
    exact ⟨word, hword, hyes.imp_right Or.inl⟩
  | cons other passed ih =>
    obtain ⟨⟨hother, said, hsaid, hvague⟩, hpassed⟩ := List.forall_mem_cons.1 hpassed
    rw [List.flatten_cons, List.append_assoc, byteLines_append hother, askLines_cons_iff]
    exact ⟨said, hsaid, Or.inr (Or.inr ⟨hvague, ih hpassed⟩)⟩

/-- A question is answered by yes if the first line that decides says so. -/
theorem ask_eq_some_true_iff (message : String) (input : List UInt8) :
    (ask message false input).decision = some true ↔
      DecidedBy input "y" ∨ DecidedBy input "yes" :=
  ⟨decidedBy_of_ask, fun h => h.elim (ask_of_decidedBy message (Or.inl rfl))
    (ask_of_decidedBy message (Or.inr rfl))⟩

end Terminal

/-! ### The run -/

variable {σ : Type}

/-- A checker that leaves all files as they are. -/
def Checker.OnlyReads (checker : Checker σ) : Prop :=
  ∀ project state tree, (checker project state tree).tree = tree

namespace Run

/-- The text of a file, if it can be read. -/
def textOf (tree : FileTree) (file : String) : Option String :=
  (tree.readText (.ofString file)).toOption

/-- The first check of a run finds an issue: it reports a diagnostic with a file and a start, and
the file can be read. -/
def FindsIssue (args : Arguments) (folder : Pathname) (checker : Checker σ) (state : σ)
    (tree : FileTree) : Prop :=
  ∃ project diagnostics, setup args folder tree = .ok project ∧
    (checker project state tree).ending = .returned diagnostics ∧
    ∃ d ∈ diagnostics, Reduced.IsIssue (textOf tree) d

/-- Everything that has to come together before files are changed. -/
structure HasLeave (args : Arguments) (folder : Pathname) (checker : Checker σ)
    (input : List UInt8) (state : σ) (tree : FileTree) : Prop where
  not_dryRun : args.dryRun = false
  findsIssue : FindsIssue args folder checker state tree
  agreed : args.yes = true ∨ Terminal.DecidedBy input "y" ∨ Terminal.DecidedBy input "yes"

@[simp] theorem tree_after (rest : RunEnd σ) (text : String) :
    (rest.after text).tree = rest.tree := rfl

@[simp] theorem tree_ofFailure (reporter : Terminal.Reporter) (step : String) (e : RunError)
    (state : σ) (tree : FileTree) : (RunEnd.ofFailure reporter step e state tree).tree = tree := rfl

/-- The question is in front of what follows: without a yes the tree stays. -/
theorem tree_askLeave (reporter : Terminal.Reporter) (input : List UInt8) (reduced : Reduced)
    (state : σ) (tree : FileTree) (next : RunEnd σ) :
    ((askLeave reporter input reduced state tree next).tree = next.tree ∧
      (Terminal.DecidedBy input "y" ∨ Terminal.DecidedBy input "yes")) ∨
    ((askLeave reporter input reduced state tree next).tree = tree ∧
      ¬(Terminal.DecidedBy input "y" ∨ Terminal.DecidedBy input "yes")) := by
  rw [← Terminal.ask_eq_some_true_iff (question reduced), askLeave]
  cases (Terminal.ask (question reduced) false input).decision with
  | none => exact Or.inr ⟨rfl, by simp⟩
  | some decision =>
    cases decision with
    | false => exact Or.inr ⟨rfl, by simp⟩
    | true => exact Or.inl ⟨rfl, rfl⟩

/-- Behind a check, files are changed if there are issues, no list is wished for and the answer is
yes. -/
theorem tree_handle (reporter : Terminal.Reporter) (args : Arguments) (checker : Checker σ)
    (input : List UInt8) (project : Project) (reduced : Reduced) (state : σ) (tree : FileTree) :
    ((handle reporter args checker input project reduced state tree).tree =
        (annotateProject reporter args checker project reduced state tree).tree ∧
      0 < reduced.totalIssues ∧ args.dryRun = false ∧
      (args.yes = true ∨ Terminal.DecidedBy input "y" ∨ Terminal.DecidedBy input "yes")) ∨
    ((handle reporter args checker input project reduced state tree).tree = tree ∧
      ¬(0 < reduced.totalIssues ∧ args.dryRun = false ∧
        (args.yes = true ∨ Terminal.DecidedBy input "y" ∨ Terminal.DecidedBy input "yes"))) := by
  -- the conditions in the order in which `handle` asks for them
  rw [handle]
  by_cases hissues : reduced.totalIssues = 0
  · rw [if_pos hissues]
    exact Or.inr ⟨rfl, fun h => by omega⟩
  rw [if_neg hissues]
  cases hdry : args.dryRun with
  | true => exact Or.inr ⟨rfl, by simp⟩
  | false =>
    cases hyes : args.yes with
    | true => exact Or.inl ⟨by simp, Nat.pos_of_ne_zero hissues, rfl, Or.inl rfl⟩
    | false =>
      rcases tree_askLeave reporter input reduced state tree
        (annotateProject reporter args checker project reduced state tree) with
        ⟨h, hleave⟩ | ⟨h, hleave⟩
      · exact Or.inl ⟨by simpa using h, Nat.pos_of_ne_zero hissues, rfl, Or.inr hleave⟩
      · exact Or.inr ⟨by simpa using h, by simp [hleave]⟩

/-- A check by a checker that only reads: it reports nothing, or the issues of what it reports. -/
theorem typecheck_cases {checker : Checker σ} (hchecker : checker.OnlyReads) (project : Project)
    (state : σ) (tree : FileTree) :
    ∃ state',
      (∃ e, typecheck checker project state tree = (.error e, state', tree) ∧
        ∀ diagnostics, (checker project state tree).ending ≠ .returned diagnostics) ∨
      ∃ diagnostics, (checker project state tree).ending = .returned diagnostics ∧
        typecheck checker project state tree =
          (.ok (Reduced.ofDiagnostics (textOf tree) diagnostics), state', tree) := by
  refine ⟨(checker project state tree).state, ?_⟩
  have htree := hchecker project state tree
  rw [typecheck]
  cases hending : (checker project state tree).ending with
  | returned diagnostics =>
    refine Or.inr ⟨diagnostics, rfl, ?_⟩
    simp only [Worker.report, htree]
    rfl
  | failed e => exact Or.inl ⟨.check (.job e), by simp [Worker.report, htree], by simp⟩
  | brokeOff breakdown =>
    exact Or.inl ⟨.check (.brokeOff "typecheck" breakdown), by simp [Worker.report, htree], by simp⟩

/-- There is one project to check, so an issue is found in what is reported about it. -/
theorem findsIssue_iff {args : Arguments} {folder : Pathname} (checker : Checker σ) (state : σ)
    {tree : FileTree} {project : Project} (hsetup : setup args folder tree = .ok project) :
    FindsIssue args folder checker state tree ↔
      ∃ diagnostics, (checker project state tree).ending = .returned diagnostics ∧
        0 < (Reduced.ofDiagnostics (textOf tree) diagnostics).totalIssues := by
  simp only [Reduced.totalIssues_pos_iff]
  constructor
  · rintro ⟨other, diagnostics, hother, h⟩
    cases hsetup.symm.trans hother
    exact ⟨diagnostics, h⟩
  · rintro ⟨diagnostics, h⟩
    exact ⟨project, diagnostics, hsetup, h⟩

/-- A run changes files only if it is no dry run, its first check finds an issue, and the answer is
yes, given beforehand or on the first line of the input that decides. With all that, the files are
changed by the two passes; without it, they are all as before. -/
theorem changes_only_with_leave (args : Arguments) (folder : Pathname) {checker : Checker σ}
    (hchecker : checker.OnlyReads) (color : Bool) (input : List UInt8) (state : σ)
    (tree : FileTree) :
    ((run args folder checker color input state tree).tree ≠ tree →
      HasLeave args folder checker input state tree) ∧
    (HasLeave args folder checker input state tree →
      ∃ project reduced state',
        setup args folder tree = .ok project ∧
        typecheck checker project state tree = (.ok reduced, state', tree) ∧
        (run args folder checker color input state tree).tree =
          (annotateProject { color } args checker project reduced state' tree).tree) := by
  rw [run]
  cases hsetup : setup args folder tree with
  | error e =>
    refine ⟨fun h => absurd rfl h, fun h => ?_⟩
    obtain ⟨project, _, hproject, _⟩ := h.findsIssue
    cases hsetup.symm.trans hproject
  | ok project =>
    obtain ⟨state', ⟨e, htypecheck, hending⟩ | ⟨diagnostics, hending, htypecheck⟩⟩ :=
      typecheck_cases hchecker project state tree
    · -- the check gave no diagnostics: it found no issue, and nothing is asked
      simp only [htypecheck, tree_after, tree_ofFailure]
      refine ⟨fun h => absurd rfl h, fun h => ?_⟩
      obtain ⟨diagnostics, hreturned, -⟩ := (findsIssue_iff checker state hsetup).1 h.findsIssue
      exact absurd hreturned (hending diagnostics)
    · -- with diagnostics, what `handle` does is decided by the three conditions
      have hfinds := findsIssue_iff checker state hsetup
      simp only [hending, Worker.Ending.returned.injEq, exists_eq_left'] at hfinds
      simp only [htypecheck, tree_after]
      rcases tree_handle { color } args checker input project
        (Reduced.ofDiagnostics (textOf tree) diagnostics) state' tree with
        ⟨hchanged, hissues, hdry, hagreed⟩ | ⟨hkept, hleave⟩
      · exact ⟨fun _ => ⟨hdry, hfinds.2 hissues, hagreed⟩,
          fun _ => ⟨project, _, state', rfl, htypecheck, hchanged⟩⟩
      · refine ⟨fun h => absurd hkept h, fun h => absurd ?_ hleave⟩
        exact ⟨hfinds.1 h.findsIssue, h.not_dryRun, h.agreed⟩

/-- A project with one issue: the answer that decides is on the second line, and only a yes there
changes the file. -/
theorem changes_only_with_leave_second_line :
    let tree : FileTree :=
      { entries := [([['p']], .folder),
          ([['p'], "tsconfig.json".toList], .file "\x7b\x7d".toUTF8.toList false),
          ([['p'], "a.ts".toList], .file "a\n".toUTF8.toList false)] }
    let checker : Checker Unit := fun _ _ tree =>
      { ending := .returned
          [{ file := some "/p/a.ts", start := some 0, length := some 1, message := "m", code := 1 }]
        state := ()
        tree }
    checker.OnlyReads ∧
      HasLeave {} (.ofString "/p") checker "why?\n YES\ny".toUTF8.toList () tree ∧
      (run {} (.ofString "/p") checker false "why?\n YES\ny".toUTF8.toList () tree).tree ≠ tree ∧
      (run {} (.ofString "/p") checker false "why?\n No\ny".toUTF8.toList () tree).tree = tree := by
  intro tree checker
  have hchecker : checker.OnlyReads := fun _ _ _ => rfl
  have hchanged :
      (run {} (.ofString "/p") checker false "why?\n YES\ny".toUTF8.toList () tree).tree ≠ tree := by
    decide +kernel
  refine ⟨hchecker, (changes_only_with_leave _ _ hchecker _ _ _ _).1 hchanged, hchanged, ?_⟩
  by_contra h
  have hagreed := ((changes_only_with_leave _ _ hchecker _ _ _ _).1 h).agreed
  rw [← Terminal.ask_eq_some_true_iff ""] at hagreed
  revert hagreed
  decide +kernel

end Run

end ExpectError
