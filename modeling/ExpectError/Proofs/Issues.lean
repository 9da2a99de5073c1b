import ExpectError.Issue
import Mathlib.Tactic

/-!
# Diagnostics grouped by file

Diagnostics are taken one after another, each into the group of its file, and a file's text is asked
for when the first diagnostic in it comes up. Whatever asking does, each file is asked for once, in
the order in which the files come up, and the groups are a function of the answers: the files that
could be read stand in that order, and the group of a file holds the issues of just its own
diagnostics, in their order.

* `unseen`: names that are new, each once;
* `IssuesByFile.pushAll`: the groups of a list of issues;
* `foldlM_step`: gathering is asking for all files first and grouping afterwards;
* `getD_get?_ofDiagnostics`, `totalIssues_pos_iff`: the group of a file, and whether there are
  issues at all;
* `IsGrouping`, `isGrouping_gather`: what the groups are.
-/

namespace ExpectError

open Text (LineMap)

/-! ### Names in the order in which they are first seen -/

theorem nodup_eraseDups {α : Type} [BEq α] [LawfulBEq α] (l : List α) : l.eraseDups.Nodup := by
  induction hn : l.length using Nat.strong_induction_on generalizing l with
  | _ n ih =>
    cases l with
    | nil => exact .nil
    | cons a l =>
      rw [List.eraseDups_cons]
      refine List.nodup_cons.2 ⟨by simp [List.mem_eraseDups], ih _ ?_ _ rfl⟩
      rw [← hn, List.length_cons]
      exact Nat.lt_succ_of_le (List.length_filter_le _ _)

/-- The names that are not known yet, each once, in the order in which they are first seen. -/
def unseen (known names : List String) : List String :=
  (names.filter fun name => !known.contains name).eraseDups

theorem unseen_nil_left (names : List String) : unseen [] names = names.eraseDups := by
  rw [unseen, List.filter_eq_self.2]
  intro name _
  rfl

theorem unseen_cons_of_mem {known : List String} {name : String} (h : name ∈ known)
    (names : List String) : unseen known (name :: names) = unseen known names := by
  rw [unseen, List.filter_cons_of_neg (by simpa using h), unseen]

theorem unseen_cons_of_not_mem {known : List String} {name : String} (h : name ∉ known)
    (names : List String) :
    unseen known (name :: names) = name :: unseen (known ++ [name]) names := by
  rw [unseen, List.filter_cons_of_pos (by simpa using h), List.eraseDups_cons, List.filter_filter,
    unseen]
  congr 2
  refine List.filter_congr fun other _ => ?_
  by_cases hother : other = name
  · simp [hother]
  · simp [hother]

/-! ### Groups of issues -/

namespace IssuesByFile

theorem lookup_cons_eq_ite {α : Type} (name key : String) (value : α) (rest : List (String × α)) :
    ((key, value) :: rest).lookup name = if name = key then some value else rest.lookup name := by
  rw [List.lookup_cons]
  by_cases h : name = key
  · rw [if_pos h, beq_iff_eq.2 h]
  · rw [if_neg h, beq_eq_false_iff_ne.2 h]

theorem lookup_pushTo (path other : String) (issue : Issue) (groups : List (String × List Issue)) :
    (pushTo path issue groups).lookup other =
      if other = path then some ((groups.lookup path).getD [] ++ [issue])
      else groups.lookup other := by
  induction groups with
  | nil => rw [pushTo, lookup_cons_eq_ite]; rfl
  | cons group groups ih =>
    obtain ⟨first, issues⟩ := group
    rw [pushTo]
    by_cases hfirst : first = path
    · subst hfirst
      by_cases h : other = first <;> simp [lookup_cons_eq_ite, h]
    · rw [if_neg hfirst, lookup_cons_eq_ite, lookup_cons_eq_ite, lookup_cons_eq_ite, ih,
        if_neg (Ne.symm hfirst)]
      by_cases h : other = first
      · subst h
        simp [hfirst]
      · simp [h]

/-- An issue goes to the end of its own group and to no other. -/
theorem getD_get?_push (groups : IssuesByFile) (path other : String) (issue : Issue) :
    ((groups.push path issue).get? other).getD [] =
      (groups.get? other).getD [] ++ if path = other then [issue] else [] := by
  rw [get?, push, lookup_pushTo]
  by_cases h : other = path
  · simp [get?, h]
  · simp [get?, h, Ne.symm h]

theorem paths_pushTo (path : String) (issue : Issue) (groups : List (String × List Issue)) :
    (pushTo path issue groups).map (·.1) =
      if path ∈ groups.map (·.1) then groups.map (·.1) else groups.map (·.1) ++ [path] := by
  induction groups with
  | nil => simp [pushTo]
  | cons group groups ih =>
    rw [pushTo]
    by_cases hfirst : group.1 = path
    · simp [hfirst]
    · rw [if_neg hfirst, List.map_cons, ih]
      by_cases hmem : path ∈ groups.map (·.1)
      · simp [hmem]
      · simp [hmem, Ne.symm hfirst]

theorem issueCount_push (groups : IssuesByFile) (path : String) (issue : Issue) :
    (groups.push path issue).issueCount = groups.issueCount + 1 := by
  obtain ⟨groups⟩ := groups
  unfold push issueCount
  induction groups with
  | nil => rfl
  | cons group groups ih =>
    dsimp only at ih ⊢
    rw [pushTo]
    split
    · simp
      omega
    · rw [List.map_cons, List.foldr_cons, ih, List.map_cons, List.foldr_cons, Nat.add_assoc]

/-- Adds issues to their files, one after another. -/
def pushAll (groups : IssuesByFile) (issues : List (String × Issue)) : IssuesByFile :=
  issues.foldl (fun groups issue => groups.push issue.1 issue.2) groups

/-- Files that are new stand behind the others, in the order in which they are first seen. -/
theorem paths_pushAll (groups : IssuesByFile) (issues : List (String × Issue)) :
    (groups.pushAll issues).paths = groups.paths ++ unseen groups.paths (issues.map (·.1)) := by
  induction issues generalizing groups with
  | nil => simp [pushAll, unseen]
  | cons issue issues ih =>
    have hpush := paths_pushTo issue.1 issue.2 groups.files
    have hrest := ih (groups.push issue.1 issue.2)
    rw [pushAll, List.foldl_cons, ← pushAll, hrest, List.map_cons]
    by_cases hmem : issue.1 ∈ groups.paths
    · have hpaths : (groups.push issue.1 issue.2).paths = groups.paths := hpush.trans (if_pos hmem)
      rw [hpaths, unseen_cons_of_mem hmem]
    · have hpaths : (groups.push issue.1 issue.2).paths = groups.paths ++ [issue.1] :=
        hpush.trans (if_neg hmem)
      rw [hpaths, unseen_cons_of_not_mem hmem, List.append_assoc, List.singleton_append]

/-- The group of a file gets the file's own issues, in their order. -/
theorem getD_get?_pushAll (groups : IssuesByFile) (issues : List (String × Issue)) (file : String) :
    ((groups.pushAll issues).get? file).getD [] =
      (groups.get? file).getD [] ++ (issues.filter fun issue => issue.1 = file).map (·.2) := by
  induction issues generalizing groups with
  | nil => simp [pushAll]
  | cons issue issues ih =>
    have hrest := ih (groups.push issue.1 issue.2)
    rw [pushAll, List.foldl_cons, ← pushAll, hrest, getD_get?_push]
    by_cases hfile : issue.1 = file
    · simp [hfile]
    · simp [hfile]

theorem issueCount_pushAll (groups : IssuesByFile) (issues : List (String × Issue)) :
    (groups.pushAll issues).issueCount = groups.issueCount + issues.length := by
  induction issues generalizing groups with
  | nil => rfl
  | cons issue issues ih =>
    have hrest := ih (groups.push issue.1 issue.2)
    rw [pushAll, List.foldl_cons, ← pushAll, hrest, issueCount_push, List.length_cons]
    omega

end IssuesByFile

namespace Reduced

/-! ### Asking first, grouping afterwards -/

/-- The files of the diagnostics that have a file and a start. -/
def locatedFiles (diagnostics : List Diagnostic) : List String :=
  (diagnostics.filterMap Diagnostic.location?).map (·.1)

/-- The issues of the diagnostics whose texts are known, each with its file. -/
def issuesWith (source : String → Option LineMap) (diagnostics : List Diagnostic) :
    List (String × Issue) :=
  diagnostics.filterMap fun d => do
    let (file, start) ← d.location?
    let map ← source file
    return (file, issueOf map start d)

/-- The line map of a text, if there is one. -/
def mapOf (text : Option String) : Option LineMap :=
  text.map fun text => LineMap.ofText text.toList

/-- What has been gathered when further files have been asked for and all diagnostics grouped. -/
def Progress.after (progress : Progress) (answers : List (String × Option LineMap))
    (diagnostics : List Diagnostic) : Progress :=
  let sources := progress.sources ++ answers
  let issues := issuesWith (fun file => (sources.lookup file).join) diagnostics
  { sources
    reduced :=
      { totalIssues := progress.reduced.totalIssues + issues.length
        issues := progress.reduced.issues.pushAll issues } }

/-- Takes a diagnostic into account whose text is known. -/
def Progress.note (progress : Progress) (file : String) (start : ℕ) (d : Diagnostic) :
    Option LineMap → Progress
  | none => progress
  | some map =>
    { progress with
      reduced :=
        { totalIssues := progress.reduced.totalIssues + 1
          issues := progress.reduced.issues.push file (issueOf map start d) } }

@[simp] theorem Progress.sources_note (progress : Progress) (file : String) (start : ℕ)
    (d : Diagnostic) (source : Option LineMap) :
    (progress.note file start d source).sources = progress.sources := by
  cases source <;> rfl

/-- Keeps the answer to a file that has been asked for. -/
def Progress.remember (progress : Progress) (file : String) (source : Option LineMap) : Progress :=
  { progress with sources := progress.sources ++ [(file, source)] }

theorem Progress.after_remember (progress : Progress) (file : String) (source : Option LineMap)
    (answers : List (String × Option LineMap)) (diagnostics : List Diagnostic) :
    (progress.remember file source).after answers diagnostics =
      progress.after ((file, source) :: answers) diagnostics := by
  simp [remember, after]

theorem Progress.lookup_remember {progress : Progress} {file : String}
    (h : progress.sources.lookup file = none) (source : Option LineMap) :
    (progress.remember file source).sources.lookup file = some source := by
  rw [remember, List.lookup_append, h, Option.none_or]
  simp

theorem Progress.after_of_location?_eq_none {d : Diagnostic} (h : d.location? = none)
    (progress : Progress) (answers : List (String × Option LineMap))
    (diagnostics : List Diagnostic) :
    progress.after answers (d :: diagnostics) = progress.after answers diagnostics := by
  simp [after, issuesWith, h]

/-- A diagnostic whose text is known can be grouped at once. -/
theorem Progress.after_note {progress : Progress} {d : Diagnostic} {file : String} {start : ℕ}
    {source : Option LineMap} (hlocation : d.location? = some (file, start))
    (hsource : progress.sources.lookup file = some source)
    (answers : List (String × Option LineMap)) (diagnostics : List Diagnostic) :
    (progress.note file start d source).after answers diagnostics =
      progress.after answers (d :: diagnostics) := by
  have hlookup : (progress.sources ++ answers).lookup file = some source := by
    rw [List.lookup_append, hsource, Option.some_or]
  cases source with
  | none => simp [note, after, issuesWith, hlocation, hlookup]
  | some map =>
    simp [note, after, issuesWith, hlocation, hlookup, IssuesByFile.pushAll]
    omega

theorem mem_of_lookup_eq_some {α : Type} {file : String} {source : α}
    {sources : List (String × α)} (h : sources.lookup file = some source) :
    file ∈ sources.map (·.1) := by
  obtain ⟨front, back, rfl, -⟩ := List.lookup_eq_some_iff.1 h
  simp

theorem not_mem_of_lookup_eq_none {α : Type} {file : String} {sources : List (String × α)}
    (h : sources.lookup file = none) : file ∉ sources.map (·.1) := by
  rw [List.mem_map]
  rintro ⟨source, hsource, rfl⟩
  simpa using List.lookup_eq_none_iff.1 h source hsource

section

variable {m : Type → Type} [Monad m] [LawfulMonad m]

theorem step_of_known {d : Diagnostic} {file : String} {start : ℕ} {progress : Progress}
    {source : Option LineMap} (hlocation : d.location? = some (file, start))
    (hlookup : progress.sources.lookup file = some source) (ask : String → m (Option String)) :
    Progress.step ask progress d = pure (progress.note file start d source) := by
  rw [Progress.step, hlocation]
  dsimp only
  rw [Progress.source, hlookup, pure_bind]
  cases source <;> rfl

theorem step_of_new {d : Diagnostic} {file : String} {start : ℕ} {progress : Progress}
    (hlocation : d.location? = some (file, start)) (hlookup : progress.sources.lookup file = none)
    (ask : String → m (Option String)) :
    Progress.step ask progress d = do
      let text ← ask file
      return (progress.remember file (mapOf text)).note file start d (mapOf text) := by
  rw [Progress.step, hlocation]
  dsimp only
  rw [Progress.source, hlookup, bind_assoc]
  refine bind_congr fun text => ?_
  rw [pure_bind, ← mapOf]
  cases mapOf text <;> rfl

/-- Whatever asking does, gathering asks for the files that are new, each once and in the order in
which they come up, and groups the diagnostics by the answers. -/
theorem foldlM_step (ask : String → m (Option String)) (diagnostics : List Diagnostic)
    (progress : Progress) :
    diagnostics.foldlM (Progress.step ask) progress =
      (fun texts => progress.after
        (List.zipWith (fun file text => (file, mapOf text))
          (unseen (progress.sources.map (·.1)) (locatedFiles diagnostics)) texts) diagnostics) <$>
        (unseen (progress.sources.map (·.1)) (locatedFiles diagnostics)).mapM ask := by
  induction diagnostics generalizing progress with
  | nil => simp [locatedFiles, unseen, Progress.after, issuesWith, IssuesByFile.pushAll]
  | cons d diagnostics ih =>
    rw [List.foldlM_cons]
    cases hlocation : d.location? with
    | none =>
      have hfiles : locatedFiles (d :: diagnostics) = locatedFiles diagnostics := by
        simp [locatedFiles, hlocation]
      rw [Progress.step, hlocation, hfiles]
      simp only [pure_bind, ih, Progress.after_of_location?_eq_none hlocation]
    | some location =>
      obtain ⟨file, start⟩ := location
      have hfiles : locatedFiles (d :: diagnostics) = file :: locatedFiles diagnostics := by
        simp [locatedFiles, hlocation]
      rw [hfiles]
      cases hlookup : progress.sources.lookup file with
      | some source =>
        rw [step_of_known hlocation hlookup, unseen_cons_of_mem (mem_of_lookup_eq_some hlookup)]
        simp only [pure_bind, ih, Progress.sources_note, Progress.after_note hlocation hlookup]
      | none =>
        -- the first diagnostic in a file is the one that asks for its text
        rw [step_of_new hlocation hlookup,
          unseen_cons_of_not_mem (not_mem_of_lookup_eq_none hlookup), List.mapM_cons]
        simp only [map_eq_pure_bind, bind_assoc, pure_bind, ih]
        refine bind_congr fun text => ?_
        have hfound := Progress.lookup_remember hlookup (mapOf text)
        have hknown : ((progress.remember file (mapOf text)).note file start d
            (mapOf text)).sources.map (·.1) = progress.sources.map (·.1) ++ [file] := by
          rw [Progress.sources_note, Progress.remember, List.map_append]
          rfl
        rw [hknown]
        refine bind_congr fun texts => ?_
        rw [Progress.after_note hlocation hfound, Progress.after_remember, List.zipWith_cons_cons]

end

/-! ### The groups -/

/-- The line map of a file that can be read. -/
def sourceOf (read : String → Option String) (file : String) : Option LineMap :=
  (read file).map fun text => LineMap.ofText text.toList

/-- What was answered for a file, where files have been asked for one after another. -/
def answer (files : List String) (texts : List (Option String)) (file : String) : Option String :=
  ((files.zip texts).lookup file).join

theorem join_lookup_zipWith {files : List String} {texts : List (Option String)} (file : String) :
    ((List.zipWith (fun file text => (file, mapOf text)) files texts).lookup file).join =
      sourceOf (answer files texts) file := by
  induction files generalizing texts with
  | nil => rfl
  | cons first files ih =>
    cases texts with
    | nil => rfl
    | cons text texts =>
      rw [List.zipWith_cons_cons, IssuesByFile.lookup_cons_eq_ite]
      by_cases h : file = first
      · simp [h, sourceOf, answer, mapOf]
      · have hanswer : answer (first :: files) (text :: texts) file = answer files texts file := by
          rw [answer, List.zip_cons_cons, IssuesByFile.lookup_cons_eq_ite, if_neg h, answer]
        rw [if_neg h, ih, sourceOf, sourceOf, hanswer]

/-- A file that was asked for is answered as reading it says. -/
theorem answer_map (read : String → Option String) {files : List String} {file : String}
    (h : file ∈ files) : answer files (files.map read) file = read file := by
  induction files with
  | nil => exact absurd h List.not_mem_nil
  | cons first files ih =>
    rw [answer, List.map_cons, List.zip_cons_cons, IssuesByFile.lookup_cons_eq_ite]
    by_cases hfirst : file = first
    · rw [if_pos hfirst, hfirst, Option.join_some]
    · rw [if_neg hfirst, ← answer, ih (List.mem_of_ne_of_mem hfirst h)]

theorem issuesWith_congr {source other : String → Option LineMap} {diagnostics : List Diagnostic}
    (h : ∀ file ∈ locatedFiles diagnostics, source file = other file) :
    issuesWith source diagnostics = issuesWith other diagnostics := by
  refine List.filterMap_congr fun d hd => ?_
  cases hlocation : d.location? with
  | none => rfl
  | some location =>
    have hmem : location.1 ∈ locatedFiles diagnostics :=
      List.mem_map.2 ⟨location, List.mem_filterMap.2 ⟨d, hd, hlocation⟩, rfl⟩
    simp [h location.1 hmem]

/-- The groups of the diagnostics whose files can be read. -/
def groupsOf (read : String → Option String) (diagnostics : List Diagnostic) : Reduced :=
  { totalIssues := (issuesWith (sourceOf read) diagnostics).length
    issues := IssuesByFile.pushAll {} (issuesWith (sourceOf read) diagnostics) }

/-- What has been gathered when the files have been asked for. -/
def gathered (diagnostics : List Diagnostic) (texts : List (Option String)) : Progress :=
  ({} : Progress).after
    (List.zipWith (fun file text => (file, mapOf text)) (locatedFiles diagnostics).eraseDups texts)
    diagnostics

theorem gather_eq {m : Type → Type} [Monad m] [LawfulMonad m] (ask : String → m (Option String))
    (diagnostics : List Diagnostic) :
    gather ask diagnostics =
      gathered diagnostics <$> (locatedFiles diagnostics).eraseDups.mapM ask := by
  have hfold := foldlM_step ask diagnostics {}
  rwa [List.map_nil, unseen_nil_left] at hfold

theorem reduced_gathered (diagnostics : List Diagnostic) (texts : List (Option String)) :
    (gathered diagnostics texts).reduced =
      groupsOf (answer (locatedFiles diagnostics).eraseDups texts) diagnostics := by
  rw [gathered, Progress.after, groupsOf]
  simp only [List.nil_append, join_lookup_zipWith, Nat.zero_add]

theorem collect_eq (read : String → Option String) (diagnostics : List Diagnostic) :
    collect read diagnostics =
      gathered diagnostics ((locatedFiles diagnostics).eraseDups.map read) := by
  rw [collect, gather_eq, List.mapM_pure]
  rfl

theorem ofDiagnostics_eq (read : String → Option String) (diagnostics : List Diagnostic) :
    ofDiagnostics read diagnostics = groupsOf read diagnostics := by
  have hissues : issuesWith (sourceOf (answer (locatedFiles diagnostics).eraseDups
      ((locatedFiles diagnostics).eraseDups.map read))) diagnostics =
      issuesWith (sourceOf read) diagnostics := by
    refine issuesWith_congr fun file hfile => ?_
    rw [sourceOf, answer_map read (List.mem_eraseDups.2 hfile), sourceOf]
  rw [ofDiagnostics, collect_eq, reduced_gathered, groupsOf, groupsOf, hissues]

theorem reads_eq (read : String → Option String) (diagnostics : List Diagnostic) :
    reads read diagnostics = (locatedFiles diagnostics).eraseDups := by
  rw [reads, collect_eq, gathered, Progress.after, List.nil_append, List.zipWith_map_right,
    List.map_zipWith, List.zipWith_self, List.map_id']

/-- The issue of a diagnostic that is about a given file and has a start, if the file can be
read. -/
def issueIn? (read : String → Option String) (file : String) (d : Diagnostic) : Option Issue := do
  let (name, start) ← d.location?
  let map ← sourceOf read name
  if name = file then some (issueOf map start d) else none

theorem getD_get?_groupsOf (read : String → Option String) (diagnostics : List Diagnostic)
    (file : String) :
    ((groupsOf read diagnostics).issues.get? file).getD [] =
      diagnostics.filterMap (issueIn? read file) := by
  rw [groupsOf, IssuesByFile.getD_get?_pushAll, issuesWith, List.filter_filterMap,
    List.map_filterMap]
  refine List.filterMap_congr fun d _ => ?_
  cases hlocation : d.location? with
  | none => simp [issueIn?, hlocation]
  | some location =>
    cases hsource : sourceOf read location.1 with
    | none => simp [issueIn?, hlocation, hsource]
    | some map =>
      by_cases hname : location.1 = file
      · simp [issueIn?, hlocation, ← hname, hsource]
      · simp [issueIn?, hlocation, hsource, hname]

/-- The group of a file holds the issues of the diagnostics in it, in their order. -/
theorem getD_get?_ofDiagnostics (read : String → Option String) (diagnostics : List Diagnostic)
    (file : String) :
    ((ofDiagnostics read diagnostics).issues.get? file).getD [] =
      diagnostics.filterMap (issueIn? read file) := by
  rw [ofDiagnostics_eq, getD_get?_groupsOf]

/-- A diagnostic becomes an issue if it has a file and a start and the file can be read. -/
def IsIssue (read : String → Option String) (d : Diagnostic) : Prop :=
  ∃ file start text, d.location? = some (file, start) ∧ read file = some text

/-- There are issues if some diagnostic becomes one. -/
theorem totalIssues_pos_iff (read : String → Option String) (diagnostics : List Diagnostic) :
    0 < (ofDiagnostics read diagnostics).totalIssues ↔ ∃ d ∈ diagnostics, IsIssue read d := by
  rw [ofDiagnostics_eq, groupsOf, List.length_pos_iff_exists_mem]
  simp only [issuesWith, List.mem_filterMap]
  rw [exists_comm]
  refine exists_congr fun d => ?_
  rw [exists_and_left]
  refine and_congr_right fun _ => ?_
  cases hlocation : d.location? with
  | none => simp [IsIssue, hlocation]
  | some location =>
    obtain ⟨file, start⟩ := location
    cases hread : read file <;> simp [IsIssue, hlocation, sourceOf, hread]

/-! ### Grouping by file -/

/-- Is a diagnostic about a place in a file that was supplied? -/
def IsIn (text? : String → Option String) (file : String) (d : Diagnostic) : Prop :=
  d.file = some file ∧ d.start.isSome ∧ (text? file).isSome

instance (text? : String → Option String) (file : String) (d : Diagnostic) :
    Decidable (IsIn text? file d) :=
  inferInstanceAs (Decidable (_ ∧ _ ∧ _))

/-- An issue is what a diagnostic in a file says: its code, its message and, in lines and columns of
the file's text, its place. -/
structure IsIssueOf (text? : String → Option String) (file : String) (d : Diagnostic)
    (issue : Issue) : Prop where
  code : issue.code = d.code
  message : issue.message = d.message
  range : ∃ text start, text? file = some text ∧ d.start = some start ∧
    issue.range = (LineMap.ofText text.toList).rangeOf start (d.stop?.getD start)

/-- Issues are the diagnostics that have a file and a start and whose file was supplied, grouped by
file: no file stands twice, the files stand in the order in which they were first seen, and the
issues of a file are its diagnostics, one for one and in their order. -/
structure IsGrouping (text? : String → Option String) (diagnostics : List Diagnostic)
    (reduced : Reduced) : Prop where
  nodup : reduced.paths.Nodup
  paths_eq : reduced.paths =
    ((locatedFiles diagnostics).filter fun file => (text? file).isSome).eraseDups
  issues : ∀ file, List.Forall₂ (IsIssueOf text? file)
    (diagnostics.filter fun d => IsIn text? file d) ((reduced.issues.get? file).getD [])
  total : reduced.totalIssues = reduced.issues.issueCount

theorem map_fst_issuesWith (source : String → Option LineMap) (diagnostics : List Diagnostic) :
    (issuesWith source diagnostics).map (·.1) =
      (locatedFiles diagnostics).filter fun file => (source file).isSome := by
  rw [issuesWith, locatedFiles, List.map_filterMap, List.map_filterMap, List.filter_filterMap]
  refine List.filterMap_congr fun d _ => ?_
  cases d.location? with
  | none => rfl
  | some location =>
    cases hsource : source location.1 <;> simp [hsource, Option.filter]

theorem issueIn?_eq_none {text? : String → Option String} {file : String} {d : Diagnostic}
    (h : ¬ IsIn text? file d) : issueIn? text? file d = none := by
  rw [Option.eq_none_iff_forall_ne_some]
  intro issue hissue
  simp only [issueIn?, Diagnostic.location?, sourceOf, Option.bind_eq_bind,
    Option.bind_eq_some_iff, Option.map_eq_some_iff] at hissue
  obtain ⟨location, ⟨name, hname, start, hstart, hlocation⟩, map, ⟨text, htext, -⟩, hfile⟩ := hissue
  cases hlocation
  by_cases heq : name = file
  · subst heq
    exact h ⟨hname, by simp [hstart], by simp [htext]⟩
  · simp [heq] at hfile

theorem exists_issueIn? {text? : String → Option String} {file : String} {d : Diagnostic}
    (h : IsIn text? file d) : ∃ issue, issueIn? text? file d = some issue ∧
      IsIssueOf text? file d issue := by
  obtain ⟨hfile, hstart, htext⟩ := h
  obtain ⟨start, hstart⟩ := Option.isSome_iff_exists.1 hstart
  obtain ⟨text, htext⟩ := Option.isSome_iff_exists.1 htext
  have hissue : issueIn? text? file d =
      some (issueOf (LineMap.ofText text.toList) start d) := by
    simp [issueIn?, Diagnostic.location?, hfile, hstart, sourceOf, htext]
  exact ⟨_, hissue, rfl, rfl, text, start, htext, hstart, rfl⟩

theorem forall₂_issueIn? (text? : String → Option String) (file : String)
    (diagnostics : List Diagnostic) :
    List.Forall₂ (IsIssueOf text? file) (diagnostics.filter fun d => IsIn text? file d)
      (diagnostics.filterMap (issueIn? text? file)) := by
  induction diagnostics with
  | nil => exact .nil
  | cons d diagnostics ih =>
    by_cases h : IsIn text? file d
    · obtain ⟨issue, hissue, hsays⟩ := exists_issueIn? h
      rw [List.filter_cons_of_pos (by simpa using h), List.filterMap_cons_some hissue]
      exact .cons hsays ih
    · rw [List.filter_cons_of_neg (by simpa using h),
        List.filterMap_cons_none (issueIn?_eq_none h)]
      exact ih

theorem isGrouping_groupsOf (text? : String → Option String) (diagnostics : List Diagnostic) :
    IsGrouping text? diagnostics (groupsOf text? diagnostics) := by
  have hpaths : (groupsOf text? diagnostics).paths =
      ((locatedFiles diagnostics).filter fun file => (text? file).isSome).eraseDups := by
    rw [paths, groupsOf, IssuesByFile.paths_pushAll, map_fst_issuesWith]
    simp [IssuesByFile.paths, unseen_nil_left, sourceOf]
  refine ⟨?_, hpaths, fun file => ?_, ?_⟩
  · rw [hpaths]
    exact nodup_eraseDups _
  · rw [getD_get?_groupsOf]
    exact forall₂_issueIn? text? file diagnostics
  · rw [groupsOf, IssuesByFile.issueCount_pushAll]
    exact (Nat.zero_add _).symm

/-- Diagnostics are grouped by file whatever asking for a text does: each located file is asked for
once, in the order in which the files are first seen, and the groups are those of the diagnostics
whose files were supplied. In particular this is what happens where asking has no effects. -/
theorem isGrouping_gather {m : Type → Type} [Monad m] [LawfulMonad m]
    (ask : String → m (Option String)) (diagnostics : List Diagnostic) :
    (∃ result : List (Option String) → Progress,
      gather ask diagnostics = result <$> (locatedFiles diagnostics).eraseDups.mapM ask ∧
        ∀ texts, IsGrouping (answer (locatedFiles diagnostics).eraseDups texts) diagnostics
          (result texts).reduced) ∧
      ∀ read, reads read diagnostics = (locatedFiles diagnostics).eraseDups ∧
        IsGrouping read diagnostics (ofDiagnostics read diagnostics) := by
  refine ⟨⟨gathered diagnostics, gather_eq ask diagnostics, fun texts => ?_⟩, fun read => ?_⟩
  · rw [reduced_gathered]
    exact isGrouping_groupsOf _ diagnostics
  · rw [reads_eq, ofDiagnostics_eq]
    exact ⟨rfl, isGrouping_groupsOf read diagnostics⟩

/-- A reader that keeps a list of what it was asked for and supplies all files but one. -/
def askExcept (missing : String) (file : String) : StateM (List String) (Option String) := do
  modify (· ++ [file])
  return if file = missing then none else some "let x;\n"

/-- Reports in two files that come up in turns. -/
def inTurns : List Diagnostic :=
  [{ file := some "b.ts", start := some 4, message := "x", code := 1 },
    { file := some "a.ts", start := some 0, message := "y", code := 2 },
    { message := "no file", code := 3 },
    { file := some "b.ts", start := some 4, message := "x", code := 1 }]

/-- The files are asked for in the order in which they come up, and the one that cannot be read has
no issues. -/
theorem isGrouping_gather_inTurns :
    LawfulMonad (StateM (List String)) ∧
      (∃ result : List (Option String) → Progress,
        gather (askExcept "a.ts") inTurns = result <$> ["b.ts", "a.ts"].mapM (askExcept "a.ts") ∧
          ∀ texts, IsGrouping (answer ["b.ts", "a.ts"] texts) inTurns (result texts).reduced) ∧
      ∀ read, reads read inTurns = ["b.ts", "a.ts"] ∧
        IsGrouping read inTurns (ofDiagnostics read inTurns) := by
  have hfiles : (locatedFiles inTurns).eraseDups = ["b.ts", "a.ts"] := by decide
  have hgather := isGrouping_gather (askExcept "a.ts") inTurns
  rw [hfiles] at hgather
  exact ⟨inferInstance, hgather⟩

end Reduced

end ExpectError
