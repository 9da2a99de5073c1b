import ExpectError.Project.Discovery
import ExpectError.Proofs.Answers
import ExpectError.Proofs.GlobPatterns
import ExpectError.Proofs.MergedConfigs
import ExpectError.Proofs.Walks
import Mathlib.Data.List.TakeWhile

/-!
# What belongs to a project

A search starts at the folder that a pattern names in front of its first wildcard, and does not
enter folders that are excluded. Neither makes a difference to what is found: what a pattern matches
is below that folder, and what is below an excluded folder is excluded.

* `IsIncluded`: what is to be found, said for each file by itself;
* `exists_searchRoot`: everything that a pattern matches is below the start of the search;
* `IsBelowClosed`: what is below something excluded is excluded;
* `mem_search_iff`: what a search finds;
* `discover_spec`: the files of a project.
-/

namespace ExpectError

namespace Glob

/-- A pattern without errors in it. -/
def IsValid (pattern : List Char) : Prop :=
  ∃ glob, ofText? pattern = .ok glob

/-- A pattern matches a text. -/
def Matches (pattern text : List Char) : Prop :=
  ∃ glob, ofText? pattern = .ok glob ∧ glob.isMatch text = true

instance (pattern : List Char) : Decidable (IsValid pattern) :=
  match h : ofText? pattern with
  | .ok glob => isTrue ⟨glob, h⟩
  | .error _ => isFalse fun ⟨_, hglob⟩ => by cases h.symm.trans hglob

instance (pattern text : List Char) : Decidable (Matches pattern text) :=
  match h : ofText? pattern with
  | .ok glob =>
    if hmatch : glob.isMatch text = true then isTrue ⟨glob, h, hmatch⟩
    else isFalse fun ⟨_, hglob, hother⟩ => by
      cases h.symm.trans hglob
      exact hmatch hother
  | .error _ => isFalse fun ⟨_, hglob, _⟩ => by cases h.symm.trans hglob

end Glob

namespace Project

open FileTree (pathOf descend fronts isReached)
open Pathname (IsName)

variable {tree : FileTree} {root : Pathname} {config : Config} {names folder inside fields : Names}
  {pattern text : List Char} {excluded : List Glob}

/-! ### Where a search starts -/

/-- A pattern that begins at the root and has no steps upwards, dots or backslashes. -/
structure IsSearchable (pattern : List Char) : Prop where
  head?_eq : pattern.head? = some '/'
  not_mem : '\\' ∉ pattern
  ne_dot : ∀ field ∈ Text.fields '/' pattern, field ≠ ['.'] ∧ field ≠ ['.', '.']

/-- The names among the fields of a pattern. -/
theorem IsSearchable.isName (h : IsSearchable pattern) {field : List Char}
    (hfield : field ∈ Text.fields '/' pattern) (hne : field ≠ []) : IsName field :=
  ⟨hne, (h.ne_dot field hfield).1, (h.ne_dot field hfield).2, Text.not_mem_of_mem_fields hfield⟩

theorem isPlain_of_hasWildcard {c : Char} {part : List Char} (h : hasWildcard part = false)
    (hc : c ∈ part) (hne : c ≠ '\\') : Glob.isPlain c = true := by
  simp only [hasWildcard, List.any_eq_false] at h
  have := h c hc
  simp_all [Glob.isPlain]

/-- The parts of a pattern between slashes. -/
def partsOf (pattern : List Char) : Names :=
  (Text.fields '/' pattern).filter fun part => !part.isEmpty

theorem IsSearchable.isName_of_mem_partsOf (h : IsSearchable pattern) :
    ∀ part ∈ partsOf pattern, IsName part ∧ '\\' ∉ part := by
  intro part hpart
  obtain ⟨hfield, hne⟩ := List.mem_filter.1 hpart
  exact ⟨h.isName hfield (by simpa using hne),
    fun hmem => h.not_mem (Text.mem_of_mem_fields hfield hmem)⟩

/-- A search starts at the last folder in front of a wildcard, or in the folder of the file if there
is no wildcard. -/
theorem IsSearchable.searchRoot_eq (h : IsSearchable pattern) :
    searchRoot pattern = pathOf
      (if (partsOf pattern).all fun part => !hasWildcard part then (partsOf pattern).dropLast
      else (partsOf pattern).takeWhile fun part => !hasWildcard part) := by
  have hnames : ∀ part ∈ partsOf pattern, IsName part :=
    fun part hpart => (h.isName_of_mem_partsOf part hpart).1
  have htake : ∀ part ∈ (partsOf pattern).takeWhile fun part => !hasWildcard part, IsName part :=
    fun part hpart => hnames part ((List.takeWhile_prefix _).subset hpart)
  have hfolder : ((partsOf pattern).takeWhile fun part => !hasWildcard part).foldl
      (fun path part => path.join ⟨part⟩) ⟨['/']⟩ =
        pathOf ((partsOf pattern).takeWhile fun part => !hasWildcard part) :=
    (Pathname.descend_pathOf (by simp) htake : descend (pathOf []) _ = pathOf ([] ++ _))
  have hcomponents : (Pathname.mk pattern).components = .root :: (partsOf pattern).map .name :=
    Pathname.components_of_isAbsolute (by simp [Pathname.isAbsolute, h.head?_eq]) h.ne_dot
  have hunfold : searchRoot pattern =
      if (Pathname.mk pattern).components =
          (pathOf ((partsOf pattern).takeWhile fun part => !hasWildcard part)).components then
        (pathOf ((partsOf pattern).takeWhile fun part => !hasWildcard part)).parent?.getD
          (pathOf ((partsOf pattern).takeWhile fun part => !hasWildcard part))
      else pathOf ((partsOf pattern).takeWhile fun part => !hasWildcard part) := by
    rw [← hfolder, searchRoot, if_pos h.head?_eq]
    rfl
  -- no part is left out exactly if none of them has a wildcard
  have hsame : Pathname.Component.root :: (partsOf pattern).map .name =
      .root :: ((partsOf pattern).takeWhile fun part => !hasWildcard part).map .name ↔
        (partsOf pattern).all (fun part => !hasWildcard part) = true := by
    rw [List.cons.injEq, and_iff_right rfl,
      (List.map_injective_iff.2 fun a b => Pathname.Component.name.inj).eq_iff, eq_comm,
      List.takeWhile_eq_self_iff, List.all_eq_true]
  rw [hunfold, hcomponents, Pathname.components_pathOf htake]
  by_cases hall : (partsOf pattern).all (fun part => !hasWildcard part) = true
  · rw [if_pos (hsame.2 hall), if_pos hall,
      List.takeWhile_eq_self_iff.2 (List.all_eq_true.1 hall)]
    rcases List.eq_nil_or_concat' (partsOf pattern) with hnil | ⟨front, last, hparts⟩
    · rw [hnil]
      rfl
    · rw [hparts] at hnames ⊢
      obtain ⟨hfront, hlast⟩ := List.forall_mem_append.1 hnames
      rw [Pathname.parent?_pathOf hfront (hlast last List.mem_cons_self), List.dropLast_concat]
      rfl
  · rw [if_neg (hsame.not.2 hall), if_neg hall]

/-- Plain fields of a pattern consist of plain characters. -/
theorem IsSearchable.isPlain_of_mem_flatMap (h : IsSearchable pattern)
    (hfields : ∀ field ∈ fields, field ∈ Text.fields '/' pattern ∧ hasWildcard field = false) :
    ∀ c ∈ fields.flatMap ('/' :: ·), Glob.isPlain c = true := by
  intro c hc
  obtain ⟨field, hfield, hc⟩ := List.mem_flatMap.1 hc
  obtain ⟨hmem, hplain⟩ := hfields field hfield
  rcases List.mem_cons.1 hc with rfl | hc
  · rfl
  · refine isPlain_of_hasWildcard hplain hc ?_
    rintro rfl
    exact h.not_mem (Text.mem_of_mem_fields hmem hc)

theorem IsSearchable.fields_eq (h : IsSearchable pattern) :
    ∃ parts, Text.fields '/' pattern = [] :: parts ∧ pattern = parts.flatMap ('/' :: ·) := by
  obtain ⟨rest, rfl⟩ := List.head?_eq_some_iff.1 h.head?_eq
  exact ⟨_, Text.fields_cons_separator '/' rest, (Text.flatMap_fields '/' rest).symm⟩

/-- A pattern without wildcards only matches the path name that it is. -/
theorem IsSearchable.fields_of_matches (h : IsSearchable pattern) (hne : names ≠ [])
    (hnames : ∀ name ∈ names, IsName name) (hmatch : Glob.Matches pattern (pathOf names).text)
    (hplain : ∀ field ∈ Text.fields '/' pattern, hasWildcard field = false) :
    Text.fields '/' pattern = [] :: names := by
  obtain ⟨glob, hglob, hmatch⟩ := hmatch
  obtain ⟨parts, hfields, hpattern⟩ := h.fields_eq
  have hchars : ∀ c ∈ pattern, Glob.isPlain c = true := by
    rw [hpattern]
    refine h.isPlain_of_mem_flatMap fun field hfield => ?_
    have hmem : field ∈ Text.fields '/' pattern := hfields ▸ List.mem_cons_of_mem _ hfield
    exact ⟨hmem, hplain field hmem⟩
  rw [← Glob.eq_of_isMatch hglob hchars hmatch,
    Pathname.fields_pathOf hne fun name hname => (hnames name hname).not_mem]

/-- What a pattern matches is below the fields in front of its first wildcard. -/
theorem IsSearchable.eq_append_of_matches (h : IsSearchable pattern) (hne : names ≠ [])
    (hnames : ∀ name ∈ names, IsName name) (hmatch : Glob.Matches pattern (pathOf names).text)
    {wild : List Char} {more : Names}
    (hfields : Text.fields '/' pattern = [] :: (fields ++ wild :: more))
    (hplain : ∀ field ∈ fields, hasWildcard field = false) :
    ∃ inside, inside ≠ [] ∧ names = fields ++ inside := by
  obtain ⟨glob, hglob, hmatch⟩ := hmatch
  obtain ⟨parts, hparts, hpattern⟩ := h.fields_eq
  have hfront : pattern = fields.flatMap ('/' :: ·) ++ '/' :: (wild ++ more.flatMap ('/' :: ·)) := by
    rw [hpattern, (List.cons.inj (hparts.symm.trans hfields)).2]
    simp
  have hmem : ∀ field ∈ fields, field ∈ Text.fields '/' pattern := fun field hfield => by
    simp [hfields, hfield]
  have hchars : ∀ c ∈ fields.flatMap ('/' :: ·), Glob.isPlain c = true :=
    h.isPlain_of_mem_flatMap fun field hfield => ⟨hmem field hfield, hplain field hfield⟩
  obtain ⟨below, hbelow⟩ := Glob.front_of_isMatch (hfront ▸ hglob) hchars hmatch
  have hsame := congrArg (Text.fields '/') hbelow
  rw [Pathname.fields_pathOf hne fun name hname => (hnames name hname).not_mem,
    Text.fields_append_separator,
    Text.fields_flatMap fun field hfield => Text.not_mem_of_mem_fields (hmem field hfield)] at hsame
  exact ⟨_, Text.fields_ne_nil '/' below, (List.cons.inj hsame).2⟩

theorem exists_split_hasWildcard (h : ¬∀ field ∈ fields, hasWildcard field = false) :
    ∃ plain wild more, fields = plain ++ wild :: more ∧
      (∀ field ∈ plain, hasWildcard field = false) ∧ hasWildcard wild = true := by
  induction fields with
  | nil => exact absurd (by simp) h
  | cons field fields ih =>
    cases hfield : hasWildcard field with
    | true => exact ⟨[], field, fields, rfl, by simp, hfield⟩
    | false =>
      obtain ⟨plain, wild, more, rfl, hplain, hwild⟩ :=
        ih fun hfields => h (List.forall_mem_cons.2 ⟨hfield, hfields⟩)
      exact ⟨field :: plain, wild, more, rfl, List.forall_mem_cons.2 ⟨hfield, hplain⟩, hwild⟩

/-- The start of a search is a place, and everything that the pattern matches is below it. -/
theorem IsSearchable.exists_searchRoot (h : IsSearchable pattern) :
    ∃ folder, searchRoot pattern = pathOf folder ∧ (∀ name ∈ folder, IsName name ∧ '\\' ∉ name) ∧
      ∀ names, names ≠ [] → (∀ name ∈ names, IsName name) →
        Glob.Matches pattern (pathOf names).text →
        ∃ inside, inside ≠ [] ∧ names = folder ++ inside := by
  refine ⟨_, h.searchRoot_eq, fun name hname => h.isName_of_mem_partsOf name ?_, ?_⟩
  · split at hname
    · exact List.mem_of_mem_dropLast hname
    · exact (List.takeWhile_prefix _).subset hname
  intro names hne hnames hmatch
  obtain ⟨parts, hfields, -⟩ := h.fields_eq
  by_cases hall : ∀ field ∈ parts, hasWildcard field = false
  · -- without a wildcard the pattern matches only itself, and its folder is searched
    have hsame : Text.fields '/' pattern = [] :: names :=
      h.fields_of_matches hne hnames hmatch (by
        rw [hfields]
        exact List.forall_mem_cons.2 ⟨rfl, hall⟩)
    have hparts : partsOf pattern = names := by
      rw [partsOf, hsame, List.filter_cons_of_neg (by simp), Pathname.filter_isEmpty hnames]
    cases (List.cons.inj (hfields.symm.trans hsame)).2
    rw [hparts, if_pos (List.all_eq_true.2 fun name hname => by simp [hall name hname])]
    exact ⟨[names.getLast hne], by simp, (List.dropLast_append_getLast hne).symm⟩
  · -- the parts in front of the first wildcard stand for themselves
    obtain ⟨plain, wild, more, rfl, hplain, hwild⟩ := exists_split_hasWildcard hall
    obtain ⟨inside, hinside, rfl⟩ := h.eq_append_of_matches hne hnames hmatch hfields hplain
    have hempty : wild.isEmpty = false := by
      cases wild with
      | nil => cases hwild
      | cons c cs => rfl
    have hparts : partsOf pattern = plain ++ wild :: more.filter fun part => !part.isEmpty := by
      rw [partsOf, hfields, List.filter_cons_of_neg (by simp), List.filter_append,
        List.filter_cons_of_pos (by simp [hempty]),
        Pathname.filter_isEmpty fun field hfield => hnames field (by simp [hfield])]
    rw [hparts, if_neg (by simp [hwild]), List.takeWhile_append_of_pos
      fun field hfield => by simp [hplain field hfield],
      List.takeWhile_cons_of_neg (by simp [hwild]), List.append_nil]
    exact ⟨inside, hinside, rfl⟩

/-! ### What a search finds -/

/-- What is below something excluded is excluded. -/
def IsBelowClosed (excluded : List Glob) : Prop :=
  ∀ glob ∈ excluded, ∀ folder inside, glob.isMatch folder = true →
    ∃ other ∈ excluded, other.isMatch (folder ++ '/' :: inside) = true

/-- The folders strictly between the start of a search and something below it. -/
def foldersBetween (start : Pathname) (names : Names) : Names :=
  names.dropLast.drop (start.components.length - 1)

theorem foldersBetween_append (hfolder : ∀ name ∈ folder, IsName name) (hne : inside ≠ []) :
    foldersBetween (pathOf folder) (folder ++ inside) = inside.dropLast := by
  rw [foldersBetween, Pathname.components_pathOf hfolder, List.dropLast_append_of_ne_nil hne]
  simp

theorem isExcluded_eq_false_iff (h : ∀ name ∈ names, '\\' ∉ name) :
    isExcluded excluded (pathOf names) = false ↔
      ∀ glob ∈ excluded, glob.isMatch (pathOf names).text = false := by
  rw [isExcluded, Pathname.withSlashes_pathOf h, List.any_eq_false]
  simp only [Bool.not_eq_true]

/-- The folders around something that is not excluded are not excluded. -/
theorem IsBelowClosed.not_isExcluded (h : IsBelowClosed excluded) (hne : names ≠ [])
    (hinside : inside ≠ []) (hslashes : ∀ name ∈ names, '\\' ∉ name)
    (hnot : ∀ glob ∈ excluded, glob.isMatch (pathOf (names ++ inside)).text = false) :
    isExcluded excluded (pathOf names) = false := by
  refine (isExcluded_eq_false_iff hslashes).2 fun glob hglob => ?_
  by_contra hmatch
  obtain ⟨rest, hrest⟩ := Pathname.exists_text_pathOf_append hne hinside
  obtain ⟨other, hother, hbelow⟩ := h glob hglob (pathOf names).text rest (by simpa using hmatch)
  rw [← hrest, hnot other hother] at hbelow
  cases hbelow

/-- A file that is not excluded is reached if no folder on the way is one of packages. -/
theorem isReached_iff (hclosed : IsBelowClosed excluded)
    (hfolder : ∀ name ∈ folder, IsName name ∧ '\\' ∉ name)
    (hinside : ∀ name ∈ inside, IsName name ∧ '\\' ∉ name)
    (hnot : ∀ glob ∈ excluded, glob.isMatch (pathOf (folder ++ inside)).text = false)
    {entry : Entry} (hentry : entry ≠ .folder) :
    isReached (pathOf folder) (entersFolder excluded) inside entry = true ↔
      ∀ name ∈ inside.dropLast, packageFolders.contains (String.ofList name) = false := by
  rw [← FileTree.forall_fronts_iff [], isReached, List.all_eq_true]
  refine forall₂_congr fun front hfront => ?_
  obtain ⟨hne, rest, rfl⟩ := FileTree.mem_fronts.1 hfront
  have hdescend : descend (pathOf folder) front = pathOf (folder ++ front) :=
    Pathname.descend_pathOf (fun name hname => (hfolder name hname).1)
      fun name hname => (hinside name (List.mem_append_left _ hname)).1
  by_cases hrest : rest = []
  · simp [hrest, hentry]
  · have hpart : front ≠ front ++ rest := by simpa using Ne.symm hrest
    have hopen : isExcluded excluded (pathOf (folder ++ front)) = false := by
      refine hclosed.not_isExcluded (by simp [hne]) hrest ?_ (by simpa using hnot)
      intro name hname
      rcases List.mem_append.1 hname with hname | hname
      · exact (hfolder name hname).2
      · exact (hinside name (List.mem_append_left _ hname)).2
    simp [entersFolder, hdescend, hopen, hpart]

/-- A search finds the files that its pattern matches, unless they are excluded or in a folder of
packages. -/
theorem mem_search_iff (hsound : tree.IsSound)
    (hslashes : ∀ entry ∈ tree.entries, ∀ name ∈ entry.1, '\\' ∉ name)
    (hpattern : IsSearchable pattern) {glob : Glob} (hglob : Glob.ofText? pattern = .ok glob)
    (hclosed : IsBelowClosed excluded) {path : Pathname} :
    path ∈ search tree config excluded pattern glob ↔
      ∃ names, path = pathOf names ∧
        (∃ content executable, tree.find? names = some (.file content executable)) ∧
        isSource config (pathOf names) = true ∧ glob.isMatch (pathOf names).text = true ∧
        (∀ name ∈ foldersBetween (searchRoot pattern) names,
          packageFolders.contains (String.ofList name) = false) ∧
        ∀ other ∈ excluded, other.isMatch (pathOf names).text = false := by
  obtain ⟨folder, hroot, hfolder, hbelow⟩ := hpattern.exists_searchRoot
  have hnames {names : Names} {entry : Entry} (hfind : tree.find? names = some entry) :
      ∀ name ∈ names, IsName name ∧ '\\' ∉ name := fun name hname => by
    refine ⟨hsound.isName_of_find? hfind name hname, ?_⟩
    have hne : names ≠ [] := List.ne_nil_of_mem hname
    exact hslashes _ ((hsound.find?_eq_some_iff hne).1 hfind) name hname
  -- what matches lies below the folder in which the search starts
  have hinside {names : Names} {content : List UInt8} {executable : Bool}
      (hfind : tree.find? names = some (.file content executable))
      (hmatch : glob.isMatch (pathOf names).text = true) :
      ∃ inside, inside ≠ [] ∧ names = folder ++ inside := by
    refine hbelow names ?_ (fun name hname => (hnames hfind name hname).1) ⟨glob, hglob, hmatch⟩
    rintro rfl
    cases hfind
  have hwithin : ∀ name ∈ folder, IsName name := fun name hname => (hfolder name hname).1
  rw [search, hroot, List.mem_map]
  constructor
  · rintro ⟨⟨path, entry⟩, hfound, rfl⟩
    obtain ⟨hwalk, hfound⟩ := List.mem_filter.1 hfound
    simp only [Bool.and_eq_true, Bool.not_eq_true', decide_eq_true_eq] at hfound
    obtain ⟨⟨⟨hentry, hsource⟩, hmatch⟩, hnot⟩ := hfound
    obtain ⟨inside, rfl, hfind, hreached⟩ := (hsound.mem_walk_iff hwithin).1 hwalk
    have hat := hnames hfind
    rw [Pathname.withSlashes_pathOf fun name hname => (hat name hname).2] at hmatch
    rw [isExcluded_eq_false_iff fun name hname => (hat name hname).2] at hnot
    cases entry with
    | folder => exact absurd rfl hentry
    | file content executable =>
      obtain ⟨inside', hne, heq⟩ := hinside hfind hmatch
      cases List.append_cancel_left heq
      refine ⟨_, rfl, ⟨content, executable, hfind⟩, hsource, hmatch, ?_, hnot⟩
      rw [foldersBetween_append hwithin hne]
      exact (isReached_iff hclosed hfolder
        (fun name hname => hat name (List.mem_append_right _ hname)) hnot hentry).1 hreached
  · rintro ⟨names, rfl, ⟨content, executable, hfind⟩, hsource, hmatch, hpackages, hnot⟩
    obtain ⟨inside, hne, rfl⟩ := hinside hfind hmatch
    have hat := hnames hfind
    rw [foldersBetween_append hwithin hne] at hpackages
    have hreached := (isReached_iff hclosed hfolder
      (fun name hname => hat name (List.mem_append_right _ hname)) hnot
      (Entry.noConfusion : Entry.file content executable ≠ .folder)).2 hpackages
    refine ⟨(_, .file content executable), List.mem_filter.2
      ⟨(hsound.mem_walk_iff hwithin).2 ⟨inside, rfl, hfind, hreached⟩, ?_⟩, rfl⟩
    simp only [Bool.and_eq_true, Bool.not_eq_true', decide_eq_true_eq]
    rw [Pathname.withSlashes_pathOf fun name hname => (hat name hname).2,
      isExcluded_eq_false_iff fun name hname => (hat name hname).2]
    exact ⟨⟨⟨by simp, hsource⟩, hmatch⟩, hnot⟩

/-! ### Entries to exclude -/

/-- The pattern of an entry to exclude. -/
def excludePattern (entry : String) : List Char :=
  dropEndSlashes entry.toList

/-- An entry excludes a text: it matches it, or with a slash and two stars behind it, it does. -/
def Excludes (entry : String) (text : List Char) : Prop :=
  Glob.Matches (excludePattern entry) text ∨
    Glob.Matches (excludePattern entry ++ "/**".toList) text

instance (entry : String) (text : List Char) : Decidable (Excludes entry text) :=
  inferInstanceAs (Decidable (_ ∨ _))

theorem exists_eq_append_dropEndSlashes (text : List Char) :
    ∃ n, text = dropEndSlashes text ++ List.replicate n '/' := by
  refine ⟨(text.reverse.takeWhile (· = '/')).length, ?_⟩
  have hslashes : List.replicate (text.reverse.takeWhile (· = '/')).length '/' =
      text.reverse.takeWhile (· = '/') :=
    (List.eq_replicate_of_mem fun c hc => by simpa using List.mem_takeWhile_imp hc).symm
  rw [← List.reverse_replicate, hslashes, dropEndSlashes, ← List.reverse_append,
    List.takeWhile_append_dropWhile, List.reverse_reverse]

theorem head?_dropEndSlashes (h : text.head? = some '/') :
    dropEndSlashes text = [] ∨ (dropEndSlashes text).head? = some '/' := by
  obtain ⟨n, hn⟩ := exists_eq_append_dropEndSlashes text
  cases hdrop : dropEndSlashes text with
  | nil => exact Or.inl rfl
  | cons c cs =>
    rw [hdrop] at hn
    rw [hn] at h
    exact Or.inr h

/-- Valid entries to exclude give patterns, and those match what the entries exclude and everything
below it. -/
theorem exists_excluded {entries : List String}
    (habsolute : ∀ entry ∈ entries, entry.toList.head? = some '/')
    (hvalid : ∀ entry ∈ entries, Glob.IsValid (excludePattern entry)) :
    ∃ globs, entries.mapM excludeGlobs = .ok globs ∧ IsBelowClosed globs.flatten ∧
      ∀ text, (∀ glob ∈ globs.flatten, glob.isMatch text = false) ↔
        ∀ entry ∈ entries, ¬Excludes entry text := by
  have hentry : ∀ entry ∈ entries, ∃ globs, excludeGlobs entry = .ok globs ∧
      ∃ itself below, globs = [itself, below] ∧
        Glob.ofText? (excludePattern entry) = .ok itself ∧
        Glob.ofText? (excludePattern entry ++ "/**".toList) = .ok below ∧
        ∀ folder inside, itself.isMatch folder = true ∨ below.isMatch folder = true →
          below.isMatch (folder ++ '/' :: inside) = true := by
    intro entry hentry
    obtain ⟨itself, hitself⟩ := hvalid entry hentry
    obtain ⟨below, hbelow, hmatch⟩ :=
      Glob.exists_isMatch_below hitself (head?_dropEndSlashes (habsolute entry hentry))
    refine ⟨[itself, below], ?_, itself, below, rfl, hitself, hbelow, hmatch⟩
    rw [excludePattern] at hitself hbelow
    simp only [excludeGlobs, hitself, hbelow]
  obtain ⟨globs, hglobs, hback, hforth⟩ := exists_mapM hentry
  refine ⟨globs, hglobs, ?_, fun text => ⟨fun hnone entry hmem => ?_, fun hnone glob hglob => ?_⟩⟩
  · -- what an entry matches is matched by its second pattern with anything below it
    intro glob hglob folder inside hmatch
    obtain ⟨pair, hpair, hmem⟩ := List.mem_flatten.1 hglob
    obtain ⟨entry, -, itself, below, rfl, -, -, hclosed⟩ := hback pair hpair
    refine ⟨below, List.mem_flatten.2 ⟨_, hpair, by simp⟩, hclosed folder inside ?_⟩
    simp only [List.mem_cons, List.not_mem_nil, or_false] at hmem
    rcases hmem with rfl | rfl
    · exact Or.inl hmatch
    · exact Or.inr hmatch
  · obtain ⟨pair, hpair, itself, below, rfl, hitself, hbelow, -⟩ := hforth entry hmem
    have hone := fun glob hglob => hnone glob (List.mem_flatten.2 ⟨_, hpair, hglob⟩)
    rintro (⟨glob, hglob, hmatch⟩ | ⟨glob, hglob, hmatch⟩)
    · cases hitself.symm.trans hglob
      exact absurd hmatch (by simp [hone itself (by simp)])
    · cases hbelow.symm.trans hglob
      exact absurd hmatch (by simp [hone below (by simp)])
  · obtain ⟨pair, hpair, hmem⟩ := List.mem_flatten.1 hglob
    obtain ⟨entry, hentry, itself, below, rfl, hitself, hbelow, -⟩ := hback pair hpair
    have hone := hnone entry hentry
    simp only [List.mem_cons, List.not_mem_nil, or_false] at hmem
    by_contra hmatch
    rcases hmem with rfl | rfl
    · exact hone (Or.inl ⟨glob, hitself, by simpa using hmatch⟩)
    · exact hone (Or.inr ⟨glob, hbelow, by simpa using hmatch⟩)

/-! ### The whole project -/

/-- Adding path names keeps those that are there, and none is there twice. -/
theorem addNew_spec (found new : List Pathname) :
    ((found.Pairwise fun a b => a.components ≠ b.components) →
      (addNew found new).Pairwise fun a b => a.components ≠ b.components) ∧
    ∀ components, (∃ path ∈ addNew found new, path.components = components) ↔
      (∃ path ∈ found, path.components = components) ∨
        ∃ path ∈ new, path.components = components := by
  induction new generalizing found with
  | nil => exact ⟨id, by simp [addNew]⟩
  | cons path new ih =>
    rw [addNew]
    by_cases hany : (found.any fun other => other.components = path.components) = true
    · obtain ⟨other, hother, heq⟩ := List.any_eq_true.1 hany
      rw [if_pos hany]
      refine ⟨(ih found).1, fun components => ((ih found).2 components).trans ?_⟩
      constructor
      · rintro (h | ⟨q, hq, h⟩)
        · exact Or.inl h
        · exact Or.inr ⟨q, List.mem_cons_of_mem _ hq, h⟩
      · rintro (h | ⟨q, hq, h⟩)
        · exact Or.inl h
        · rcases List.mem_cons.1 hq with rfl | hq
          · exact Or.inl ⟨other, hother, (of_decide_eq_true heq).trans h⟩
          · exact Or.inr ⟨q, hq, h⟩
    · rw [if_neg hany]
      refine ⟨fun hfound => (ih (found ++ [path])).1 ?_, fun components =>
        ((ih (found ++ [path])).2 components).trans ?_⟩
      · refine List.pairwise_append.2 ⟨hfound, List.pairwise_singleton _ _, fun a ha b hb heq => ?_⟩
        cases List.mem_singleton.1 hb
        exact hany (List.any_eq_true.2 ⟨a, ha, decide_eq_true heq⟩)
      · simp only [List.mem_append, List.mem_cons, List.not_mem_nil, or_false, or_and_right,
          exists_or, exists_eq_left, or_assoc]

theorem exists_searchAll {entries : List String}
    (hvalid : ∀ entry ∈ entries, Glob.IsValid (includePattern entry)) (found : List Pathname) :
    ∃ result, searchAll tree config excluded entries found = .ok result ∧
      ((found.Pairwise fun a b => a.components ≠ b.components) →
        result.Pairwise fun a b => a.components ≠ b.components) ∧
      ∀ components, (∃ path ∈ result, path.components = components) ↔
        (∃ path ∈ found, path.components = components) ∨
          ∃ entry ∈ entries, ∃ glob, Glob.ofText? (includePattern entry) = .ok glob ∧
            ∃ path ∈ search tree config excluded (includePattern entry) glob,
              path.components = components := by
  induction entries generalizing found with
  | nil => exact ⟨found, rfl, id, by simp⟩
  | cons entry entries ih =>
    obtain ⟨⟨glob, hglob⟩, hentries⟩ := List.forall_mem_cons.1 hvalid
    obtain ⟨hpairwise, hadded⟩ :=
      addNew_spec found (search tree config excluded (includePattern entry) glob)
    obtain ⟨result, hresult, hnext, hfound⟩ := ih hentries
      (addNew found (search tree config excluded (includePattern entry) glob))
    refine ⟨result, ?_, hnext ∘ hpairwise, fun components => (hfound components).trans ?_⟩
    · rw [searchAll, hglob]
      exact hresult
    · rw [hadded, or_assoc]
      refine or_congr_right ?_
      simp only [List.mem_cons, or_and_right, exists_or, exists_eq_left, hglob, Except.ok.injEq,
        exists_eq_left']

theorem listedFiles_eq (h : ∀ file ∈ config.files.getD [], tree.isFile (.ofString file) = true) :
    ∃ listed, listedFiles tree config = .ok listed ∧ ∀ components,
      (∃ path ∈ listed, path.components = components) ↔
        ∃ file ∈ config.files.getD [], (Pathname.ofString file).components = components := by
  obtain ⟨listed, hlisted, hback, hforth⟩ := exists_mapM
    (R := fun file path => path = Pathname.ofString file) (l := config.files.getD [])
    fun file hfile => ⟨_, if_pos (h file hfile), rfl⟩
  refine ⟨listed, hlisted, fun components => ⟨?_, ?_⟩⟩
  · rintro ⟨path, hpath, hcomponents⟩
    obtain ⟨file, hfile, rfl⟩ := hback path hpath
    exact ⟨file, hfile, hcomponents⟩
  · rintro ⟨file, hfile, hcomponents⟩
    obtain ⟨path, hpath, rfl⟩ := hforth file hfile
    exact ⟨_, hpath, hcomponents⟩

/-- An entry without dots gives a pattern to search for. -/
theorem isSearchable_includePattern {entry : String} (h : Config.IsRebased entry)
    (hdots : ∀ field ∈ Text.fields '/' entry.toList, field ≠ ['.'] ∧ field ≠ ['.', '.']) :
    IsSearchable (includePattern entry) := by
  -- the slashes at the end are taken off, which takes no field with text away
  obtain ⟨n, hn⟩ := exists_eq_append_dropEndSlashes entry.toList
  have hmem : '\\' ∉ dropEndSlashes entry.toList := fun hmem =>
    h.not_mem (by rw [hn]; exact List.mem_append_left _ hmem)
  have hfields : ∀ field ∈ Text.fields '/' (dropEndSlashes entry.toList),
      field ≠ ['.'] ∧ field ≠ ['.', '.'] := fun field hfield => by
    refine hdots field ?_
    rw [hn]
    cases n with
    | zero => simpa using hfield
    | succ n =>
      rw [List.replicate_succ, Text.fields_append_separator]
      exact List.mem_append_left _ hfield
  have hhead := head?_dropEndSlashes h.head?_eq
  rw [includePattern]
  generalize dropEndSlashes entry.toList = trimmed at *
  split
  next =>
    refine ⟨?_, ?_, ?_⟩
    · rcases hhead with rfl | hhead
      · rfl
      · rw [List.head?_append, hhead]
        rfl
    · simpa using hmem
    · rw [show trimmed ++ "/**/*".toList = trimmed ++ '/' :: "**/*".toList from rfl,
        Text.fields_append_separator]
      exact List.forall_mem_append.2 ⟨hfields, by decide⟩
  next hnot =>
    rcases hhead with rfl | hhead
    · exact absurd (by decide) hnot
    · exact ⟨hhead, hmem, hfields⟩

/-- A file that belongs to a project: it has the ending of a source file, an entry to include
matches it, no folder between the start of the search and the file is one of packages, and no entry
to exclude excludes it. -/
structure IsIncluded (tree : FileTree) (root : Pathname) (config : Config) (names : Names) :
    Prop where
  isFile : ∃ content executable, tree.find? names = some (.file content executable)
  isSource : isSource config (pathOf names) = true
  included : ∃ entry ∈ includeEntries root config,
    Glob.Matches (includePattern entry) (pathOf names).text ∧
      ∀ name ∈ foldersBetween (searchRoot (includePattern entry)) names,
        packageFolders.contains (String.ofList name) = false
  not_excluded : ∀ entry ∈ excludeEntries root config, ¬Excludes entry (pathOf names).text

theorem isRebased_includeEntries (hroot : root.isAbsolute = true) (hmerged : config.IsMerged) :
    ∀ entry ∈ includeEntries root config, Config.IsRebased entry := by
  have hincludes := hmerged.includes
  rw [includeEntries]
  split
  next entries _ heq => simpa [heq] using hincludes
  next => simp
  next =>
    simp only [List.mem_singleton, forall_eq]
    exact ⟨root, _, hroot, rfl⟩

theorem isRebased_excludeEntries (hroot : root.isAbsolute = true) (hmerged : config.IsMerged) :
    ∀ entry ∈ excludeEntries root config, Config.IsRebased entry := by
  have hexcludes := hmerged.excludes
  intro entry hentry
  rw [excludeEntries, List.mem_append] at hentry
  rcases hentry with hentry | hentry
  · cases hsome : config.excludes with
    | none =>
      rw [hsome] at hentry
      obtain ⟨name, -, rfl⟩ := List.mem_map.1 hentry
      exact ⟨root, name, hroot, rfl⟩
    | some entries =>
      rw [hsome] at hentry hexcludes
      exact hexcludes entry hentry
  · obtain ⟨name, -, rfl⟩ := Option.map_eq_some_iff.1 (Option.mem_toList.1 hentry)
    exact ⟨root, name, hroot, rfl⟩

/-- In a sound tree without backslashes in names, a merged configuration whose patterns are valid,
whose entries to include have no dots left, and whose listed files exist has a list of files without
repetitions. It has just the listed files and those that are included. -/
theorem discover_spec (hsound : tree.IsSound)
    (hslashes : ∀ entry ∈ tree.entries, ∀ name ∈ entry.1, '\\' ∉ name)
    (hroot : root.isAbsolute = true) (hmerged : config.IsMerged)
    (hdots : ∀ entry ∈ includeEntries root config, ∀ field ∈ Text.fields '/' entry.toList,
      field ≠ ['.'] ∧ field ≠ ['.', '.'])
    (hincludes : ∀ entry ∈ includeEntries root config, Glob.IsValid (includePattern entry))
    (hexcludes : ∀ entry ∈ excludeEntries root config, Glob.IsValid (excludePattern entry))
    (hfiles : ∀ file ∈ config.files.getD [], tree.isFile (.ofString file) = true) :
    ∃ found, discover tree root config = .ok found ∧
      (found.Pairwise fun a b => a.components ≠ b.components) ∧
      ∀ path : Pathname, (∃ other ∈ found, other.components = path.components) ↔
        (∃ file ∈ config.files.getD [], (Pathname.ofString file).components = path.components) ∨
          ∃ names, (pathOf names).components = path.components ∧
            IsIncluded tree root config names := by
  obtain ⟨listed, hlisted, hlistedFiles⟩ := listedFiles_eq hfiles
  obtain ⟨globs, hglobs, hclosed, hnot⟩ := exists_excluded
    (fun entry hentry => (isRebased_excludeEntries hroot hmerged entry hentry).head?_eq) hexcludes
  obtain ⟨hpairwise, hadded⟩ := addNew_spec [] listed
  obtain ⟨found, hfound, hnext, hmem⟩ :=
    @exists_searchAll tree config globs.flatten _ hincludes (addNew [] listed)
  have hsearches {path : Pathname} (entry : String) (hentry : entry ∈ includeEntries root config)
      {glob : Glob} (hglob : Glob.ofText? (includePattern entry) = .ok glob) :=
    @mem_search_iff tree config _ _ hsound hslashes (isSearchable_includePattern
      (isRebased_includeEntries hroot hmerged entry hentry) (hdots entry hentry)) glob hglob
      hclosed path
  refine ⟨found, ?_, hnext (hpairwise .nil), fun path => (hmem path.components).trans ?_⟩
  · rw [discover, hlisted, hglobs]
    exact hfound
  · simp only [hadded, hlistedFiles, List.not_mem_nil, false_and, exists_false, false_or]
    refine or_congr_right ⟨?_, ?_⟩
    · rintro ⟨entry, hentry, glob, hglob, found, hsearch, hcomponents⟩
      obtain ⟨names, rfl, hfile, hsource, hmatch, hpackages, hout⟩ :=
        (hsearches entry hentry hglob).1 hsearch
      exact ⟨names, hcomponents, hfile, hsource,
        ⟨entry, hentry, ⟨glob, hglob, hmatch⟩, hpackages⟩, (hnot _).1 hout⟩
    · rintro ⟨names, hcomponents, hfile, hsource, ⟨entry, hentry, ⟨glob, hglob, hmatch⟩,
        hpackages⟩, hout⟩
      exact ⟨entry, hentry, glob, hglob, pathOf names, (hsearches entry hentry hglob).2
        ⟨names, rfl, hfile, hsource, hmatch, hpackages, (hnot _).2 hout⟩, hcomponents⟩

/-! ### Two small projects -/

/-- Entries to include below `/r`. -/
def including (entries : List String) : Config :=
  { includes := some (entries.map (Config.rebasePath (.ofString "/r"))) }

/-- An empty file, and the folders around it. -/
def oneFile (names : Names) : FileTree :=
  { entries := (fronts names).map fun front =>
      (front, if front = names then .file [] false else .folder) }

/-- A source file, and another one in a folder of packages. -/
def withPackages : FileTree where
  entries := [(["r".toList], .folder), (["r".toList, "x.ts".toList], .file [] false),
    (["r".toList, "bower_components".toList], .folder),
    (["r".toList, "bower_components".toList, "y.ts".toList], .file [] false)]

theorem isSound_withPackages : withPackages.IsSound := by
  decide +kernel

/-- Without a configuration the source file is found and the one in the folder of packages is not. -/
theorem discover_withPackages :
    ∃ found, discover withPackages (.ofString "/r") {} = .ok found ∧
      (∃ path ∈ found, path.components = (Pathname.ofString "/r/x.ts").components) ∧
      ¬∃ path ∈ found,
        path.components = (Pathname.ofString "/r/bower_components/y.ts").components := by
  obtain ⟨found, hfound, -, hmem⟩ := @discover_spec withPackages (.ofString "/r") {}
    isSound_withPackages (by decide) rfl ⟨by simp, by simp⟩ (by decide +kernel) (by decide +kernel)
    (by decide +kernel) (by simp)
  refine ⟨found, hfound, ?_, ?_⟩
  · exact (hmem _).2 (Or.inr ⟨["r".toList, "x.ts".toList], rfl, ⟨[], false, rfl⟩,
      by decide +kernel, by decide +kernel, by decide +kernel⟩)
  · rw [hmem]
    rintro (⟨file, hfile, -⟩ | ⟨names, hnames, hincluded⟩)
    · cases hfile
    · obtain ⟨content, executable, hfind⟩ := hincluded.isFile
      cases @Pathname.eq_of_components_pathOf names
        ["r".toList, "bower_components".toList, "y.ts".toList]
        (isSound_withPackages.isName_of_find? hfind) (by decide +kernel) hnames
      exact absurd hincluded.included (by decide +kernel)

/-- Backslashes count as slashes when a pattern is read and when a file is matched, but not in the
search. A file with a backslash in its name is not found, neither by a pattern for its path name nor
by one for that with slashes. And an entry may go through folders with dots if it has backslashes
between them, and finds files under path names that it does not match. -/
theorem discover_of_backslashes :
    (IsIncluded (oneFile ["r".toList, "a\\x.ts".toList]) (.ofString "/r")
        (including ["*.ts", "a/*.ts"]) ["r".toList, "a\\x.ts".toList] ∧
      Glob.Matches (includePattern "/r/a/*.ts")
        (pathOf ["r".toList, "a\\x.ts".toList]).withSlashes.text ∧
      discover (oneFile ["r".toList, "a\\x.ts".toList]) (.ofString "/r")
        (including ["*.ts", "a/*.ts"]) = .ok []) ∧
    (discover (oneFile ["r".toList, "s".toList, "x.ts".toList]) (.ofString "/r")
        (including ["s\\..\\s\\*.ts", "s/*.ts"]) =
          .ok [.ofString "/r/s/../s/x.ts", .ofString "/r/s/x.ts"] ∧
      (oneFile ["r".toList, "s".toList, "x.ts".toList]).locate (.ofString "/r/s/../s/x.ts") =
        .ok ["r".toList, "s".toList, "x.ts".toList] ∧
      ¬Glob.Matches (includePattern "/r/s/../s/*.ts") "/r/s/x.ts".toList) := by
  refine ⟨⟨⟨⟨[], false, rfl⟩, ?_, ?_, ?_⟩, ?_, ?_⟩, ?_, ?_, ?_⟩
  all_goals decide +kernel

end Project

end ExpectError
