import ExpectError.Project.Loading
import ExpectError.Proofs.PathNames
import Mathlib.Data.List.TakeWhile

/-!
# Specifiers without an ending

A configuration names its bases by specifiers, and the ending `.json` of a base can be left out. What
counts is the last name of the specifier. If it has no dot behind its first character, the ending is
put behind it: always where the specifier is a path, and where it is a package as the second of three
files that are looked for, in the nearest folder first. A name with a dot in it is taken to have an
ending already, whatever that is, so `./tsconfig.base` is not completed to `./tsconfig.base.json`.

* `Pathname.LacksEnding`, `Pathname.HasEnding`: the two kinds of names;
* `Pathname.withExtension_eq_iff`: where an ending is put behind the whole path name;
* `FoundNearest`: the first file of the nearest folder that has any;
* `resolveBase_completes`: what a specifier means.
-/

namespace ExpectError

namespace Pathname

variable {path folder : Pathname} {name field : List Char}

/-- What stands behind the last slash. -/
def lastField (path : Pathname) : List Char :=
  (Text.fields '/' path.text).getLast (Text.fields_ne_nil _ _)

/-- The path name with an ending behind all of its text. -/
def appendEnding (path : Pathname) (ending : String) : Pathname :=
  ⟨path.text ++ '.' :: ending.toList⟩

/-- Behind the last slash stands a name without an ending: it has no dot, or only one in front. -/
@[mk_iff]
structure LacksEnding (path : Pathname) : Prop where
  isName : IsName path.lastField
  notMem : '.' ∉ path.lastField.tail

/-- Behind the last slash stands a name with an ending. -/
@[mk_iff]
structure HasEnding (path : Pathname) : Prop where
  isName : IsName path.lastField
  mem : '.' ∈ path.lastField.tail

instance (path : Pathname) : Decidable path.LacksEnding :=
  decidable_of_iff _ (lacksEnding_iff path).symm

instance (path : Pathname) : Decidable path.HasEnding :=
  decidable_of_iff _ (hasEnding_iff path).symm

/-! ### The last name -/

theorem fields_eq (path : Pathname) :
    Text.fields '/' path.text = (Text.fields '/' path.text).dropLast ++ [path.lastField] :=
  (List.dropLast_append_getLast _).symm

theorem getLast?_fields (path : Pathname) :
    (Text.fields '/' path.text).getLast? = some path.lastField :=
  List.getLast?_eq_some_getLast _

theorem slash_notMem_lastField (path : Pathname) : '/' ∉ path.lastField :=
  Text.not_mem_of_mem_fields (List.getLast_mem (Text.fields_ne_nil _ path.text))

/-- Inside a folder the last name stays the same. -/
theorem lastField_join (folder path : Pathname) : (folder.join path).lastField = path.lastField := by
  have happend (front : List Char) :
      (Pathname.mk (front ++ '/' :: path.text)).lastField = path.lastField := by
    simp only [lastField, Text.fields_append_separator]
    exact List.getLast_append_of_ne_nil _ (Text.fields_ne_nil _ _)
  rw [join]
  split
  next => rfl
  next =>
    split
    next hend =>
      rcases Bool.or_eq_true_iff.1 hend with hempty | hslash
      · rw [List.isEmpty_iff.1 hempty, List.nil_append]
      · obtain ⟨front, hfront⟩ := List.getLast?_eq_some_iff.1 (of_decide_eq_true hslash)
        rw [hfront, List.append_assoc, List.singleton_append]
        exact happend front
    next => exact happend folder.text

theorem lacksEnding_join_iff (folder : Pathname) :
    (folder.join path).LacksEnding ↔ path.LacksEnding := by
  rw [lacksEnding_iff, lacksEnding_iff, lastField_join]

theorem hasEnding_join_iff (folder : Pathname) :
    (folder.join path).HasEnding ↔ path.HasEnding := by
  rw [hasEnding_iff, hasEnding_iff, lastField_join]

theorem fileName?_of_componentOf? (h : componentOf? path.lastField = some (.name name)) :
    path.fileName? = some name := by
  rw [fileName?, components, fields_eq, List.filterMap_append, List.filterMap_cons_some h,
    List.filterMap_nil, ← List.append_assoc, List.getLast?_concat]

theorem IsName.fileName?_eq (h : IsName path.lastField) : path.fileName? = some path.lastField :=
  fileName?_of_componentOf? h.componentOf?_eq

/-! ### Endings -/

/-- A name is its own stem if it has no dot, or only one in front. -/
theorem splitExtension_of_notMem (h : '.' ∉ name.tail) : splitExtension name = (name, none) := by
  cases name with
  | nil => rfl
  | cons c cs =>
    have hall : ∀ d ∈ cs.reverse, decide (d ≠ '.') = true := fun d hd =>
      decide_eq_true fun hdot => h (hdot ▸ List.mem_reverse.1 hd)
    rw [splitExtension, List.reverse_cons, List.dropWhile_append_of_pos hall]
    by_cases hc : c = '.' <;> simp [hc]

theorem exists_splitExtension_of_mem (h : '.' ∈ name.tail) :
    ∃ stem ending, splitExtension name = (stem, some ending) := by
  cases name with
  | nil => cases h
  | cons c cs =>
    have hne : cs.reverse.dropWhile (· ≠ '.') ≠ [] := fun hnil =>
      absurd (List.dropWhile_eq_nil_iff.1 hnil '.' (List.mem_reverse.2 h)) (by decide)
    obtain ⟨dot, stem, hstem⟩ := List.exists_cons_of_ne_nil hne
    rw [splitExtension, List.reverse_cons, List.dropWhile_append, hstem, if_neg (by simp)]
    cases stem with
    | nil => exact ⟨_, _, rfl⟩
    | cons d stem => exact ⟨_, _, rfl⟩

theorem LacksEnding.extension?_eq (h : path.LacksEnding) : path.extension? = none := by
  rw [extension?, h.isName.fileName?_eq, Option.bind_some, splitExtension_of_notMem h.notMem]
  rfl

theorem HasEnding.isSome_extension? (h : path.HasEnding) : path.extension?.isNone = false := by
  obtain ⟨stem, ending, hsplit⟩ := exists_splitExtension_of_mem h.mem
  rw [extension?, h.isName.fileName?_eq, Option.bind_some, hsplit]
  rfl

/-! ### Putting an ending behind a path name -/

theorem appendEnding_ne_self (path : Pathname) (ending : String) : path.appendEnding ending ≠ path := by
  intro heq
  have hlength := congrArg (fun p : Pathname => p.text.length) heq
  simp [appendEnding] at hlength

theorem isName_of_componentOf? (h : componentOf? path.lastField = some (.name name)) :
    IsName path.lastField := by
  rw [componentOf?] at h
  split at h
  next => cases h
  next hidle =>
    split at h
    next => cases h
    next hdots =>
      simp only [Bool.or_eq_true, decide_eq_true_eq, not_or] at hidle
      exact ⟨hidle.1, hidle.2, hdots, path.slash_notMem_lastField⟩

/-- Behind the last name stand only fields that say nothing. -/
theorem exists_fields_of_fileName? (h : path.fileName? = some name) :
    ∃ front idle, Text.fields '/' path.text = front ++ name :: idle ∧
      componentOf? name = some (.name name) ∧ ∀ field ∈ idle, componentOf? field = none := by
  have hlast : ((Text.fields '/' path.text).filterMap componentOf?).getLast? = some (.name name) := by
    rw [fileName?] at h
    split at h
    next last hlast =>
      cases h
      rw [components, List.getLast?_append] at hlast
      cases hfields : ((Text.fields '/' path.text).filterMap componentOf?).getLast? with
      | some component =>
        rw [hfields] at hlast
        exact hlast
      | none =>
        -- in front of the fields there are no names
        rw [hfields, Option.none_or] at hlast
        have hmem := List.mem_of_getLast? hlast
        split_ifs at hmem <;> simp at hmem
    next => cases h
  rw [List.getLast?_filterMap, List.findSome?_eq_some_iff] at hlast
  obtain ⟨idle, field, front, hfields, hfield, hidle⟩ := hlast
  obtain rfl : field = name := by
    rw [componentOf?] at hfield
    split at hfield
    next => cases hfield
    next => split at hfield <;> cases hfield; rfl
  refine ⟨front.reverse, idle.reverse, ?_, hfield, fun other hother => hidle other (by simpa using hother)⟩
  rw [← List.reverse_reverse (Text.fields '/' path.text), hfields]
  simp

/-- Every field has a slash in front of it, the first one apart. -/
theorem sum_length_fields (text : List Char) :
    ((Text.fields '/' text).map fun field => field.length + 1).sum = text.length + 1 := by
  have hlength := congrArg List.length (Text.flatMap_fields '/' text)
  rw [List.length_flatMap, List.length_cons] at hlength
  exact hlength

/-- An ending is put behind the last name, in place of the fields that say nothing. -/
theorem withExtension_eq_iff (hnone : path.extension? = none) (ending : String) :
    path.withExtension ending = path.appendEnding ending ↔ IsName path.lastField := by
  rw [withExtension]
  cases hname : path.fileName? with
  | none =>
    refine iff_of_false (appendEnding_ne_self path ending).symm fun hlast => ?_
    cases hname.symm.trans hlast.fileName?_eq
  | some name =>
    obtain ⟨front, idle, hfields, hfield, hidle⟩ := exists_fields_of_fileName? hname
    have hstem : (splitExtension name).1 = name := by
      have hdot : '.' ∉ name.tail := by
        intro hmem
        obtain ⟨stem, other, hsplit⟩ := exists_splitExtension_of_mem hmem
        rw [extension?, hname, Option.bind_some, hsplit] at hnone
        cases hnone
      rw [splitExtension_of_notMem hdot]
    have htake : (Text.fields '/' path.text).reverse.takeWhile
        (fun field => (componentOf? field).isNone) = idle.reverse := by
      rw [hfields, List.reverse_append, List.reverse_cons, List.append_assoc,
        List.takeWhile_append_of_pos (by simpa using hidle)]
      simp [hfield]
    -- the lengths of the fields add up to the length of the path name: nothing is cut off exactly if no
    -- idle field stands behind the name
    have hsum := sum_length_fields path.text
    rw [hfields, List.map_append, List.sum_append, List.map_cons, List.sum_cons] at hsum
    have hbehind : ((idle.reverse.map fun field => field.length + 1).foldr (· + ·) 0) =
        (idle.map fun field => field.length + 1).sum := by
      rw [← List.sum_eq_foldr, List.map_reverse, List.sum_reverse]
    dsimp only
    rw [htake, hbehind, hstem, appendEnding, Pathname.mk.injEq, List.append_cancel_right_eq,
      List.take_eq_self_iff]
    have hlast := path.getLast?_fields
    rw [hfields] at hlast
    rcases List.eq_nil_or_concat' idle with rfl | ⟨idle, last, rfl⟩
    · obtain rfl : name = path.lastField := by simpa using hlast
      refine iff_of_true ?_ (isName_of_componentOf? hfield)
      simp only [List.map_nil, List.sum_nil] at hsum ⊢
      omega
    · obtain rfl : last = path.lastField := by
        rwa [← List.cons_append, ← List.append_assoc, List.getLast?_concat, Option.some_inj] at hlast
      refine iff_of_false ?_ fun hlast => ?_
      · simp only [List.map_append, List.sum_append, List.map_singleton, List.sum_singleton]
          at hsum ⊢
        omega
      · cases hlast.componentOf?_eq.symm.trans (hidle _ (by simp))

end Pathname

namespace Config

variable {tree : FileTree} {path folder base : Pathname} {folders : List Pathname}
  {candidates : Pathname → List Pathname} {specifier : String}

theorem withDefaultExtension_eq_iff :
    withDefaultExtension path = path.appendEnding "json" ↔ path.LacksEnding := by
  rw [withDefaultExtension]
  cases hending : path.extension? with
  | some ending =>
    refine iff_of_false (Pathname.appendEnding_ne_self path "json").symm fun hlacks => ?_
    cases hending.symm.trans hlacks.extension?_eq
  | none =>
    rw [Option.isNone_none, if_pos rfl, Pathname.withExtension_eq_iff hending]
    refine ⟨fun hname => ⟨hname, fun hdot => ?_⟩, Pathname.LacksEnding.isName⟩
    have hsome := Pathname.HasEnding.isSome_extension? ⟨hname, hdot⟩
    rw [hending] at hsome
    cases hsome

theorem withDefaultExtension_of_hasEnding (h : path.HasEnding) : withDefaultExtension path = path := by
  rw [withDefaultExtension, h.isSome_extension?, if_neg Bool.false_ne_true]

/-! ### The nearest folder -/

/-- The path name is the first file among the candidates of a folder, and none of the folders in front
of it has a file among its own. -/
def FoundNearest (tree : FileTree) (folders : List Pathname)
    (candidates : Pathname → List Pathname) (found : Pathname) : Prop :=
  ∃ nearer folder further, folders = nearer ++ folder :: further ∧
    (candidates folder).find? tree.isFile = some found ∧
    ∀ other ∈ nearer, ∀ candidate ∈ candidates other, tree.isFile candidate = false

theorem find?_isFile_eq_none_iff {files : List Pathname} :
    files.find? tree.isFile = none ↔ ∀ file ∈ files, tree.isFile file = false := by
  simp [List.find?_eq_none]

theorem find?_flatMap_eq_some_iff :
    (folders.flatMap candidates).find? tree.isFile = some base ↔
      FoundNearest tree folders candidates base := by
  rw [List.find?_flatMap, List.findSome?_eq_some_iff]
  simp only [FoundNearest, find?_isFile_eq_none_iff]

/-- The file that a package specifier means in a folder: the path itself, the path with an ending behind
it, or the configuration of the folder there. -/
def packageFiles (specifier : String) (folder : Pathname) : List Pathname :=
  let package := (folder.join (.ofString "node_modules")).join (.ofString specifier)
  [package, package.appendEnding "json", package.join fileName]

/-- The same without an ending put behind the path. -/
def packageFilesAsWritten (specifier : String) (folder : Pathname) : List Pathname :=
  let package := (folder.join (.ofString "node_modules")).join (.ofString specifier)
  [package, package.join fileName]

theorem packageCandidates_of_lacksEnding (h : (Pathname.ofString specifier).LacksEnding)
    (folder : Pathname) : packageCandidates folder specifier = packageFiles specifier folder := by
  have hpackage := (Pathname.lacksEnding_join_iff (folder.join (.ofString "node_modules"))).2 h
  rw [packageCandidates, hpackage.extension?_eq, Option.isNone_none, if_pos rfl,
    (Pathname.withExtension_eq_iff hpackage.extension?_eq "json").2 hpackage.isName]
  rfl

theorem packageCandidates_of_hasEnding (h : (Pathname.ofString specifier).HasEnding)
    (folder : Pathname) :
    packageCandidates folder specifier = packageFilesAsWritten specifier folder := by
  have hpackage := (Pathname.hasEnding_join_iff (folder.join (.ofString "node_modules"))).2 h
  rw [packageCandidates, hpackage.isSome_extension?, if_neg Bool.false_ne_true]
  rfl

/-! ### What a specifier means -/

theorem resolveBase_file (hfolder : path.parent? = some folder)
    (hfile : isFileSpecifier specifier = true) :
    resolveBase tree path specifier =
      .ok (withDefaultExtension (folder.join (.ofString specifier))) := by
  rw [resolveBase, hfolder]
  exact if_pos hfile

/-- A package is looked for in the folder of the configuration and in those above it. -/
theorem resolveBase_package (hfolder : path.parent? = some folder)
    (hpackage : isFileSpecifier specifier = false)
    (hcandidates : ∀ other, packageCandidates other specifier = candidates other) :
    (∀ base, resolveBase tree path specifier = .ok base ↔
      FoundNearest tree folder.ancestors candidates base) ∧
    ((∃ e, resolveBase tree path specifier = .error e) ↔
      ∀ other ∈ folder.ancestors, ∀ candidate ∈ candidates other, tree.isFile candidate = false) := by
  have hresolve : resolveBase tree path specifier =
      ((folder.ancestors.flatMap candidates).find? tree.isFile).elim
        (.error (.unresolvedBase specifier path)) .ok := by
    rw [resolveBase, hfolder]
    simp only [hpackage, hcandidates, Bool.false_eq_true, if_false]
    cases (folder.ancestors.flatMap candidates).find? tree.isFile <;> rfl
  simp only [hresolve, ← find?_flatMap_eq_some_iff]
  have hnone : (folder.ancestors.flatMap candidates).find? tree.isFile = none ↔
      ∀ other ∈ folder.ancestors, ∀ candidate ∈ candidates other, tree.isFile candidate = false := by
    rw [find?_isFile_eq_none_iff, List.forall_mem_flatMap]
  rw [← hnone]
  cases (folder.ancestors.flatMap candidates).find? tree.isFile <;> simp

/-- To a path an ending is put exactly if its last name lacks one. A package whose last name lacks one
is the first of three files in the nearest folder that has any of them, and only if no folder has one it
is not found. But a last name with a dot in it is taken as it is: as a path whatever files there are,
and as a package only the other two of the three files are looked for. -/
theorem resolveBase_completes (hfolder : path.parent? = some folder) :
    (isFileSpecifier specifier = true →
      (resolveBase tree path specifier =
          .ok ((folder.join (.ofString specifier)).appendEnding "json") ↔
        (Pathname.ofString specifier).LacksEnding)) ∧
    (isFileSpecifier specifier = false → (Pathname.ofString specifier).LacksEnding →
      (∀ base, resolveBase tree path specifier = .ok base ↔
        FoundNearest tree folder.ancestors (packageFiles specifier) base) ∧
      ((∃ e, resolveBase tree path specifier = .error e) ↔
        ∀ other ∈ folder.ancestors, ∀ candidate ∈ packageFiles specifier other,
          tree.isFile candidate = false)) ∧
    ((Pathname.ofString specifier).HasEnding →
      (isFileSpecifier specifier = true →
        resolveBase tree path specifier = .ok (folder.join (.ofString specifier))) ∧
      (isFileSpecifier specifier = false → ∀ base, resolveBase tree path specifier = .ok base ↔
        FoundNearest tree folder.ancestors (packageFilesAsWritten specifier) base)) := by
  refine ⟨fun hfile => ?_, fun hpackage hlacks => ?_, fun hending => ⟨fun hfile => ?_, ?_⟩⟩
  · rw [resolveBase_file hfolder hfile, Except.ok.injEq, withDefaultExtension_eq_iff,
      Pathname.lacksEnding_join_iff]
  · exact resolveBase_package hfolder hpackage (packageCandidates_of_lacksEnding hlacks)
  · rw [resolveBase_file hfolder hfile,
      withDefaultExtension_of_hasEnding ((Pathname.hasEnding_join_iff folder).2 hending)]
  · exact fun hpackage =>
      (resolveBase_package hfolder hpackage (packageCandidates_of_hasEnding hending)).1

/-- A project in a folder, a package in the folder above it, and two configurations beside the one of
the project, the second of them with a dot in its name. -/
def withBases : FileTree where
  entries := [(["r".toList], .folder), (["r".toList, "node_modules".toList], .folder),
    (["r".toList, "node_modules".toList, "strict.json".toList], .file [] false),
    (["r".toList, "p".toList], .folder),
    (["r".toList, "p".toList, "base.json".toList], .file [] false),
    (["r".toList, "p".toList, "tsconfig.base.json".toList], .file [] false)]

/-- A path and two packages, whose names have no endings. One of the packages is missing. -/
theorem resolveBase_completes_withBases :
    (Pathname.ofString "/r/p/tsconfig.json").parent? = some (.ofString "/r/p") ∧
      (∀ specifier ∈ ["./base", "strict", "loose"], (Pathname.ofString specifier).LacksEnding) ∧
      resolveBase withBases (.ofString "/r/p/tsconfig.json") "./base" =
        .ok (.ofString "/r/p/./base.json") ∧
      resolveBase withBases (.ofString "/r/p/tsconfig.json") "strict" =
        .ok (.ofString "/r/node_modules/strict.json") ∧
      ∃ e, resolveBase withBases (.ofString "/r/p/tsconfig.json") "loose" = .error e := by
  have hfolder : (Pathname.ofString "/r/p/tsconfig.json").parent? = some (.ofString "/r/p") := by
    decide +kernel
  have hlack : ∀ specifier ∈ ["./base", "strict", "loose"],
      (Pathname.ofString specifier).LacksEnding := by
    decide +kernel
  have hspec (specifier : String) := @resolveBase_completes withBases _ _ specifier hfolder
  refine ⟨hfolder, hlack, ((hspec "./base").1 (by decide +kernel)).2 (hlack _ (by simp)), ?_, ?_⟩
  · rw [((hspec "strict").2.1 (by decide +kernel) (hlack _ (by simp))).1]
    exact ⟨[.ofString "/r/p"], .ofString "/r", [.ofString "/"], by decide +kernel,
      by decide +kernel, by decide +kernel⟩
  · rw [((hspec "loose").2.1 (by decide +kernel) (hlack _ (by simp))).2]
    decide +kernel

/-- The file with an ending behind the name is there and the file without it is not. But the name has a
dot in it, and so the file that is not there is the one that is meant. -/
theorem resolveBase_dottedName :
    isFileSpecifier "./tsconfig.base" = true ∧ ¬ ".json".toList <:+ "./tsconfig.base".toList ∧
      withBases.isFile (.ofString "/r/p/./tsconfig.base") = false ∧
      withBases.isFile (.ofString "/r/p/./tsconfig.base.json") = true ∧
      resolveBase withBases (.ofString "/r/p/tsconfig.json") "./tsconfig.base" =
        .ok (.ofString "/r/p/./tsconfig.base") := by
  decide +kernel

end Config

end ExpectError
