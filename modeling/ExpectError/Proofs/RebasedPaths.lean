import ExpectError.Proofs.PathNames
import ExpectError.Proofs.MergedConfigs

/-!
# Rebased paths

An entry of a configuration stands for a place: the steps of the folder are taken from the root, and
then the steps of the entry, unless that begins at the root itself. This is done by the text alone,
whatever is in the tree. The path that an entry is replaced by is the path name of that place, with
slashes for the backslashes that are left in it.

* `placeOf`: the place that an entry of a folder stands for;
* `isName_of_mem_placeOf`: no dots and no empty names are left;
* `rebasePath_eq`: what an entry is replaced by.
-/

namespace ExpectError.Pathname

open FileTree (pathOf)

/-- Takes one step from a place, by the text alone. -/
def enter (names : Names) (field : List Char) : Names :=
  if field = [] ∨ field = ['.'] then names
  else if field = ['.', '.'] then names.dropLast
  else names ++ [field]

/-- The place that an entry of a folder stands for. -/
def placeOf (folder : Pathname) (entry : String) : Names :=
  let start :=
    if (ofString entry).isAbsolute then [] else (Text.fields '/' folder.text).foldl enter []
  (Text.fields '/' entry.toList).foldl enter start

variable {folder : Pathname} {names fields : Names} {field : List Char}

/-- A stack of names, the last one first, takes the same step. -/
theorem reverse_takeStep (stack : Names) (field : List Char) :
    ((componentOf? field).elim stack (takeStep stack)).reverse = enter stack.reverse field := by
  rw [componentOf?, enter]
  by_cases hidle : field = [] ∨ field = ['.']
  · rw [if_pos (by simpa using hidle), if_pos hidle]
    rfl
  · rw [if_neg (by simpa using hidle), if_neg hidle]
    split
    · simp [takeStep]
    · simp [takeStep]

theorem foldl_takeStep (fields : Names) (stack : Names) :
    ((fields.filterMap componentOf?).foldl takeStep stack).reverse =
      fields.foldl enter stack.reverse := by
  induction fields generalizing stack with
  | nil => rfl
  | cons field fields ih =>
    rw [List.foldl_cons, ← reverse_takeStep, ← ih, List.filterMap_cons]
    cases componentOf? field <;> rfl

theorem normalize_eq {path : Pathname} (h : path.isAbsolute = true) :
    path.normalize = pathOf ((Text.fields '/' path.text).foldl enter []) := by
  rw [normalize, components, if_pos h, if_pos h, List.singleton_append, List.foldl_cons, takeStep,
    foldl_takeStep]
  rfl

/-- The steps of a folder come in front of those of what is in it. -/
theorem foldl_enter_join (habsolute : folder.isAbsolute = true) (entry : String) :
    (Text.fields '/' (folder.join (ofString entry)).text).foldl enter [] =
      placeOf folder entry := by
  rw [join, placeOf]
  split
  next => rfl
  next =>
    split
    next hend =>
      have hne : folder.text ≠ [] := by
        intro hnil
        rw [isAbsolute, hnil] at habsolute
        cases habsolute
      obtain ⟨front, hfront⟩ := List.getLast?_eq_some_iff.1
        (of_decide_eq_true ((Bool.or_eq_true_iff.1 hend).resolve_left (by simpa using hne)))
      have hentry : front ++ ['/'] ++ (ofString entry).text = front ++ '/' :: entry.toList := by
        simp [ofString]
      rw [hfront, hentry, Text.fields_append_separator, Text.fields_append_separator,
        List.foldl_append, List.foldl_append]
      rfl
    next =>
      change (Text.fields '/' (folder.text ++ '/' :: entry.toList)).foldl enter [] = _
      rw [Text.fields_append_separator, List.foldl_append]

theorem isName_foldl_enter (hnames : ∀ name ∈ names, IsName name)
    (hfields : ∀ field ∈ fields, '/' ∉ field) :
    ∀ name ∈ fields.foldl enter names, IsName name := by
  induction fields generalizing names with
  | nil => exact hnames
  | cons field fields ih =>
    obtain ⟨hfield, hfields⟩ := List.forall_mem_cons.1 hfields
    refine ih (fun name hname => ?_) hfields
    rw [enter] at hname
    split at hname
    next => exact hnames name hname
    next hidle =>
      split at hname
      next => exact hnames name (List.mem_of_mem_dropLast hname)
      next hdots =>
        rcases List.mem_append.1 hname with hname | hname
        · exact hnames name hname
        · rw [List.mem_singleton.1 hname]
          exact ⟨fun h => hidle (Or.inl h), fun h => hidle (Or.inr h), hdots, hfield⟩

/-- No dots and no empty names are left in a place. -/
theorem isName_of_mem_placeOf (folder : Pathname) (entry : String) :
    ∀ name ∈ placeOf folder entry, IsName name := by
  refine isName_foldl_enter ?_ fun field => Text.not_mem_of_mem_fields
  split
  · simp
  · exact isName_foldl_enter (by simp) fun field => Text.not_mem_of_mem_fields

/-- An entry is replaced by the path name of its place. -/
theorem rebasePath_eq (h : folder.isAbsolute = true) (entry : String) :
    Config.rebasePath folder entry = (pathOf (placeOf folder entry)).withSlashes.display := by
  rw [Config.rebasePath, normalize_eq (isAbsolute_join h _), foldl_enter_join h]

end ExpectError.Pathname
