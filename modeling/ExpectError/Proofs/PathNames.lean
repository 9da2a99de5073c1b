import ExpectError.Files.FileTree
import ExpectError.Proofs.TextFields

/-!
# Path names of places

Every place of a tree has one path name that begins at the root (`FileTree.pathOf`). Joining names
to it, taking its folder and reading it back lead to what they do to the list of names.

* `IsName`: what a file or a folder can be called;
* `fields_pathOf`, `components_pathOf`: the names of the path name of a place;
* `descend_pathOf`, `parent?_pathOf`: moving between folders.
-/

namespace ExpectError

open FileTree (pathOf descend)

namespace Pathname

/-- What a file or a folder can be called. -/
@[mk_iff]
structure IsName (name : List Char) : Prop where
  ne_nil : name ≠ []
  ne_dot : name ≠ ['.']
  ne_dots : name ≠ ['.', '.']
  not_mem : '/' ∉ name

instance (name : List Char) : Decidable (IsName name) :=
  decidable_of_iff _ (isName_iff name).symm

variable {name : List Char} {names folder inside : Names}

theorem IsName.componentOf?_eq (h : IsName name) : componentOf? name = some (.name name) := by
  rw [componentOf?, if_neg (by simp [h.ne_nil, h.ne_dot]), if_neg h.ne_dots]

theorem IsName.isAbsolute_eq (h : IsName name) : (Pathname.mk name).isAbsolute = false := by
  cases name with
  | nil => exact absurd rfl h.ne_nil
  | cons c cs =>
    have hc : c ≠ '/' := fun hc => h.not_mem (hc ▸ List.mem_cons_self)
    simp [isAbsolute, hc]

/-- Every name has a slash in front of it. -/
theorem text_pathOf (hne : names ≠ []) : (pathOf names).text = names.flatMap ('/' :: ·) :=
  (Text.flatMap_eq_cons_intercalate '/' hne).symm

/-- What is below a place has the path name of the place and a slash at the front of its own. -/
theorem exists_text_pathOf_append (hne : names ≠ []) (hinside : inside ≠ []) :
    ∃ rest, (pathOf (names ++ inside)).text = (pathOf names).text ++ '/' :: rest := by
  cases inside with
  | nil => exact absurd rfl hinside
  | cons name inside =>
    refine ⟨name ++ inside.flatMap ('/' :: ·), ?_⟩
    rw [text_pathOf (by simp), text_pathOf hne, List.flatMap_append, List.flatMap_cons,
      List.cons_append]

@[simp] theorem text_pathOf_nil : (pathOf []).text = ['/'] := rfl

@[simp] theorem isAbsolute_pathOf (names : Names) : (pathOf names).isAbsolute = true := rfl

theorem fields_pathOf (hne : names ≠ []) (h : ∀ name ∈ names, '/' ∉ name) :
    Text.fields '/' (pathOf names).text = [] :: names := by
  rw [text_pathOf hne, Text.fields_flatMap h]

/-- Fields without dots are names, or say nothing if they are empty. -/
theorem filterMap_componentOf? {fields : Names}
    (h : ∀ field ∈ fields, field ≠ ['.'] ∧ field ≠ ['.', '.']) :
    fields.filterMap componentOf? = (fields.filter fun field => !field.isEmpty).map .name := by
  induction fields with
  | nil => rfl
  | cons field fields ih =>
    obtain ⟨⟨hdot, hdots⟩, hfields⟩ := List.forall_mem_cons.1 h
    by_cases hne : field = []
    · subst hne
      rw [List.filterMap_cons_none rfl, ih hfields]
      rfl
    · have hname : componentOf? field = some (.name field) := by
        rw [componentOf?, if_neg (by simp [hne, hdot]), if_neg hdots]
      rw [List.filterMap_cons_some hname, ih hfields, List.filter_cons_of_pos (by simpa using hne),
        List.map_cons]

/-- The steps of a path name that begins at the root and has no dots. -/
theorem components_of_isAbsolute {path : Pathname} (habsolute : path.isAbsolute = true)
    (h : ∀ field ∈ Text.fields '/' path.text, field ≠ ['.'] ∧ field ≠ ['.', '.']) :
    path.components =
      .root :: ((Text.fields '/' path.text).filter fun field => !field.isEmpty).map .name := by
  rw [components, filterMap_componentOf? h, if_pos habsolute]
  rfl

theorem filter_isEmpty (h : ∀ name ∈ names, IsName name) :
    names.filter (fun field => !field.isEmpty) = names :=
  List.filter_eq_self.2 fun name hname => by simpa using (h name hname).ne_nil

/-- The steps of the path name of a place. -/
theorem components_pathOf (h : ∀ name ∈ names, IsName name) :
    (pathOf names).components = .root :: names.map .name := by
  by_cases hne : names = []
  · subst hne
    rfl
  · have hfields := fields_pathOf hne fun name hname => (h name hname).not_mem
    rw [components_of_isAbsolute (isAbsolute_pathOf names), hfields,
      List.filter_cons_of_neg (by simp), filter_isEmpty h]
    rw [hfields]
    exact List.forall_mem_cons.2
      ⟨by simp, fun name hname => ⟨(h name hname).ne_dot, (h name hname).ne_dots⟩⟩

theorem eq_of_components_pathOf (h : ∀ name ∈ names, IsName name) (h' : ∀ name ∈ inside, IsName name)
    (heq : (pathOf names).components = (pathOf inside).components) : names = inside := by
  rw [components_pathOf h, components_pathOf h'] at heq
  exact (List.map_injective_iff.2 fun a b => Component.name.inj) (List.cons.inj heq).2

/-- Without backslashes there is nothing to make a slash of. -/
theorem withSlashes_pathOf (h : ∀ name ∈ names, '\\' ∉ name) :
    (pathOf names).withSlashes = pathOf names := by
  have hmem : '\\' ∉ (pathOf names).text := by
    by_cases hne : names = []
    · subst hne
      decide
    · rw [text_pathOf hne, List.mem_flatMap]
      rintro ⟨name, hname, hmem⟩
      rcases List.mem_cons.1 hmem with heq | hmem
      · exact absurd heq (by decide)
      · exact h name hname hmem
  have hsame : ∀ c ∈ (pathOf names).text, (if c = '\\' then '/' else c) = id c := by
    intro c hc
    exact if_neg (by rintro rfl; exact hmem hc)
  exact congrArg Pathname.mk ((List.map_congr_left hsame).trans (List.map_id _))

/-! ### Moving between folders -/

theorem join_pathOf (h : ∀ name ∈ folder, IsName name) (hname : IsName name) :
    (pathOf folder).join ⟨name⟩ = pathOf (folder ++ [name]) := by
  rw [join, hname.isAbsolute_eq, if_neg Bool.false_ne_true]
  rcases List.eq_nil_or_concat' folder with rfl | ⟨front, last, rfl⟩
  · simp [pathOf]
  · obtain ⟨-, hlast⟩ := List.forall_mem_append.1 h
    have hname' := hlast last List.mem_cons_self
    have htext : (pathOf (front ++ [last])).text = front.flatMap ('/' :: ·) ++ '/' :: last := by
      rw [text_pathOf (by simp), List.flatMap_append, List.flatMap_singleton]
    have hend : (pathOf (front ++ [last])).text.getLast? ≠ some '/' := by
      rw [htext, List.getLast?_append_of_ne_nil _ (by simp),
        List.getLast?_cons_of_ne_nil hname'.ne_nil]
      exact fun hslash => hname'.not_mem (List.mem_of_getLast? hslash)
    have hne : (pathOf (front ++ [last])).text.isEmpty = false := by simp [htext]
    rw [if_neg (by rw [hne, decide_eq_false hend]; decide)]
    change Pathname.mk _ = Pathname.mk (pathOf (front ++ [last] ++ [name])).text
    rw [text_pathOf (by simp), text_pathOf (by simp)]
    simp

/-- Going down from a place. -/
theorem descend_pathOf (h : ∀ name ∈ folder, IsName name) (hinside : ∀ name ∈ inside, IsName name) :
    descend (pathOf folder) inside = pathOf (folder ++ inside) := by
  induction inside generalizing folder with
  | nil => simp [descend]
  | cons name inside ih =>
    obtain ⟨hname, hrest⟩ := List.forall_mem_cons.1 hinside
    rw [descend, List.foldl_cons, join_pathOf h hname]
    change descend (pathOf (folder ++ [name])) inside = _
    rw [ih (List.forall_mem_append.2 ⟨h, by simpa using hname⟩) hrest, List.append_assoc,
      List.singleton_append]

theorem dropIdle_cons (h : IsName name) (fields : Names) :
    dropIdle (name :: fields) = name :: fields := by
  cases fields with
  | nil => rfl
  | cons field fields => simp [dropIdle, h.componentOf?_eq]

/-- The folder of what has a name. -/
theorem parent?_pathOf (h : ∀ name ∈ folder, IsName name) (hname : IsName name) :
    (pathOf (folder ++ [name])).parent? = some (pathOf folder) := by
  have hfields : Text.fields '/' (pathOf (folder ++ [name])).text = [] :: (folder ++ [name]) :=
    fields_pathOf (by simp) fun other hother =>
      (List.forall_mem_append.2 ⟨h, by simpa using hname⟩ other hother).not_mem
  have hreverse : ([] :: (folder ++ [name])).reverse = name :: (folder.reverse ++ [[]]) := by simp
  rw [parent?, hfields, hreverse, dropIdle_cons hname]
  rcases List.eq_nil_or_concat' folder with rfl | ⟨front, last, rfl⟩
  · rfl
  · obtain ⟨-, hlast⟩ := List.forall_mem_append.1 h
    have hname' := hlast last List.mem_cons_self
    rw [List.reverse_append, List.reverse_singleton, List.singleton_append, List.cons_append]
    change some (ofReversed (dropIdle (last :: (front.reverse ++ [[]])))) = _
    rw [dropIdle_cons hname']
    have htext : ['/'].intercalate ([] :: (front ++ [last])) =
        '/' :: ['/'].intercalate (front ++ [last]) := by
      have hfields := Text.flatMap_eq_cons_intercalate '/' (List.cons_ne_nil [] (front ++ [last]))
      rw [List.flatMap_cons, List.singleton_append] at hfields
      rw [← (List.cons.inj hfields).2, Text.flatMap_eq_cons_intercalate '/' (by simp)]
    rw [ofReversed]
    · simp [pathOf, htext]
    · intro heq
      exact hname'.ne_nil (List.cons.inj heq).1

end Pathname

end ExpectError
