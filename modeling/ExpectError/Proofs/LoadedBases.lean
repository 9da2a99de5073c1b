import ExpectError.Proofs.MergedConfigs

/-!
# Bases of a configuration

A configuration is loaded in four steps: it is read by itself, its specifiers are resolved, the
bases are loaded one by one, and everything is put on top of each other in that order. What comes
out, and what can go wrong, is said here for any way to load the bases, so that a statement about
whole configurations follows by induction on them.

* `merged`: configurations on top of each other;
* `Extends`: the relation of a configuration to its bases;
* `loadWith`, `loadBelow_succ`: a configuration with its bases loaded in a given way;
* `loadWith_eq_ok_iff`, `loadWith_eq_error`: what it gives;
* `exists_loadOne`: what is read and parsed is a configuration.
-/

namespace ExpectError

namespace Pathname

variable {path : Pathname}

/-- Names in front of which all the others are dropped say nothing. -/
theorem componentOf?_of_dropIdle {fields : List (List Char)} {last field : List Char}
    (h : dropIdle fields = [last]) (hmem : field ∈ fields.dropLast) :
    componentOf? field = none := by
  induction fields with
  | nil => cases hmem
  | cons first fields ih =>
    cases fields with
    | nil => cases hmem
    | cons second fields =>
      rw [dropIdle] at h
      · split at h
        next hidle =>
          rw [List.dropLast_cons_of_ne_nil (by simp)] at hmem
          rcases List.mem_cons.1 hmem with rfl | hmem
          · simpa using hidle
          · exact ih h hmem
        next => cases h
      · simp

/-- A path name that begins at the root and is in no folder has no names in it. -/
theorem componentOf?_of_parent? (habsolute : path.isAbsolute = true) (h : path.parent? = none)
    {field : List Char} (hmem : field ∈ Text.fields '/' path.text) : componentOf? field = none := by
  obtain ⟨text⟩ := path
  obtain ⟨rest, rfl⟩ := List.head?_eq_some_iff.1 (of_decide_eq_true habsolute)
  rw [parent?] at h
  split at h
  next heq =>
    exact absurd heq ((dropIdle_suffix _).2 (by simp [Text.fields_ne_nil]))
  next last heq =>
    rw [Text.fields_cons_separator] at hmem
    rcases List.mem_cons.1 hmem with rfl | hmem
    · rfl
    · exact componentOf?_of_dropIdle heq (by rw [Text.fields_cons_separator]; simpa using hmem)
  next => cases h

end Pathname

namespace FileTree

variable {tree : FileTree} {path : Pathname} {text : String}

/-- Names that say nothing lead nowhere else. -/
theorem foldlM_step_of_idle {folder fields : Names} (hfind : tree.find? folder = some .folder)
    (h : ∀ field ∈ fields, Pathname.componentOf? field = none) :
    fields.foldlM tree.step folder = .ok folder := by
  induction fields with
  | nil => rfl
  | cons field fields ih =>
    obtain ⟨hfield, hfields⟩ := List.forall_mem_cons.1 h
    have hstep : tree.step folder field = .ok folder := by
      rw [Pathname.componentOf?] at hfield
      split at hfield
      next hidle => rw [step, hfind]; exact if_pos hidle
      next => split at hfield <;> cases hfield
    rw [List.foldlM_cons, hstep]
    exact ih hfields

theorem follow_of_locate {names : Names} (h : tree.locate path = .ok names) :
    tree.follow path = .ok names := by
  rw [locate] at h
  split at h
  · cases h
  · split at h
    · cases h
    · exact h

/-- Every file is in a folder. -/
theorem exists_parent?_of_readText (h : tree.readText path = .ok text) :
    ∃ folder, path.parent? = some folder := by
  obtain ⟨names, executable, hfile⟩ := exists_fileAt_of_readText h
  cases hparent : path.parent? with
  | some folder => exact ⟨folder, rfl⟩
  | none =>
    have habsolute := Config.isAbsolute_of_readText h
    have hfollow := follow_of_locate hfile.locate_eq
    rw [follow, if_pos habsolute, @foldlM_step_of_idle tree [] _ rfl fun field hfield =>
      Pathname.componentOf?_of_parent? habsolute hparent hfield] at hfollow
    split at hfollow <;> cases hfollow
    exact absurd rfl hfile.ne_nil

end FileTree

namespace Config

/-- The specifiers of the bases, in order. -/
def specifiers (config : Config) : List String :=
  (config.bases.map Bases.toList).getD []

@[simp] theorem specifiers_rebase (config : Config) (folder : Pathname) :
    (config.rebase folder).specifiers = config.specifiers := rfl

/-- A configuration without what it is based on. -/
def alone (config : Config) : Config :=
  { config with bases := none }

/-- Configurations on top of each other, the last one on top of all. -/
def merged (configs : List Config) : Config :=
  configs.foldl (fun base config => config.onTopOf base) {}

/-- Configurations on top of what is there already. With nothing there, the first one stays as it
is. -/
def piled (earlier : Option Config) (configs : List Config) : Option Config :=
  configs.foldl (fun earlier config => some (earlier.elim config config.onTopOf)) earlier

/-- A configuration is based on another one by itself. -/
def Extends (tree : FileTree) (path base : Pathname) : Prop :=
  ∃ config, loadOne tree path = .ok config ∧
    ∃ specifier ∈ config.specifiers, resolveBase tree path specifier = .ok base

/-- Loads a configuration, and its bases in a given way. -/
def loadWith (tree : FileTree) (load : Pathname → Except ProjectError Config) (path : Pathname) :
    Except ProjectError Config := do
  let config ← loadOne tree path
  match ← loadBases tree load path config.specifiers none with
  | some base => return config.onTopOf base
  | none => return config.alone

variable {tree : FileTree} {load other : Pathname → Except ProjectError Config}
  {path : Pathname} {specifiers : List String} {config base : Config} {result : Option Config}
  {e : ProjectError}

theorem loadBelow_succ (tree : FileTree) (n : ℕ) (way : List Pathname) (path : Pathname) :
    loadBelow tree (n + 1) way path =
      if tree.canonical path ∈ way then .error (.cycle (tree.canonical path))
      else loadWith tree (loadBelow tree n (tree.canonical path :: way)) path := by
  rw [loadBelow]
  by_cases h : tree.canonical path ∈ way
  · rw [if_pos (by simpa using h), if_pos h]
    rfl
  · rw [if_neg (by simpa using h), if_neg h]
    rfl

/-! ### One configuration by itself -/

theorem loadOne_eq_ok_iff : loadOne tree path = .ok config ↔
    ∃ source written folder, tree.readText path = .ok source ∧ ofText? source = some written ∧
      path.parent? = some folder ∧ written.rebase folder = config := by
  constructor
  · intro h
    rw [loadOne] at h
    split at h
    next => cases h
    next source hread =>
      split at h
      next => cases h
      next => cases h
      next written folder hparse hparent =>
        exact ⟨source, written, folder, hread, hparse, hparent, by cases h; rfl⟩
  · rintro ⟨source, written, folder, hread, hparse, hparent, rfl⟩
    simp only [loadOne, hread, hparse, hparent]

/-- What is read and parsed is a configuration. -/
theorem exists_loadOne {source : String} (hread : tree.readText path = .ok source)
    (hparse : ofText? source = some config) :
    ∃ folder, path.parent? = some folder ∧ loadOne tree path = .ok (config.rebase folder) := by
  obtain ⟨folder, hparent⟩ := FileTree.exists_parent?_of_readText hread
  exact ⟨folder, hparent, loadOne_eq_ok_iff.2 ⟨source, config, folder, hread, hparse, hparent, rfl⟩⟩

theorem loadOne_ne_cycle (tree : FileTree) (path canonical : Pathname) :
    loadOne tree path ≠ .error (.cycle canonical) := by
  rw [loadOne]
  split
  · simp
  · split <;> simp

theorem resolveBase_ne_cycle (tree : FileTree) (path : Pathname) (specifier : String)
    (canonical : Pathname) : resolveBase tree path specifier ≠ .error (.cycle canonical) := by
  rw [resolveBase]
  split
  · simp
  · split
    · simp
    · dsimp only
      split <;> simp

/-! ### The bases of a configuration -/

theorem onTopOf_empty (config : Config) : config.onTopOf {} = config.alone := by
  simp [onTopOf, alone]

@[simp] theorem merged_nil : merged [] = {} := rfl

/-- A pile is what is merged, but for what its lowest configuration is based on. -/
theorem elim_alone_piled {earlier : Option Config} (h : earlier.elim {} alone = base)
    (configs : List Config) : (piled earlier configs).elim {} alone =
      configs.foldl (fun base config => config.onTopOf base) base := by
  induction configs generalizing earlier base with
  | nil => exact h
  | cons config configs ih =>
    refine @ih _ (some (earlier.elim config config.onTopOf)) ?_
    subst h
    cases earlier with
    | none => exact (onTopOf_empty config).symm
    | some earlier => rfl

/-- What is on top of a pile is on top of what is merged. -/
theorem elim_piled (config : Config) (configs : List Config) :
    (piled none configs).elim config.alone config.onTopOf = config.onTopOf (merged configs) := by
  rw [merged, ← @elim_alone_piled {} none rfl configs]
  cases piled none configs with
  | none => exact (onTopOf_empty config).symm
  | some base => rfl

/-- Bases are resolved and loaded one by one, and piled up in that order. -/
theorem loadBases_eq_ok_iff {earlier : Option Config} :
    loadBases tree load path specifiers earlier = .ok result ↔
      ∃ bases loaded, Answers (resolveBase tree path) specifiers bases ∧
        Answers load bases loaded ∧ result = piled earlier loaded := by
  induction specifiers generalizing earlier with
  | nil => simp [loadBases, piled, eq_comm]
  | cons specifier specifiers ih =>
    rw [loadBases, bind_eq_ok_iff]
    constructor
    · rintro ⟨found, hfound, h⟩
      obtain ⟨config, hconfig, h⟩ := bind_eq_ok_iff.1 h
      obtain ⟨bases, loaded, hbases, hloaded, rfl⟩ := ih.1 h
      refine ⟨found :: bases, config :: loaded, .cons hfound hbases, .cons hconfig hloaded, ?_⟩
      cases earlier <;> rfl
    · rintro ⟨bases, loaded, hbases, hloaded, rfl⟩
      cases hbases with
      | cons hfound hbases =>
        cases hloaded with
        | cons hconfig hloaded =>
          refine ⟨_, hfound, bind_eq_ok_iff.2 ⟨_, hconfig, ih.2 ⟨_, _, hbases, hloaded, ?_⟩⟩⟩
          cases earlier <;> rfl

theorem loadBases_eq_error {earlier : Option Config}
    (h : loadBases tree load path specifiers earlier = .error e) :
    ∃ specifier ∈ specifiers, resolveBase tree path specifier = .error e ∨
      ∃ base, resolveBase tree path specifier = .ok base ∧ load base = .error e := by
  induction specifiers generalizing earlier with
  | nil => cases h
  | cons specifier specifiers ih =>
    rw [loadBases] at h
    cases hfound : resolveBase tree path specifier with
    | error e' =>
      rw [hfound] at h
      cases h
      exact ⟨specifier, List.mem_cons_self, Or.inl hfound⟩
    | ok found =>
      cases hload : load found with
      | error e' =>
        rw [hfound] at h
        change load found >>= _ = _ at h
        rw [hload] at h
        cases h
        exact ⟨specifier, List.mem_cons_self, Or.inr ⟨found, hfound, hload⟩⟩
      | ok config =>
        rw [hfound] at h
        change load found >>= _ = _ at h
        rw [hload] at h
        obtain ⟨other, hother, hfails⟩ := ih h
        exact ⟨other, List.mem_cons_of_mem _ hother, hfails⟩

theorem loadBases_congr {earlier : Option Config}
    (h : ∀ specifier ∈ specifiers, ∀ base, resolveBase tree path specifier = .ok base →
      load base = other base) :
    loadBases tree load path specifiers earlier = loadBases tree other path specifiers earlier := by
  induction specifiers generalizing earlier with
  | nil => rfl
  | cons specifier specifiers ih =>
    obtain ⟨hspecifier, hspecifiers⟩ := List.forall_mem_cons.1 h
    rw [loadBases, loadBases]
    cases hfound : resolveBase tree path specifier with
    | error e => rfl
    | ok found =>
      change load found >>= _ = other found >>= _
      rw [hspecifier found hfound]
      exact congrArg _ (funext fun config => ih hspecifiers)

/-! ### A configuration with its bases -/

theorem loadWith_congr (h : ∀ base, Extends tree path base → load base = other base) :
    loadWith tree load path = loadWith tree other path := by
  rw [loadWith, loadWith]
  cases hone : loadOne tree path with
  | error e => rfl
  | ok config =>
    change loadBases tree load path config.specifiers none >>= _ =
      loadBases tree other path config.specifiers none >>= _
    rw [loadBases_congr fun specifier hspecifier base hbase =>
      h base ⟨config, hone, specifier, hspecifier, hbase⟩]

/-- A configuration is loaded if it is read, its specifiers are resolved and the bases are loaded.
It is then on top of them, and they are on top of each other in order. -/
theorem loadWith_eq_ok_iff : loadWith tree load path = .ok config ↔
    ∃ own bases loaded, loadOne tree path = .ok own ∧
      Answers (resolveBase tree path) own.specifiers bases ∧ Answers load bases loaded ∧
      own.onTopOf (merged loaded) = config := by
  rw [loadWith, bind_eq_ok_iff]
  constructor
  · rintro ⟨own, hown, h⟩
    obtain ⟨result, hresult, h⟩ := bind_eq_ok_iff.1 h
    obtain ⟨bases, loaded, hbases, hloaded, rfl⟩ := loadBases_eq_ok_iff.1 hresult
    refine ⟨own, bases, loaded, hown, hbases, hloaded, ?_⟩
    rw [← elim_piled]
    split at h
    next heq => cases h; rw [heq]; rfl
    next heq => cases h; rw [heq]; rfl
  · rintro ⟨own, bases, loaded, hown, hbases, hloaded, rfl⟩
    refine ⟨own, hown, bind_eq_ok_iff.2
      ⟨_, loadBases_eq_ok_iff.2 ⟨bases, loaded, hbases, hloaded, rfl⟩, ?_⟩⟩
    rw [← elim_piled]
    split
    next heq => rw [heq]; rfl
    next heq => rw [heq]; rfl

/-- If a configuration is loaded, so is everything that it is based on. -/
theorem exists_load_of_extends (h : loadWith tree load path = .ok config) {found : Pathname}
    (hfound : Extends tree path found) : ∃ base, load found = .ok base := by
  obtain ⟨own, bases, loaded, hown, hbases, hloaded, -⟩ := loadWith_eq_ok_iff.1 h
  obtain ⟨own', hown', specifier, hspecifier, hresolve⟩ := hfound
  cases hown.symm.trans hown'
  obtain ⟨found', hfound', hresolve'⟩ := Answers.exists_mem hbases hspecifier
  cases hresolve.symm.trans hresolve'
  obtain ⟨base, -, hbase⟩ := Answers.exists_mem hloaded hfound'
  exact ⟨base, hbase⟩

/-- What can go wrong: the configuration by itself, a specifier, or a base. -/
theorem loadWith_eq_error (h : loadWith tree load path = .error e) :
    loadOne tree path = .error e ∨ ∃ own, loadOne tree path = .ok own ∧
      ∃ specifier ∈ own.specifiers, resolveBase tree path specifier = .error e ∨
        ∃ base, resolveBase tree path specifier = .ok base ∧ load base = .error e := by
  rw [loadWith] at h
  cases hone : loadOne tree path with
  | error e' =>
    rw [hone] at h
    cases h
    exact Or.inl rfl
  | ok own =>
    rw [hone] at h
    change loadBases tree load path own.specifiers none >>= _ = _ at h
    cases hbases : loadBases tree load path own.specifiers none with
    | error e' =>
      rw [hbases] at h
      cases h
      exact Or.inr ⟨own, rfl, loadBases_eq_error hbases⟩
    | ok result =>
      rw [hbases] at h
      cases result <;> cases h

end Config

end ExpectError
