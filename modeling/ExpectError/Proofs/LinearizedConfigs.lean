import ExpectError.Proofs.MergedOptions
import ExpectError.Proofs.RebasedPaths

/-!
# Configurations as layers

Everything that a configuration is based on can be written as one list of layers: those of its bases
in order, and then the configuration itself. What is loaded depends on nothing but the settings of
these layers, however they are nested. An option has the value that the last layer with it gives,
and so have the lists of paths, where every path belongs to the folder of its layer.

* `Layer`: a configuration as it is written, and where;
* `Linearized`: the layers of a configuration;
* `load_layers`: what is loaded, layer by layer.
-/

namespace ExpectError.Config

open FileTree (pathOf)
open Pathname (IsName placeOf)

/-- A configuration as it is written, its path name and its folder. -/
structure Layer where
  path : Pathname
  folder : Pathname
  written : Config

/-- The value of an option with paths made absolute in a given way: that is done to the folder for
output, if it is given as a string. -/
def valueWith (resolve : String → String) (name : String) : Json.Value → Json.Value
  | .string entry => .string (if name = outputOption then resolve entry else entry)
  | value => value

namespace Layer

/-- The path that an entry stands for: the path name of its place, with slashes for backslashes. -/
def resolve (layer : Layer) (entry : String) : String :=
  (pathOf (placeOf layer.folder entry)).withSlashes.display

/-- The paths of a list of entries, if the layer has it. -/
def paths? (layer : Layer) (list : Config → Option (List String)) : Option (List String) :=
  (list layer.written).map (List.map layer.resolve)

/-- The value of an option, if the layer has it. -/
def option? (layer : Layer) (name : String) : Option Json.Value :=
  (layer.written.option? name).map (valueWith layer.resolve name)

/-- The layer by itself, without what it is based on. -/
def settings (layer : Layer) : Config :=
  (layer.written.rebase layer.folder).alone

end Layer

/-- The layers of a configuration: those of its bases in order, and the configuration itself. -/
inductive Linearized (tree : FileTree) : Pathname → List Layer → Prop where
  | intro {path folder : Pathname} {source : String} {written : Config} {bases : List Pathname}
    {parts : Pathname → List Layer} (hread : tree.readText path = .ok source)
    (hparse : ofText? source = some written) (hfolder : path.parent? = some folder)
    (hbases : Answers (resolveBase tree path) written.specifiers bases)
    (hparts : ∀ base ∈ bases, Linearized tree base (parts base)) :
    Linearized tree path (bases.flatMap parts ++ [⟨path, folder, written⟩])

variable {tree : FileTree} {path : Pathname} {layers other : List Layer} {layer : Layer}
  {config : Config}

/-! ### Layers by themselves -/

theorem Layer.resolve_eq (h : layer.folder.isAbsolute = true) :
    layer.resolve = rebasePath layer.folder :=
  funext fun entry => (Pathname.rebasePath_eq h entry).symm

theorem options_rebase (config : Config) (folder : Pathname) :
    (config.rebase folder).options = config.options.map (List.map fun member =>
      (member.1, valueWith (rebasePath folder) member.1 member.2)) := by
  refine congrArg (fun change => config.options.map (List.map change)) ?_
  funext ⟨name, value⟩
  cases value with
  | string entry => dsimp only [valueWith]; split <;> rfl
  | _ => rfl

theorem lookup_map_value (value : String → Json.Value → Json.Value)
    (members : List (String × Json.Value)) (name : String) :
    (members.map fun member => (member.1, value member.1 member.2)).lookup name =
      (members.lookup name).map (value name) := by
  induction members with
  | nil => rfl
  | cons member members ih =>
    rw [List.map_cons, List.lookup_cons, List.lookup_cons, ih]
    by_cases h : name = member.1
    · simp [h]
    · simp [beq_eq_false_iff_ne.2 h]

theorem Layer.option?_settings (h : layer.folder.isAbsolute = true) (name : String) :
    layer.settings.option? name = layer.option? name := by
  rw [Layer.option?, layer.resolve_eq h]
  change ((layer.written.rebase layer.folder).options.bind fun options => options.lookup name) = _
  rw [options_rebase, Config.option?]
  cases layer.written.options with
  | none => rfl
  | some options => exact lookup_map_value _ options name

theorem Layer.hasDistinctOptions_settings (h : layer.written.HasDistinctOptions) :
    layer.settings.HasDistinctOptions := by
  intro options hoptions
  change options ∈ (layer.written.rebase layer.folder).options at hoptions
  rw [options_rebase] at hoptions
  obtain ⟨written, hwritten, rfl⟩ := Option.map_eq_some_iff.1 hoptions
  rw [List.map_map]
  exact h written hwritten

/-! ### The layers of a configuration -/

/-- The layers of a configuration have been read, from files in folders. -/
theorem Linearized.forall_mem (h : Linearized tree path layers) :
    ∀ layer ∈ layers, layer.folder.isAbsolute = true ∧ layer.written.HasDistinctOptions := by
  induction h with
  | intro hread hparse hfolder _ _ ih =>
    refine List.forall_mem_append.2 ⟨fun layer hlayer => ?_, ?_⟩
    · obtain ⟨base, hbase, hlayer⟩ := List.mem_flatMap.1 hlayer
      exact ih base hbase layer hlayer
    · rw [List.forall_mem_singleton]
      exact ⟨Pathname.isAbsolute_parent? (isAbsolute_of_readText hread) hfolder,
        hasDistinctOptions_of_ofText? hparse⟩

/-- A configuration has its layers in one way only. -/
theorem Linearized.unique (h : Linearized tree path layers) (h' : Linearized tree path other) :
    other = layers := by
  induction h generalizing other with
  | intro hread hparse hfolder hbases _ ih =>
    cases h' with
    | intro hread' hparse' hfolder' hbases' hparts' =>
      cases hread.symm.trans hread'
      cases hparse.symm.trans hparse'
      cases hfolder.symm.trans hfolder'
      cases rightUnique_answers _ hbases hbases'
      rw [List.flatMap_congr fun base hbase => ih base hbase (hparts' base hbase)]

theorem forall_settings (h : Linearized tree path layers) :
    ∀ config ∈ layers.map Layer.settings, config.HasDistinctOptions := by
  intro config hconfig
  obtain ⟨layer, hlayer, rfl⟩ := List.mem_map.1 hconfig
  exact Layer.hasDistinctOptions_settings (h.forall_mem layer hlayer).2

/-- What is loaded has layers, and is their settings on top of each other. -/
theorem exists_linearized {n : ℕ} {way : List Pathname}
    (h : loadBelow tree n way path = .ok config) :
    ∃ layers, Linearized tree path layers ∧ config = merged (layers.map Layer.settings) := by
  induction n generalizing way path config with
  | zero => cases h
  | succ n ih =>
    rw [loadBelow_succ] at h
    split at h
    next => cases h
    next =>
      obtain ⟨own, bases, loaded, hown, hbases, hloaded, rfl⟩ := loadWith_eq_ok_iff.1 h
      obtain ⟨source, written, folder, hread, hparse, hfolder, rfl⟩ := loadOne_eq_ok_iff.1 hown
      have hlayers : ∀ base ∈ bases, ∃ layers, Linearized tree base layers ∧
          loadBelow tree n (tree.canonical path :: way) base =
            .ok (merged (layers.map Layer.settings)) := by
        intro base hbase
        obtain ⟨config, -, hconfig⟩ := Answers.exists_mem hloaded hbase
        obtain ⟨layers, hlayers, rfl⟩ := ih hconfig
        exact ⟨layers, hlayers, hconfig⟩
      -- A base has its layers in one way, so they can be chosen by its path name.
      choose! parts hparts using hlayers
      have hmerged : loaded = bases.map fun base => merged ((parts base).map Layer.settings) :=
        rightUnique_answers _ hloaded (List.forall₂_map_right_iff.2
          (List.forall₂_same.2 fun base hbase => (hparts base hbase).2))
      refine ⟨_, .intro hread hparse hfolder hbases fun base hbase => (hparts base hbase).1, ?_⟩
      rw [hmerged, merged_flatMap fun base hbase => forall_settings (hparts base hbase).1,
        List.map_append, List.map_flatMap, List.map_singleton, merged_concat]
      rfl

/-- The last layer with an option decides about it. -/
theorem option?_merged (h : Linearized tree path layers) (name : String) :
    (merged (layers.map Layer.settings)).option? name =
      layers.reverse.findSome? (·.option? name) := by
  refine @read_merged Layer Json.Value layers _ (·.option? name) _ rfl
    (fun own base hown => option?_onTopOf hown base name) fun layer hlayer => ?_
  obtain ⟨habsolute, hdistinct⟩ := h.forall_mem layer hlayer
  exact ⟨Layer.hasDistinctOptions_settings hdistinct, Layer.option?_settings habsolute name⟩

/-- The last layer with a list of paths decides about it as a whole. -/
theorem list_merged (h : Linearized tree path layers) {list : Config → Option (List String)}
    (hempty : list {} = none)
    (honTopOf : ∀ own base : Config, list (own.onTopOf base) = (list own <|> list base))
    (hsettings : ∀ layer : Layer, list layer.settings =
      (list layer.written).map (List.map (rebasePath layer.folder))) :
    list (merged (layers.map Layer.settings)) = layers.reverse.findSome? (·.paths? list) := by
  refine read_merged hempty (fun own base _ => ?_) fun layer hlayer => ?_
  · rw [honTopOf]
    cases list own <;> rfl
  · obtain ⟨habsolute, hdistinct⟩ := h.forall_mem layer hlayer
    refine ⟨Layer.hasDistinctOptions_settings hdistinct, ?_⟩
    rw [hsettings, Layer.paths?, Layer.resolve_eq habsolute]

/-- Loading puts the layers of a configuration on top of each other: the last layer decides that
says anything, about each option by itself and about each list of paths as a whole. Paths belong to
the folder of the layer that they are from, and no steps with dots are left in them. Merging is
associative, so it makes no difference how layers are nested: where they have the same settings in
the same order, the same is loaded. -/
theorem load_layers :
    (∀ (tree : FileTree) (path : Pathname) (config : Config), load tree path = .ok config →
      ∃ layers, Linearized tree path layers ∧
        (∀ other, Linearized tree path other → other = layers) ∧
        config.HasDistinctOptions ∧
        (∀ name, config.option? name = layers.reverse.findSome? (·.option? name)) ∧
        config.includes = layers.reverse.findSome? (·.paths? Config.includes) ∧
        config.excludes = layers.reverse.findSome? (·.paths? Config.excludes) ∧
        config.files = layers.reverse.findSome? (·.paths? Config.files)) ∧
    (∀ (layer : Layer) (entry : String), ∀ name ∈ placeOf layer.folder entry, IsName name) ∧
    (∀ own base bottom : Config, base.HasDistinctOptions →
      (own.onTopOf base).onTopOf bottom = own.onTopOf (base.onTopOf bottom)) ∧
    (∀ (tree tree' : FileTree) (path path' : Pathname) (config config' : Config)
      (layers layers' : List Layer), load tree path = .ok config → load tree' path' = .ok config' →
      Linearized tree path layers → Linearized tree' path' layers' →
      layers.map Layer.settings = layers'.map Layer.settings → config = config') := by
  refine ⟨fun tree path config h => ?_, fun layer => Pathname.isName_of_mem_placeOf layer.folder,
    fun own base bottom h => onTopOf_assoc h own bottom, ?_⟩
  · obtain ⟨layers, hlayers, rfl⟩ := exists_linearized h
    exact ⟨layers, hlayers, fun other => hlayers.unique,
      hasDistinctOptions_merged (forall_settings hlayers), option?_merged hlayers,
      list_merged hlayers rfl (fun _ _ => rfl) fun _ => rfl,
      list_merged hlayers rfl (fun _ _ => rfl) fun _ => rfl,
      list_merged hlayers rfl (fun _ _ => rfl) fun _ => rfl⟩
  · intro tree tree' path path' config config' layers layers' h h' hlayers hlayers' heq
    obtain ⟨found, hfound, rfl⟩ := exists_linearized h
    obtain ⟨found', hfound', rfl⟩ := exists_linearized h'
    rw [hlayers.unique hfound, hlayers'.unique hfound', heq]

/-! ### Bases below each other and side by side -/

/-- Is this a layer without options, with the given bases? -/
def isPlainLayer (tree : FileTree) (layer : Layer) (bases : List Pathname) : Bool :=
  match tree.readText layer.path with
  | .error _ => false
  | .ok source =>
    match ofText? source with
    | none => false
    | some read =>
      layer.path.parent? = some layer.folder &&
        read.specifiers.map (resolveBase tree layer.path) = bases.map .ok &&
        read.bases = layer.written.bases && read.options.isNone && layer.written.options.isNone &&
        read.includes = layer.written.includes && read.excludes = layer.written.excludes &&
        read.files = layer.written.files

theorem linearized_of_isPlainLayer {bases : List Pathname} {parts : Pathname → List Layer}
    (h : isPlainLayer tree layer bases = true)
    (hparts : ∀ base ∈ bases, Linearized tree base (parts base)) :
    Linearized tree layer.path (bases.flatMap parts ++ [layer]) := by
  obtain ⟨path, folder, written⟩ := layer
  rw [isPlainLayer] at h
  split at h
  next => cases h
  next source hread =>
    split at h
    next => cases h
    next read hparse =>
      simp only [Bool.and_eq_true, Option.isNone_iff_eq_none, decide_eq_true_eq] at h
      obtain ⟨⟨⟨⟨⟨⟨⟨hfolder, hspecifiers⟩, hbases⟩, hnone⟩, hnone'⟩, hincludes⟩, hexcludes⟩,
        hfiles⟩ := h
      have hwritten : read = written :=
        (Config.mk.injEq ..).mpr ⟨hbases, hnone.trans hnone'.symm, hincludes, hexcludes, hfiles⟩
      rw [← hwritten]
      refine .intro hread hparse hfolder ?_ hparts
      rw [← List.forall₂_eq_eq_eq, List.forall₂_map_left_iff, List.forall₂_map_right_iff]
        at hspecifiers
      exact hspecifiers

/-- `n` is based on `u`, which is based on `b`. And `f` is based on `b` and on `v`, which has what
`u` adds to it. -/
def stacked : FileTree where
  entries := (["r".toList], .folder) :: (["r".toList, "p".toList], .folder) ::
    [(["r", "b.json"], "\x7b\"include\":[\"s/../*.ts\"]\x7d"),
      (["r", "p", "u.json"], "\x7b\"extends\":\"../b\",\"exclude\":[\"t\"]\x7d"),
      (["r", "p", "v.json"], "\x7b\"exclude\":[\"t\"]\x7d"),
      (["r", "n.json"], "\x7b\"extends\":\"./p/u\"\x7d"),
      (["r", "f.json"], "\x7b\"extends\":[\"./b\",\"./p/v\"]\x7d")].map
      fun (names, text) => (names.map String.toList, .file (Text.bytesOf text) false)

/-- The layers of `n`. -/
def nestedLayers : List Layer :=
  [⟨.ofString "/r/./p/../b.json", .ofString "/r/./p/..", { includes := some ["s/../*.ts"] }⟩,
    ⟨.ofString "/r/./p/u.json", .ofString "/r/./p",
      { bases := some (.one "../b"), excludes := some ["t"] }⟩,
    ⟨.ofString "/r/n.json", .ofString "/r", { bases := some (.one "./p/u") }⟩]

/-- The layers of `f`. -/
def flatLayers : List Layer :=
  [⟨.ofString "/r/./b.json", .ofString "/r", { includes := some ["s/../*.ts"] }⟩,
    ⟨.ofString "/r/./p/v.json", .ofString "/r/./p", { excludes := some ["t"] }⟩,
    ⟨.ofString "/r/f.json", .ofString "/r", { bases := some (.many ["./b", "./p/v"]) }⟩]

theorem linearized_nested : Linearized stacked (.ofString "/r/n.json") nestedLayers := by
  have hbase : Linearized stacked (.ofString "/r/./p/../b.json") (nestedLayers.take 1) :=
    @linearized_of_isPlainLayer stacked nestedLayers[0] [] (fun _ => []) (by decide +kernel)
      (by simp)
  have hupper : Linearized stacked (.ofString "/r/./p/u.json") (nestedLayers.take 2) :=
    @linearized_of_isPlainLayer stacked nestedLayers[1] [.ofString "/r/./p/../b.json"]
      (fun _ => nestedLayers.take 1) (by decide +kernel) (by simpa using hbase)
  exact @linearized_of_isPlainLayer stacked nestedLayers[2] [.ofString "/r/./p/u.json"]
    (fun _ => nestedLayers.take 2) (by decide +kernel) (by simpa using hupper)

theorem linearized_flat : Linearized stacked (.ofString "/r/f.json") flatLayers := by
  have hbase : Linearized stacked (.ofString "/r/./b.json") [flatLayers[0]] :=
    @linearized_of_isPlainLayer stacked flatLayers[0] [] (fun _ => []) (by decide +kernel)
      (by simp)
  have halone : Linearized stacked (.ofString "/r/./p/v.json") [flatLayers[1]] :=
    @linearized_of_isPlainLayer stacked flatLayers[1] [] (fun _ => []) (by decide +kernel)
      (by simp)
  have hne : Pathname.ofString "/r/./p/v.json" ≠ .ofString "/r/./b.json" := by decide +kernel
  have hflat := @linearized_of_isPlainLayer stacked flatLayers[2]
    [.ofString "/r/./b.json", .ofString "/r/./p/v.json"]
    (fun base => if base = .ofString "/r/./b.json" then [flatLayers[0]] else [flatLayers[1]])
    (by decide +kernel) (by simpa [hne] using ⟨hbase, halone⟩)
  rwa [List.flatMap_cons, List.flatMap_singleton, if_pos rfl, if_neg hne] at hflat

/-- Both are loaded, and they give the same: what `b` includes, from the folder of `b`, and what `u`
and `v` exclude, from theirs. -/
theorem load_layers_stacked :
    ∃ config, load stacked (.ofString "/r/n.json") = .ok config ∧
      load stacked (.ofString "/r/f.json") = .ok config ∧
      config.includes = some ["/r/*.ts"] ∧ config.excludes = some ["/r/p/t"] ∧
      ∀ own bottom : Config,
        (own.onTopOf config).onTopOf bottom = own.onTopOf (config.onTopOf bottom) := by
  have hsome (path : Pathname) (h : (load stacked path).toOption.isSome = true) :
      ∃ config, load stacked path = .ok config := by
    cases hload : load stacked path with
    | ok config => exact ⟨config, rfl⟩
    | error e => simp [hload, Except.toOption] at h
  obtain ⟨config, hnested⟩ := hsome (.ofString "/r/n.json") (by decide +kernel)
  obtain ⟨other, hflat⟩ := hsome (.ofString "/r/f.json") (by decide +kernel)
  have hsettings : nestedLayers.map Layer.settings = flatLayers.map Layer.settings := by
    have hpath : rebasePath (.ofString "/r/./p/..") "s/../*.ts" =
        rebasePath (.ofString "/r") "s/../*.ts" := by
      decide +kernel
    simp [nestedLayers, flatLayers, Layer.settings, alone, rebase, hpath]
  have hsame : config = other := load_layers.2.2.2 _ _ _ _ _ _ _ _ hnested hflat
    linearized_nested linearized_flat hsettings
  obtain ⟨layers, hlayers, -, hdistinct, -, hincludes, hexcludes, -⟩ :=
    load_layers.1 _ _ _ hnested
  cases linearized_nested.unique hlayers
  exact ⟨config, hnested, hsame ▸ hflat, hincludes.trans (by decide +kernel),
    hexcludes.trans (by decide +kernel), fun own bottom =>
      load_layers.2.2.1 own config bottom hdistinct⟩

/-- A configuration with backslashes around the dots of its folder for output. -/
def slanted : FileTree where
  entries := [(["r".toList], .folder), (["r".toList, "c.json".toList],
    .file (Text.bytesOf "\x7b\"compilerOptions\":\x7b\"outDir\":\"s\\\\..\\\\o\"\x7d\x7d") false)]

/-- Backslashes become slashes, but only after dots have been taken out, so the dots between them
stay. The path is neither that of the entry as it is written nor that with slashes in it. -/
theorem load_slanted :
    ∃ config layers, load slanted (.ofString "/r/c.json") = .ok config ∧
      Linearized slanted (.ofString "/r/c.json") layers ∧
      config.outputFolder? = some "/r/s/../o" ∧
      layers.reverse.findSome? (fun layer => layer.written.outputFolder?.map fun entry =>
        (pathOf (placeOf layer.folder entry)).display) = some "/r/s\\..\\o" ∧
      (pathOf (placeOf (.ofString "/r") "s/../o")).display = "/r/o" := by
  have hwritten : (match slanted.readText (.ofString "/r/c.json") with
      | .error _ => none
      | .ok source => (ofText? source).map fun written =>
        (written.specifiers, written.outputFolder?)) = some ([], some "s\\..\\o") := by
    decide +kernel
  have houtput : (load slanted (.ofString "/r/c.json")).toOption.map outputFolder? =
      some (some "/r/s/../o") := by
    decide +kernel
  -- there is one layer, as the file is based on nothing
  cases hload : load slanted (.ofString "/r/c.json") with
  | error e => simp [hload, Except.toOption] at houtput
  | ok config =>
    obtain ⟨layers, hlayers, -⟩ := exists_linearized hload
    refine ⟨config, layers, rfl, hlayers, by simpa [hload, Except.toOption] using houtput, ?_,
      by decide +kernel⟩
    cases hlayers with
    | @intro _ folder source written bases parts hread hparse hfolder hbases _ =>
      have hfolder' : (Pathname.ofString "/r/c.json").parent? = some (.ofString "/r") := by
        decide +kernel
      cases hfolder.symm.trans hfolder'
      rw [hread] at hwritten
      simp only [hparse, Option.map_some, Option.some.injEq, Prod.mk.injEq] at hwritten
      obtain ⟨hspecifiers, hentry⟩ := hwritten
      rw [hspecifiers] at hbases
      cases hbases
      simp only [List.flatMap_nil, List.nil_append, List.reverse_singleton, List.findSome?_cons,
        hentry, Option.map_some]
      decide +kernel

end ExpectError.Config
