import ExpectError.Project.Loading
import ExpectError.Proofs.Answers
import ExpectError.Proofs.FileContents
import ExpectError.Proofs.TextFields

/-!
# Merged configurations

A configuration that has been loaded is put together of the ones that it is based on. Every path in
it was made absolute by the folder of the configuration that it comes from.

* `Config.IsRebased`: a path that was made absolute;
* `Config.IsMerged`: the entries to include and to exclude are such paths;
* `Config.isMerged_of_load`: so they are in everything that is loaded.
-/

namespace ExpectError

namespace Pathname

variable {path folder : Pathname}

theorem isAbsolute_join (h : folder.isAbsolute = true) (path : Pathname) :
    (folder.join path).isAbsolute = true := by
  obtain ⟨text⟩ := folder
  cases text with
  | nil => cases h
  | cons c text =>
    rw [join]
    split
    · assumption
    · split <;> exact h

theorem dropIdle_suffix (fields : List (List Char)) :
    dropIdle fields <:+ fields ∧ (fields ≠ [] → dropIdle fields ≠ []) := by
  induction fields with
  | nil => exact ⟨List.suffix_rfl, id⟩
  | cons field fields ih =>
    cases fields with
    | nil => exact ⟨List.suffix_rfl, id⟩
    | cons second fields =>
      rw [dropIdle]
      split
      · exact ⟨ih.1.trans (List.suffix_cons _ _), fun _ => ih.2 (by simp)⟩
      · exact ⟨List.suffix_rfl, id⟩
      · simp

theorem getLast?_dropIdle {fields : List (List Char)} (h : fields.getLast? = some []) :
    (dropIdle fields).getLast? = some [] := by
  obtain ⟨⟨front, hfront⟩, hne⟩ := dropIdle_suffix fields
  have hsome : fields ≠ [] := by
    rintro rfl
    cases h
  rw [← hfront, List.getLast?_append_of_ne_nil _ (hne hsome)] at h
  exact h

theorem isAbsolute_ofReversed {fields : List (List Char)} (h : fields.getLast? = some []) :
    (ofReversed fields).isAbsolute = true := by
  obtain ⟨front, rfl⟩ := List.getLast?_eq_some_iff.1 h
  cases front with
  | nil => rfl
  | cons field front =>
    obtain ⟨last, more, hmore⟩ := List.exists_cons_of_ne_nil (List.reverse_ne_nil_iff.2
      (List.cons_ne_nil field front))
    rw [List.cons_append, ofReversed]
    · rw [← List.cons_append, List.reverse_append, List.reverse_singleton, List.singleton_append,
        hmore, List.intercalate_cons_cons]
      rfl
    · simp

/-- The folder of what begins at the root begins at the root. -/
theorem isAbsolute_parent? (h : path.isAbsolute = true) (hparent : path.parent? = some folder) :
    folder.isAbsolute = true := by
  obtain ⟨text⟩ := path
  obtain ⟨rest, rfl⟩ := List.head?_eq_some_iff.1 (of_decide_eq_true h)
  have hlast : (Text.fields '/' ('/' :: rest)).reverse.getLast? = some [] := by
    rw [Text.fields_cons_separator]
    simp
  have hdrop := getLast?_dropIdle hlast
  rw [parent?] at hparent
  split at hparent
  next => cases hparent
  next field heq =>
    rw [heq] at hdrop
    cases hdrop
    cases hparent
  next first more hmore heq =>
    cases hparent
    refine isAbsolute_ofReversed (getLast?_dropIdle ?_)
    rw [heq] at hdrop
    cases more with
    | nil => exact absurd rfl hmore
    | cons second more => simpa using hdrop

end Pathname

namespace Config

/-- A path that was made absolute by a folder. -/
def IsRebased (entry : String) : Prop :=
  ∃ folder path, folder.isAbsolute = true ∧ entry = rebasePath folder path

/-- The entries to include and to exclude were made absolute. -/
structure IsMerged (config : Config) : Prop where
  includes : ∀ entry ∈ config.includes.getD [], IsRebased entry
  excludes : ∀ entry ∈ config.excludes.getD [], IsRebased entry

variable {tree : FileTree} {config base : Config} {entry : String}

theorem IsRebased.head?_eq (h : IsRebased entry) : entry.toList.head? = some '/' := by
  obtain ⟨folder, path, hfolder, rfl⟩ := h
  have habsolute := Pathname.isAbsolute_join hfolder (.ofString path)
  simp [rebasePath, Pathname.display, Pathname.withSlashes, Pathname.normalize, habsolute]

theorem IsRebased.not_mem (h : IsRebased entry) : '\\' ∉ entry.toList := by
  obtain ⟨folder, path, -, rfl⟩ := h
  simp only [rebasePath, Pathname.display, Pathname.withSlashes, String.toList_ofList, List.mem_map,
    not_exists, not_and]
  intro c _
  split
  · decide
  · assumption

theorem isMerged_rebase (config : Config) {folder : Pathname} (h : folder.isAbsolute = true) :
    (config.rebase folder).IsMerged := by
  have hall (entries : Option (List String)) :
      ∀ entry ∈ (entries.map (List.map (rebasePath folder))).getD [], IsRebased entry := by
    cases entries with
    | none => simp
    | some entries =>
      intro entry hentry
      obtain ⟨path, -, rfl⟩ := List.mem_map.1 hentry
      exact ⟨folder, path, h, rfl⟩
  exact ⟨hall config.includes, hall config.excludes⟩

theorem IsMerged.onTopOf (h : config.IsMerged) (hbase : base.IsMerged) :
    (config.onTopOf base).IsMerged where
  includes := by
    cases hincludes : config.includes with
    | none => simpa [Config.onTopOf, hincludes] using hbase.includes
    | some entries => simpa [Config.onTopOf, hincludes] using h.includes
  excludes := by
    cases hexcludes : config.excludes with
    | none => simpa [Config.onTopOf, hexcludes] using hbase.excludes
    | some entries => simpa [Config.onTopOf, hexcludes] using h.excludes

theorem isAbsolute_of_readText {path : Pathname} {text : String}
    (h : tree.readText path = .ok text) : path.isAbsolute = true := by
  obtain ⟨names, executable, hfile⟩ := FileTree.exists_fileAt_of_readText h
  have hlocate := hfile.locate_eq
  rw [FileTree.locate, FileTree.follow] at hlocate
  by_contra habsolute
  rw [if_neg habsolute] at hlocate
  split at hlocate
  · cases hlocate
  · split at hlocate <;> cases hlocate

theorem isMerged_loadOne {path : Pathname} (h : loadOne tree path = .ok config) :
    config.IsMerged := by
  rw [loadOne] at h
  split at h
  next => cases h
  next source hread =>
    split at h
    next => cases h
    next => cases h
    next own folder hown hfolder =>
      cases h
      exact isMerged_rebase own (Pathname.isAbsolute_parent? (isAbsolute_of_readText hread) hfolder)

theorem isMerged_loadBases {load : Pathname → Except ProjectError Config} {path : Pathname}
    (hload : ∀ path config, load path = .ok config → config.IsMerged) {specifiers : List String}
    {earlier result : Option Config} (hearlier : ∀ config ∈ earlier, config.IsMerged)
    (h : loadBases tree load path specifiers earlier = .ok result) :
    ∀ config ∈ result, config.IsMerged := by
  induction specifiers generalizing earlier with
  | nil =>
    cases h
    exact hearlier
  | cons specifier specifiers ih =>
    obtain ⟨found, -, h⟩ := bind_eq_ok_iff.1 h
    obtain ⟨loaded, hloaded, h⟩ := bind_eq_ok_iff.1 h
    refine ih ?_ h
    have hmerged := hload found loaded hloaded
    cases earlier with
    | none => simpa using hmerged
    | some base => simpa using hmerged.onTopOf (hearlier base rfl)

theorem isMerged_loadBelow {n : ℕ} {way : List Pathname} {path : Pathname}
    (h : loadBelow tree n way path = .ok config) : config.IsMerged := by
  induction n generalizing way path config with
  | zero => cases h
  | succ n ih =>
    rw [loadBelow] at h
    split at h
    next => cases h
    next =>
      obtain ⟨own, hone, h⟩ := bind_eq_ok_iff.1 h
      obtain ⟨result, hbases, h⟩ := bind_eq_ok_iff.1 h
      have hmerged := isMerged_loadOne hone
      have hresult := isMerged_loadBases (fun path config => ih) (by simp) hbases
      cases result with
      | none =>
        cases h
        exact ⟨hmerged.includes, hmerged.excludes⟩
      | some base =>
        cases h
        exact hmerged.onTopOf (hresult base rfl)

/-- Everything that is loaded was made absolute. -/
theorem isMerged_of_load {path : Pathname} (h : load tree path = .ok config) : config.IsMerged :=
  isMerged_loadBelow h

end Config

end ExpectError
