import ExpectError.Proofs.CanonicalNames
import ExpectError.Proofs.LoadedBases

/-!
# Configurations that are based on themselves

A configuration is loaded with the way there at hand: the canonical path names of the configurations
that it is loaded for. Without a bound, loading can only go on forever if ways can be of any length.
No file is on a way twice, so they cannot: every configuration is loaded in one way, and that is
what `load` gives (`Loads`, `loads_load`). A configuration whose file is on the way already is a
cycle, and only if there is none does everything load (`load_cycle_iff`). It is no cycle if a
configuration is met again on another way.

* `Loads`: loading without a bound;
* `Reached`: the ways that are taken;
* `IsLoadable`: what can be read and parsed, with bases that can be found.
-/

namespace ExpectError.Config

open Relation (ReflTransGen TransGen)

/-- Loading without a bound: a configuration on the way to itself is a cycle, and any other one is
loaded if all its bases are. -/
inductive Loads (tree : FileTree) :
    List Pathname → Pathname → Except ProjectError Config → Prop where
  | again {way : List Pathname} {path : Pathname} (h : tree.canonical path ∈ way) :
    Loads tree way path (.error (.cycle (tree.canonical path)))
  | first {way : List Pathname} {path : Pathname} {load : Pathname → Except ProjectError Config}
    (h : tree.canonical path ∉ way)
    (hbases : ∀ base, Extends tree path base →
      Loads tree (tree.canonical path :: way) base (load base)) :
    Loads tree way path (loadWith tree load path)

/-- The configurations that are met from a start on, each with the way there. A way does not go on
from a file that is on it already. -/
inductive Reached (tree : FileTree) (start : Pathname) : List Pathname → Pathname → Prop where
  | start : Reached tree start [] start
  | base {way : List Pathname} {path base : Pathname} (h : Reached tree start way path)
    (hfirst : tree.canonical path ∉ way) (hbase : Extends tree path base) :
    Reached tree start (tree.canonical path :: way) base

/-- A way through files of a tree, none of them twice. -/
structure IsWay (tree : FileTree) (way : List Pathname) : Prop where
  nodup : way.Nodup
  subset : way ⊆ tree.entries.map fun entry => FileTree.pathOf entry.1

/-- A configuration that can be read and parsed, and whose specifiers all lead somewhere. -/
def IsLoadable (tree : FileTree) (path : Pathname) : Prop :=
  ∃ source config, tree.readText path = .ok source ∧ ofText? source = some config ∧
    ∀ specifier ∈ config.specifiers, ∃ base, resolveBase tree path specifier = .ok base

variable {tree : FileTree} {start path base : Pathname} {way : List Pathname}
  {result other : Except ProjectError Config}

/-! ### Configurations are files -/

theorem exists_file_of_loadOne {config : Config} (h : loadOne tree path = .ok config) :
    ∃ names content executable, tree.follow path = .ok names ∧
      tree.find? names = some (.file content executable) := by
  obtain ⟨source, -, -, hread, -⟩ := loadOne_eq_ok_iff.1 h
  obtain ⟨names, executable, hfile⟩ := FileTree.exists_fileAt_of_readText hread
  exact ⟨names, _, executable, FileTree.follow_of_locate hfile.locate_eq, hfile.find?_eq⟩

theorem canonical_mem_of_extends (h : Extends tree path base) :
    tree.canonical path ∈ tree.entries.map fun entry => FileTree.pathOf entry.1 := by
  obtain ⟨config, hone, -⟩ := h
  obtain ⟨names, content, executable, hfollow, hfind⟩ := exists_file_of_loadOne hone
  rw [FileTree.canonical_eq_pathOf hfollow hfind]
  cases names with
  | nil => cases hfind
  | cons name names =>
    obtain ⟨front, rest, hentries, -⟩ := List.lookup_eq_some_iff.1 hfind
    refine List.mem_map.2 ⟨(name :: names, .file content executable), ?_, rfl⟩
    rw [hentries]
    exact List.mem_append_right _ List.mem_cons_self

theorem canonical_eq_iff_of_extends (h : Extends tree path base) {other : Pathname} :
    tree.canonical other = tree.canonical path ↔ tree.SamePlace path other := by
  obtain ⟨config, hone, -⟩ := h
  obtain ⟨names, content, executable, hfollow, hfind⟩ := exists_file_of_loadOne hone
  exact FileTree.canonical_eq_canonical_iff hfollow hfind

/-! ### Ways -/

theorem isWay_nil (tree : FileTree) : IsWay tree [] :=
  ⟨.nil, List.nil_subset _⟩

theorem IsWay.cons (h : IsWay tree way) (hfirst : tree.canonical path ∉ way)
    (hbase : Extends tree path base) : IsWay tree (tree.canonical path :: way) where
  nodup := List.nodup_cons.2 ⟨hfirst, h.nodup⟩
  subset := List.cons_subset.2 ⟨canonical_mem_of_extends hbase, h.subset⟩

/-- A way is not longer than there are files. -/
theorem IsWay.length_le (h : IsWay tree way) : way.length ≤ tree.entries.length := by
  simpa using h.nodup.length_le_of_subset h.subset

theorem Reached.isWay (h : Reached tree start way path) : IsWay tree way := by
  induction h with
  | start => exact isWay_nil tree
  | base h hfirst hbase ih => exact ih.cons hfirst hbase

/-! ### Loading without a bound -/

theorem Loads.eq_of_mem (h : Loads tree way path result) (hmem : tree.canonical path ∈ way) :
    result = .error (.cycle (tree.canonical path)) := by
  cases h with
  | again => rfl
  | first hfirst => exact absurd hmem hfirst

theorem Loads.exists_load (h : Loads tree way path result) (hfirst : tree.canonical path ∉ way) :
    ∃ load, result = loadWith tree load path ∧ ∀ base, Extends tree path base →
      Loads tree (tree.canonical path :: way) base (load base) := by
  cases h with
  | again hmem => exact absurd hmem hfirst
  | first _ hbases => exact ⟨_, rfl, hbases⟩

theorem Loads.unique (h : Loads tree way path result) (h' : Loads tree way path other) :
    result = other := by
  induction h generalizing other with
  | again hmem => exact (h'.eq_of_mem hmem).symm
  | first hfirst _ ih =>
    obtain ⟨load, rfl, hbases⟩ := h'.exists_load hfirst
    exact loadWith_congr fun base hbase => ih base hbase (hbases base hbase)

/-- A bound that leaves room for all files, and for one more that is missing, is never met. -/
theorem loads_loadBelow {n : ℕ} (hway : IsWay tree way)
    (hn : tree.entries.length + 2 ≤ n + way.length) :
    Loads tree way path (loadBelow tree n way path) := by
  induction n generalizing way path with
  | zero =>
    -- A way that has used up the bound would be longer than there are files.
    have hlength := hway.length_le
    omega
  | succ n ih =>
    rw [loadBelow_succ]
    split
    next hmem => exact .again hmem
    next hfirst =>
      refine .first hfirst fun base hbase => ih (hway.cons hfirst hbase) ?_
      rw [List.length_cons]
      omega

theorem loads_load (tree : FileTree) (start : Pathname) : Loads tree [] start (load tree start) :=
  loads_loadBelow (isWay_nil tree) (by simp)

/-! ### Cycles and ways -/

/-- What loads without an error has loaded everything on the ways that are taken. -/
theorem Reached.exists_loads (h : Reached tree start way path) {config : Config}
    (hload : Loads tree [] start (.ok config)) : ∃ config, Loads tree way path (.ok config) := by
  induction h with
  | start => exact ⟨config, hload⟩
  | base h hfirst hbase ih =>
    obtain ⟨own, hown⟩ := ih
    obtain ⟨load, heq, hbases⟩ := hown.exists_load hfirst
    obtain ⟨found, hfound⟩ := exists_load_of_extends heq.symm hbase
    exact ⟨found, hfound ▸ hbases _ hbase⟩

/-- A cycle is found where a way comes back to a file that is on it. -/
theorem Loads.exists_again (h : Loads tree way path result) {canonical : Pathname}
    (hresult : result = .error (.cycle canonical)) (hreached : Reached tree start way path) :
    ∃ way path, Reached tree start way path ∧ tree.canonical path ∈ way := by
  induction h with
  | again hmem => exact ⟨_, _, hreached, hmem⟩
  | first hfirst _ ih =>
    -- The error is that of a base, since neither reading nor resolving gives a cycle.
    rcases loadWith_eq_error hresult with hone | ⟨own, hown, specifier, hspecifier, hfails⟩
    · exact absurd hone (loadOne_ne_cycle _ _ _)
    · rcases hfails with hresolve | ⟨base, hresolve, hload⟩
      · exact absurd hresolve (resolveBase_ne_cycle _ _ _ _)
      · have hbase : Extends tree _ base := ⟨own, hown, specifier, hspecifier, hresolve⟩
        exact ih base hbase hload (hreached.base hfirst hbase)

theorem IsLoadable.exists_specifiers (h : IsLoadable tree path) :
    ∃ own, loadOne tree path = .ok own ∧
      ∀ specifier ∈ own.specifiers, ∃ base, resolveBase tree path specifier = .ok base := by
  obtain ⟨source, config, hread, hparse, hspecifiers⟩ := h
  obtain ⟨folder, -, hone⟩ := exists_loadOne hread hparse
  exact ⟨_, hone, hspecifiers⟩

/-- Where everything can be loaded by itself, nothing but a cycle can go wrong. -/
theorem Loads.eq_ok_or_cycle (h : Loads tree way path result)
    (hreached : Reached tree start way path)
    (hloadable : ∀ way path, Reached tree start way path → tree.canonical path ∉ way →
      IsLoadable tree path) :
    (∃ config, result = .ok config) ∨ ∃ canonical, result = .error (.cycle canonical) := by
  induction h with
  | again hmem => exact Or.inr ⟨_, rfl⟩
  | @first way path load hfirst _ ih =>
    cases hresult : loadWith tree load path with
    | ok config => exact Or.inl ⟨config, rfl⟩
    | error e =>
      obtain ⟨own, hown, hspecifiers⟩ := (hloadable way path hreached hfirst).exists_specifiers
      obtain hone | ⟨own', hown', specifier, hspecifier, hfails⟩ := loadWith_eq_error hresult
      · cases hown.symm.trans hone
      cases hown.symm.trans hown'
      obtain ⟨found, hfound⟩ := hspecifiers specifier hspecifier
      obtain hresolve | ⟨base, hresolve, hload⟩ := hfails
      · cases hfound.symm.trans hresolve
      have hbase : Extends tree path base := ⟨own, hown, specifier, hspecifier, hresolve⟩
      obtain ⟨config, hok⟩ | ⟨canonical, hcycle⟩ := ih base hbase (hreached.base hfirst hbase)
      · cases hload.symm.trans hok
      · exact Or.inr ⟨canonical, hload.symm.trans hcycle⟩

/-- What is on a way is a configuration that the end of the way is among the bases of. -/
theorem Reached.exists_of_mem (h : Reached tree start way path) {canonical : Pathname}
    (hmem : canonical ∈ way) :
    ∃ between, tree.canonical between = canonical ∧ ReflTransGen (Extends tree) start between ∧
      TransGen (Extends tree) between path := by
  have hstart {way : List Pathname} {path : Pathname} (h : Reached tree start way path) :
      ReflTransGen (Extends tree) start path := by
    induction h with
    | start => exact .refl
    | base _ _ hbase ih => exact ih.tail hbase
  induction h with
  | start => cases hmem
  | base h _ hbase ih =>
    rcases List.mem_cons.1 hmem with rfl | hmem
    · exact ⟨_, rfl, hstart h, .single hbase⟩
    · obtain ⟨between, hcanonical, hfront, hback⟩ := ih hmem
      exact ⟨between, hcanonical, hfront, hback.tail hbase⟩

/-- If no way comes back to a file, every chain of bases is a way. -/
theorem exists_reached (h : ∀ way path, Reached tree start way path → tree.canonical path ∉ way)
    (hchain : ReflTransGen (Extends tree) start path) : ∃ way, Reached tree start way path := by
  induction hchain with
  | refl => exact ⟨[], .start⟩
  | tail _ hbase ih =>
    obtain ⟨way, hreached⟩ := ih
    exact ⟨_, hreached.base (h _ _ hreached) hbase⟩

theorem exists_reached_through
    (h : ∀ way path, Reached tree start way path → tree.canonical path ∉ way)
    (hfront : ReflTransGen (Extends tree) start path) (hback : TransGen (Extends tree) path base) :
    ∃ way, Reached tree start way base ∧ tree.canonical path ∈ way := by
  induction hback with
  | single hbase =>
    obtain ⟨way, hreached⟩ := exists_reached h hfront
    exact ⟨_, hreached.base (h _ _ hreached) hbase, List.mem_cons_self⟩
  | tail _ hbase ih =>
    obtain ⟨way, hreached, hmem⟩ := ih
    exact ⟨_, hreached.base (h _ _ hreached) hbase, List.mem_cons_of_mem _ hmem⟩

/-- A way comes back to a file just when a configuration is among its own bases, under the same path
name or another one. -/
theorem exists_again_iff :
    (∃ way path, Reached tree start way path ∧ tree.canonical path ∈ way) ↔
      ∃ path again, ReflTransGen (Extends tree) start path ∧ TransGen (Extends tree) path again ∧
        tree.SamePlace path again := by
  constructor
  · rintro ⟨way, again, hreached, hmem⟩
    obtain ⟨path, hcanonical, hfront, hback⟩ := hreached.exists_of_mem hmem
    obtain ⟨base, hbase, -⟩ := TransGen.head'_iff.1 hback
    exact ⟨path, again, hfront, hback, (canonical_eq_iff_of_extends hbase).1 hcanonical.symm⟩
  · rintro ⟨path, again, hfront, hback, hsame⟩
    obtain ⟨base, hbase, -⟩ := TransGen.head'_iff.1 hback
    by_contra hnone
    -- If no way came back to a file, the whole chain would be a way, and its end comes back.
    have hnever : ∀ way path, Reached tree start way path → tree.canonical path ∉ way :=
      fun way path hreached hmem => hnone ⟨way, path, hreached, hmem⟩
    obtain ⟨way, hreached, hmem⟩ := exists_reached_through hnever hfront hback
    rw [← (canonical_eq_iff_of_extends hbase).2 hsame] at hmem
    exact hnever way again hreached hmem

/-- Loading comes to an end, with ways that are no longer than there are files, and nothing depends
on the bound that it is given. If every configuration that is met on a way without repetition can be
loaded by itself, loading gives a cycle just when the start or a configuration that it is based on
is based on itself, directly or through others and under any of its path names. Otherwise everything
is loaded. Nothing is asked of what is behind a repetition: path names can grow without end there.
-/
theorem load_cycle_iff (tree : FileTree) (start : Pathname) :
    (∀ result, Loads tree [] start result ↔ result = load tree start) ∧
    (∀ way path, Reached tree start way path →
      way.Nodup ∧ way.length ≤ tree.entries.length) ∧
    ((∀ way path, Reached tree start way path → tree.canonical path ∉ way → IsLoadable tree path) →
      ((∃ canonical, load tree start = .error (.cycle canonical)) ↔
        ∃ path again, ReflTransGen (Extends tree) start path ∧
          TransGen (Extends tree) path again ∧ tree.SamePlace path again) ∧
      ((∃ config, load tree start = .ok config) ↔
        ¬∃ path again, ReflTransGen (Extends tree) start path ∧
          TransGen (Extends tree) path again ∧ tree.SamePlace path again)) := by
  refine ⟨fun result => ⟨fun h => h.unique (loads_load tree start), ?_⟩,
    fun way path h => ⟨h.isWay.nodup, h.isWay.length_le⟩, fun hloadable => ?_⟩
  · rintro rfl
    exact loads_load tree start
  · rw [← exists_again_iff]
    -- under the condition there are only two results, so each of them excludes the other
    have hresult := (loads_load tree start).eq_ok_or_cycle .start hloadable
    have hcycle : (∃ canonical, load tree start = .error (.cycle canonical)) →
        ∃ way path, Reached tree start way path ∧ tree.canonical path ∈ way := by
      rintro ⟨canonical, hcanonical⟩
      exact (loads_load tree start).exists_again hcanonical .start
    have hok : (∃ config, load tree start = .ok config) →
        ¬∃ way path, Reached tree start way path ∧ tree.canonical path ∈ way := by
      rintro ⟨config, hconfig⟩ ⟨way, path, hreached, hmem⟩
      obtain ⟨_, hloads⟩ := hreached.exists_loads (hconfig ▸ loads_load tree start)
      cases hloads.eq_of_mem hmem
    exact ⟨⟨hcycle, fun h => hresult.resolve_left fun hload => hok hload h⟩,
      ⟨hok, fun h => hresult.resolve_right fun hload => h (hcycle hload)⟩⟩

/-! ### Bases in common, and a detour back to the start -/

instance (tree : FileTree) (path : Pathname) : Decidable (IsLoadable tree path) :=
  match hread : tree.readText path with
  | .error _ => isFalse fun ⟨_, _, h, _⟩ => by cases hread.symm.trans h
  | .ok source =>
    match hparse : ofText? source with
    | none => isFalse fun ⟨_, _, h, hconfig, _⟩ => by
      cases hread.symm.trans h
      cases hparse.symm.trans hconfig
    | some config =>
      decidable_of_iff (∀ specifier ∈ config.specifiers,
          (resolveBase tree path specifier).toOption.isSome = true) <| by
        have hsome (answer : Except ProjectError Pathname) :
            answer.toOption.isSome = true ↔ ∃ base, answer = .ok base := by
          cases answer <;> simp [Except.toOption]
        simp [IsLoadable, hread, hparse, hsome]

/-- The bases of a configuration, in order. -/
def basesOf (tree : FileTree) (path : Pathname) : List Pathname :=
  match loadOne tree path with
  | .error _ => []
  | .ok config => config.specifiers.filterMap fun specifier =>
      (resolveBase tree path specifier).toOption

theorem mem_basesOf_iff : base ∈ basesOf tree path ↔ Extends tree path base := by
  have hsome (answer : Except ProjectError Pathname) :
      answer.toOption = some base ↔ answer = .ok base := by
    cases answer <;> simp [Except.toOption]
  rw [basesOf, Extends]
  cases loadOne tree path with
  | error e => simp
  | ok config => simp [List.mem_filterMap, hsome]

/-- Ways stay in a list of ways that is closed under taking bases, and what is on the list can be
loaded. -/
theorem isLoadable_of_closed {ways : List (List Pathname × Pathname)} (hstart : ([], start) ∈ ways)
    (hclosed : ∀ found ∈ ways, tree.canonical found.2 ∉ found.1 →
      IsLoadable tree found.2 ∧
        ∀ base ∈ basesOf tree found.2, (tree.canonical found.2 :: found.1, base) ∈ ways)
    (h : Reached tree start way path) (hfirst : tree.canonical path ∉ way) :
    IsLoadable tree path := by
  have hmem : (way, path) ∈ ways := by
    clear hfirst
    induction h with
    | start => exact hstart
    | base _ hfirst hbase ih => exact (hclosed _ ih hfirst).2 _ (mem_basesOf_iff.2 hbase)
  exact (hclosed _ hmem hfirst).1

/-- `a` is based on `b` and on `c`, which are both based on `d`. And `e` is based on itself by way
of `f`, which finds it through the folder above. -/
def sharing : FileTree where
  entries := (["r".toList], .folder) ::
    [("a.json", "\x7b\"extends\": [\"./b\", \"./c\"]\x7d"),
      ("b.json", "\x7b\"extends\": \"./d\"\x7d"), ("c.json", "\x7b\"extends\": \"./d\"\x7d"),
      ("d.json", "\x7b\x7d"), ("e.json", "\x7b\"extends\": \"./f\"\x7d"),
      ("f.json", "\x7b\"extends\": \"../r/e\"\x7d")].map
      fun (name, text) => (["r".toList, name.toList], .file (Text.bytesOf text) false)

/-- All ways from `a`. -/
def waysFromA : List (List Pathname × Pathname) :=
  [([], .ofString "/r/a.json"),
    ([.ofString "/r/a.json"], .ofString "/r/./b.json"),
    ([.ofString "/r/a.json"], .ofString "/r/./c.json"),
    ([.ofString "/r/b.json", .ofString "/r/a.json"], .ofString "/r/./d.json"),
    ([.ofString "/r/c.json", .ofString "/r/a.json"], .ofString "/r/./d.json")]

/-- All ways from `e`. -/
def waysFromE : List (List Pathname × Pathname) :=
  [([], .ofString "/r/e.json"), ([.ofString "/r/e.json"], .ofString "/r/./f.json"),
    ([.ofString "/r/f.json", .ofString "/r/e.json"], .ofString "/r/../r/e.json")]

/-- A base that is shared by two configurations is no cycle, and two configurations that extend each
other are one. -/
theorem load_sharing :
    ((∃ config, load sharing (.ofString "/r/a.json") = .ok config) ∧
      ¬∃ path again, ReflTransGen (Extends sharing) (.ofString "/r/a.json") path ∧
        TransGen (Extends sharing) path again ∧ sharing.SamePlace path again) ∧
      ∃ canonical, load sharing (.ofString "/r/e.json") = .error (.cycle canonical) := by
  have hA := (load_cycle_iff sharing (.ofString "/r/a.json")).2.2 fun way path =>
    @isLoadable_of_closed sharing _ path way waysFromA List.mem_cons_self (by decide +kernel)
  have hE := (load_cycle_iff sharing (.ofString "/r/e.json")).2.2 fun way path =>
    @isLoadable_of_closed sharing _ path way waysFromE List.mem_cons_self (by decide +kernel)
  refine ⟨?_, hE.1.2 ⟨.ofString "/r/e.json", .ofString "/r/../r/e.json", .refl, ?_, ?_⟩⟩
  · have hload : (load sharing (.ofString "/r/a.json")).toOption.isSome = true := by
      decide +kernel
    cases hconfig : load sharing (.ofString "/r/a.json") with
    | ok config => exact ⟨⟨config, rfl⟩, hA.2.1 ⟨config, hconfig⟩⟩
    | error e =>
      rw [hconfig] at hload
      cases hload
  · have hfirst : .ofString "/r/./f.json" ∈ basesOf sharing (.ofString "/r/e.json") := by
      decide +kernel
    have hagain : .ofString "/r/../r/e.json" ∈ basesOf sharing (.ofString "/r/./f.json") := by
      decide +kernel
    exact .tail (.single (mem_basesOf_iff.1 hfirst)) (mem_basesOf_iff.1 hagain)
  · exact ⟨["r".toList, "e.json".toList], by decide +kernel, by decide +kernel⟩

end ExpectError.Config
