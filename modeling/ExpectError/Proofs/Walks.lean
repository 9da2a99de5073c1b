import ExpectError.Proofs.PathNames

/-!
# Walks through sound trees

A tree is sound if it is what a file system can hold: every place has one entry, everything is in a
folder, and all names and path names can be used. A walk from a place finds just what is below it
and behind folders that are entered, each under its own path name.

* `IsSound`: what a file system can hold;
* `find?_eq_some_iff`, `IsSound.isFolder_of_append`: what is in the tree, and the folders around it;
* `resolve_pathOf`: path names of places lead to them;
* `mem_walk_iff`: what a walk finds.
-/

namespace ExpectError.FileTree

open Pathname (IsName)

/-- A name that a file system can hold. -/
@[mk_iff]
structure IsUsable (name : List Char) : Prop where
  isName : IsName name
  not_mem : '\x00' ∉ name
  short : (String.ofList name).utf8ByteSize ≤ maxName

instance (name : List Char) : Decidable (IsUsable name) :=
  decidable_of_iff _ (isUsable_iff name).symm

/-- What a file system can hold: every place has one entry, everything is in a folder, and all names
and path names can be used. -/
@[mk_iff]
structure IsSound (tree : FileTree) : Prop where
  nodup : (tree.entries.map (·.1)).Nodup
  ne_nil : ∀ entry ∈ tree.entries, entry.1 ≠ []
  isUsable : ∀ entry ∈ tree.entries, ∀ name ∈ entry.1, IsUsable name
  isFolder : ∀ entry ∈ tree.entries, tree.find? entry.1.dropLast = some .folder
  fits : ∀ entry ∈ tree.entries, Text.byteLength (pathOf entry.1).text ≤ maxPath

instance (tree : FileTree) : Decidable tree.IsSound :=
  decidable_of_iff _ (isSound_iff tree).symm

variable {tree : FileTree} {names folder inside : Names} {entry : Entry}

/-! ### What is in a tree -/

theorem lookup_eq_some_iff_mem {entries : List (Names × Entry)}
    (h : (entries.map (·.1)).Nodup) : entries.lookup names = some entry ↔ (names, entry) ∈ entries := by
  induction entries with
  | nil => simp
  | cons first rest ih =>
    obtain ⟨other, e⟩ := first
    obtain ⟨hfirst, hrest⟩ := List.nodup_cons.1 h
    rw [List.lookup_cons]
    by_cases heq : names = other
    · subst heq
      have hnot : (names, entry) ∉ rest := fun hmem =>
        hfirst (List.mem_map.2 ⟨(names, entry), hmem, rfl⟩)
      simp [hnot, eq_comm]
    · simp [beq_eq_false_iff_ne.2 heq, ih hrest, heq]

theorem IsSound.find?_eq_some_iff (h : tree.IsSound) (hne : names ≠ []) :
    tree.find? names = some entry ↔ (names, entry) ∈ tree.entries := by
  cases names with
  | nil => exact absurd rfl hne
  | cons name names => exact lookup_eq_some_iff_mem h.nodup

theorem IsSound.isUsable_of_find? (h : tree.IsSound) (hfind : tree.find? names = some entry) :
    ∀ name ∈ names, IsUsable name := by
  cases names with
  | nil => simp
  | cons name names => exact h.isUsable _ ((h.find?_eq_some_iff (by simp)).1 hfind)

theorem IsSound.isName_of_find? (h : tree.IsSound) (hfind : tree.find? names = some entry) :
    ∀ name ∈ names, IsName name :=
  fun name hname => (h.isUsable_of_find? hfind name hname).isName

/-- Everything around something is a folder. -/
theorem IsSound.isFolder_of_append (h : tree.IsSound) (hne : inside ≠ [])
    (hfind : tree.find? (folder ++ inside) = some entry) : tree.find? folder = some .folder := by
  induction inside using List.reverseRecOn generalizing entry with
  | nil => exact absurd rfl hne
  | append_singleton inside name ih =>
    have hmem : (folder ++ (inside ++ [name]), entry) ∈ tree.entries :=
      (h.find?_eq_some_iff (by simp)).1 hfind
    have hparent := h.isFolder _ hmem
    rw [← List.append_assoc, List.dropLast_concat] at hparent
    cases inside with
    | nil => simpa using hparent
    | cons first inside => exact ih (by simp) hparent

/-! ### Looking up path names -/

theorem step_of_isFolder {name : List Char} (hfolder : tree.find? folder = some .folder)
    (hname : IsUsable name) : tree.step folder name = .ok (folder ++ [name]) := by
  rw [step, hfolder]
  dsimp only
  rw [if_neg (by simp [hname.isName.ne_nil, hname.isName.ne_dot]), if_neg hname.isName.ne_dots,
    if_neg (Nat.not_lt.2 hname.short)]

/-- The steps of a path name below a folder lead to what is there. -/
theorem IsSound.foldlM_step (h : tree.IsSound) (hfind : tree.find? (folder ++ inside) = some entry) :
    inside.foldlM tree.step folder = .ok (folder ++ inside) := by
  induction inside generalizing folder with
  | nil => simp; rfl
  | cons name inside ih =>
    have hname : IsUsable name := h.isUsable_of_find? hfind name (by simp)
    have hstep := step_of_isFolder (h.isFolder_of_append (by simp) hfind) hname
    rw [List.foldlM_cons, hstep]
    change inside.foldlM tree.step (folder ++ [name]) = _
    rw [ih (by simpa using hfind), List.append_assoc, List.singleton_append]

/-- Where the steps of a path name lead, if they lead anywhere. -/
theorem eq_of_foldlM_step (h : ∀ name ∈ inside, IsName name)
    (hsteps : inside.foldlM tree.step folder = .ok names) : names = folder ++ inside := by
  induction inside generalizing folder with
  | nil =>
    cases hsteps
    simp
  | cons name inside ih =>
    obtain ⟨hname, hinside⟩ := List.forall_mem_cons.1 h
    rw [List.foldlM_cons] at hsteps
    cases hstep : tree.step folder name with
    | error e =>
      rw [hstep] at hsteps
      cases hsteps
    | ok next =>
      have hnext : next = folder ++ [name] := by
        rw [step] at hstep
        split at hstep
        · cases hstep
        · cases hstep
        · rw [if_neg (by simp [hname.ne_nil, hname.ne_dot]), if_neg hname.ne_dots] at hstep
          split at hstep <;> cases hstep
          rfl
      rw [hstep] at hsteps
      rw [ih hinside hsteps, hnext, List.append_assoc, List.singleton_append]

theorem follow_pathOf (h : ∀ name ∈ names, IsName name) (hnul : '\x00' ∉ (pathOf names).text) :
    tree.follow (pathOf names) = names.foldlM tree.step [] := by
  rw [follow, if_neg (by simpa using hnul), if_pos (Pathname.isAbsolute_pathOf names)]
  cases names with
  | nil => rfl
  | cons name names =>
    rw [Pathname.fields_pathOf (by simp) fun other hother => (h other hother).not_mem]
    rfl

theorem IsSound.fits_of_find? (h : tree.IsSound) (hfind : tree.find? names = some entry) :
    '\x00' ∉ (pathOf names).text ∧ Text.byteLength (pathOf names).text ≤ maxPath := by
  by_cases hne : names = []
  · subst hne
    exact ⟨by decide, by decide⟩
  · refine ⟨?_, h.fits _ ((h.find?_eq_some_iff hne).1 hfind)⟩
    rw [Pathname.text_pathOf hne, List.mem_flatMap]
    rintro ⟨name, hname, hmem⟩
    rcases List.mem_cons.1 hmem with hslash | hmem
    · exact absurd hslash (by decide)
    · exact (h.isUsable_of_find? hfind name hname).not_mem hmem

/-- The path name of what is in the tree leads to it. -/
theorem IsSound.resolve_pathOf (h : tree.IsSound) (hfind : tree.find? names = some entry) :
    tree.resolve (pathOf names) = .ok (names, entry) := by
  obtain ⟨hnul, hfits⟩ := h.fits_of_find? hfind
  have hlocate : tree.locate (pathOf names) = .ok names := by
    rw [locate, if_neg (by simpa using hnul), if_neg (Nat.not_lt.2 hfits),
      follow_pathOf (h.isName_of_find? hfind) hnul]
    exact (h.foldlM_step hfind : names.foldlM tree.step [] = .ok ([] ++ names))
  rw [resolve, hlocate]
  change tree.entryAt names = _
  rw [entryAt, hfind]

/-- The path name of a place does not lead to anything else. -/
theorem find?_of_resolve_pathOf (h : ∀ name ∈ names, IsName name) {found : Names}
    (hresolve : tree.resolve (pathOf names) = .ok (found, entry)) :
    found = names ∧ tree.find? names = some entry := by
  rw [resolve] at hresolve
  cases hlocate : tree.locate (pathOf names) with
  | error e =>
    rw [hlocate] at hresolve
    cases hresolve
  | ok place =>
    -- following plain names one by one leads nowhere else
    have hplace : place = names := by
      rw [locate] at hlocate
      split at hlocate
      next => cases hlocate
      next hnul =>
        split at hlocate
        next => cases hlocate
        next =>
          rw [follow_pathOf h (by simpa using hnul)] at hlocate
          simpa using eq_of_foldlM_step h hlocate
    subst hplace
    rw [hlocate] at hresolve
    change tree.entryAt place = _ at hresolve
    rw [entryAt] at hresolve
    split at hresolve
    next hfind =>
      cases hresolve
      exact ⟨rfl, hfind⟩
    next => cases hresolve

/-! ### Ways through folders -/

theorem mem_fronts {α : Type} {front l : List α} : front ∈ fronts l ↔ front ≠ [] ∧ front <+: l := by
  induction l generalizing front with
  | nil => simp [fronts]
  | cons a l ih =>
    rw [fronts, List.mem_cons, List.mem_map, List.prefix_cons_iff]
    constructor
    · rintro (rfl | ⟨rest, hrest, rfl⟩)
      · exact ⟨by simp, Or.inr ⟨[], rfl, List.nil_prefix⟩⟩
      · exact ⟨by simp, Or.inr ⟨rest, rfl, (ih.1 hrest).2⟩⟩
    · rintro ⟨hne, rfl | ⟨rest, rfl, hrest⟩⟩
      · exact absurd rfl hne
      · by_cases hnil : rest = []
        · exact Or.inl (by rw [hnil])
        · exact Or.inr ⟨rest, ih.2 ⟨hnil, hrest⟩, rfl⟩

/-- The beginnings of a list that are not all of it end with the elements in front of its last
one. -/
theorem forall_fronts_iff {α : Type} {l : List α} (default : α) {P : α → Prop} :
    (∀ front ∈ fronts l, front = l ∨ P (front.getLastD default)) ↔ ∀ a ∈ l.dropLast, P a := by
  constructor
  · intro h a ha
    obtain ⟨before, after, hsplit⟩ := List.append_of_mem ha
    have hne : l ≠ [] := by
      rintro rfl
      cases ha
    have hl : l = (before ++ [a]) ++ (after ++ [l.getLast hne]) := by
      conv_lhs => rw [← List.dropLast_append_getLast hne, hsplit]
      simp
    rcases h (before ++ [a]) (mem_fronts.2 ⟨by simp, ⟨_, hl.symm⟩⟩) with heq | ha
    · have := congrArg List.length (heq.trans hl)
      simp at this
    · simpa using ha
  · intro h front hfront
    obtain ⟨hne, rest, rfl⟩ := mem_fronts.1 hfront
    by_cases hrest : rest = []
    · exact Or.inl (by rw [hrest, List.append_nil])
    · refine Or.inr (h _ ?_)
      rw [List.dropLast_append_of_ne_nil hrest, List.getLastD_eq_getLast?,
        List.getLast?_eq_getLast_of_ne_nil hne]
      exact List.mem_append_left _ (List.getLast_mem hne)

/-! ### What a walk finds -/

theorem mem_below_iff : (inside, entry) ∈ tree.below folder ↔
    inside ≠ [] ∧ (folder ++ inside, entry) ∈ tree.entries := by
  rw [below, List.mem_mergeSort, List.mem_filterMap]
  constructor
  · rintro ⟨⟨names, e⟩, hmem, h⟩
    dsimp only at h
    split at h
    next hprefix =>
      rw [Bool.and_eq_true, List.isPrefixOf_iff_prefix, decide_eq_true_eq] at hprefix
      obtain ⟨⟨rest, rfl⟩, hlength⟩ := hprefix
      cases h
      rw [List.drop_left]
      refine ⟨?_, hmem⟩
      rintro rfl
      simp at hlength
    next => cases h
  · rintro ⟨hne, hmem⟩
    refine ⟨_, hmem, ?_⟩
    have hlength := List.length_pos_iff.2 hne
    simp [List.isPrefixOf_iff_prefix, hlength]

/-- A walk finds the place that it starts at, and what is below it, behind folders that are
entered. -/
theorem IsSound.mem_walk_iff (h : tree.IsSound) (hfolder : ∀ name ∈ folder, IsName name)
    {enters : List Char → Pathname → Bool} {path : Pathname} :
    (path, entry) ∈ tree.walk (pathOf folder) enters ↔
      ∃ inside, path = pathOf (folder ++ inside) ∧ tree.find? (folder ++ inside) = some entry ∧
        isReached (pathOf folder) enters inside entry = true := by
  have hinside {inside : Names} {e : Entry} (hfind : tree.find? (folder ++ inside) = some e) :
      descend (pathOf folder) inside = pathOf (folder ++ inside) :=
    Pathname.descend_pathOf hfolder fun name hname =>
      h.isName_of_find? hfind name (List.mem_append_right _ hname)
  constructor
  · intro hmem
    rw [walk] at hmem
    cases hresolve : tree.resolve (pathOf folder) with
    | error e => simp [hresolve] at hmem
    | ok found =>
      obtain ⟨place, e⟩ := found
      obtain ⟨rfl, hfind⟩ := find?_of_resolve_pathOf hfolder hresolve
      simp only [hresolve, List.mem_cons, Prod.mk.injEq, List.mem_map, List.mem_filter] at hmem
      rcases hmem with ⟨rfl, rfl⟩ | ⟨⟨inside, e'⟩, ⟨hbelow, hreached⟩, rfl, rfl⟩
      · exact ⟨[], by simp, by simpa using hfind, rfl⟩
      · -- entries are listed by their names, and a sound tree finds each listed entry by its names
        obtain ⟨hne, hentry⟩ := mem_below_iff.1 hbelow
        have hat := (h.find?_eq_some_iff (by simp [hne])).2 hentry
        exact ⟨inside, hinside hat, hat, hreached⟩
  · rintro ⟨inside, rfl, hfind, hreached⟩
    rw [walk]
    by_cases hne : inside = []
    · subst hne
      rw [List.append_nil] at hfind ⊢
      rw [h.resolve_pathOf hfind]
      exact List.mem_cons_self
    · rw [h.resolve_pathOf (h.isFolder_of_append hne hfind)]
      refine List.mem_cons_of_mem _ (List.mem_map.2 ⟨(inside, entry), List.mem_filter.2
        ⟨mem_below_iff.2 ⟨hne, (h.find?_eq_some_iff (by simp [hne])).1 hfind⟩, hreached⟩, ?_⟩)
      exact congrArg (·, entry) (hinside hfind)

end ExpectError.FileTree
