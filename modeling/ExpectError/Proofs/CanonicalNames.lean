import ExpectError.Proofs.Answers
import ExpectError.Proofs.Walks

/-!
# Canonical path names

A place can have many path names, with dots and detours in them. Its canonical path name is the one
without any, and it leads to the place again. So two path names have the same canonical path name
just when they lead to one place.

* `IsAttained`: what holds of all places that steps lead to;
* `follow_pathOf_of_follow`: the canonical path name of a place leads to it;
* `canonical_eq_canonical_iff`: canonical path names tell places apart.
-/

namespace ExpectError.FileTree

open Pathname (IsName)

/-- A place that steps can lead to. All its names can be used, and there are folders all the way to
it. What steps lead to need not exist itself. -/
structure IsAttained (tree : FileTree) (names : Names) : Prop where
  isUsable : ∀ name ∈ names, IsUsable name
  isFolder : ∀ folder inside, folder ++ inside = names → inside ≠ [] →
    tree.find? folder = some .folder

/-- Two path names of one place. -/
def SamePlace (tree : FileTree) (path other : Pathname) : Prop :=
  ∃ names, tree.follow path = .ok names ∧ tree.follow other = .ok names

variable {tree : FileTree} {names folder inside : Names} {path other : Pathname} {entry : Entry}

/-! ### Where steps lead -/

theorem isAttained_nil (tree : FileTree) : tree.IsAttained [] where
  isUsable := by simp
  isFolder folder inside happend hne := absurd (List.append_eq_nil_iff.1 happend).2 hne

theorem IsAttained.of_append (h : tree.IsAttained (folder ++ inside)) : tree.IsAttained folder where
  isUsable name hname := h.isUsable name (List.mem_append_left _ hname)
  isFolder front rest happend hne :=
    h.isFolder front (rest ++ inside) (by rw [← List.append_assoc, happend]) (by simp [hne])

theorem IsAttained.concat (h : tree.IsAttained folder) (hfolder : tree.find? folder = some .folder)
    {name : List Char} (hname : IsUsable name) : tree.IsAttained (folder ++ [name]) where
  isUsable := List.forall_mem_append.2 ⟨h.isUsable, by simpa using hname⟩
  isFolder front rest happend hne := by
    obtain ⟨rest, last, rfl⟩ := (List.eq_nil_or_concat' rest).resolve_left hne
    rw [← List.append_assoc] at happend
    obtain ⟨happend, -⟩ := List.append_inj' happend rfl
    by_cases hrest : rest = []
    · rw [hrest, List.append_nil] at happend
      rwa [happend]
    · exact h.isFolder front rest happend hrest

theorem IsAttained.step (h : tree.IsAttained folder) {field : List Char} (hslash : '/' ∉ field)
    (hnul : '\x00' ∉ field) (hstep : tree.step folder field = .ok names) :
    tree.IsAttained names := by
  -- the field is idle, two dots, or a name: stay, go up, or go down
  rw [FileTree.step] at hstep
  split at hstep
  next => cases hstep
  next => cases hstep
  next hfolder =>
    split at hstep
    next =>
      cases hstep
      exact h
    next hidle =>
      split at hstep
      next =>
        cases hstep
        by_cases hne : folder = []
        · rw [hne]
          exact isAttained_nil tree
        · exact @IsAttained.of_append tree folder.dropLast [folder.getLast hne]
            (by rwa [List.dropLast_append_getLast])
      next hdots =>
        split at hstep
        next => cases hstep
        next hshort =>
          cases hstep
          simp only [Bool.or_eq_true, decide_eq_true_eq, not_or] at hidle
          exact h.concat hfolder ⟨⟨hidle.1, hidle.2, hdots, hslash⟩, hnul, Nat.not_lt.1 hshort⟩

theorem IsAttained.foldlM (h : tree.IsAttained folder) {fields : Names}
    (hfields : ∀ field ∈ fields, '/' ∉ field ∧ '\x00' ∉ field)
    (hsteps : fields.foldlM tree.step folder = .ok names) : tree.IsAttained names := by
  induction fields generalizing folder with
  | nil =>
    cases hsteps
    exact h
  | cons field fields ih =>
    obtain ⟨⟨hslash, hnul⟩, hfields⟩ := List.forall_mem_cons.1 hfields
    rw [List.foldlM_cons] at hsteps
    obtain ⟨next, hnext, hsteps⟩ := bind_eq_ok_iff.1 hsteps
    exact ih (h.step hslash hnul hnext) hfields hsteps

theorem isAttained_of_follow (h : tree.follow path = .ok names) : tree.IsAttained names := by
  rw [follow] at h
  split at h
  next => cases h
  next hnul =>
    split at h
    next =>
      refine (isAttained_nil tree).foldlM (fun field hfield => ?_) h
      exact ⟨Text.not_mem_of_mem_fields hfield, fun hmem =>
        hnul (by simpa using Text.mem_of_mem_fields hfield hmem)⟩
    next => cases h

/-! ### The way back -/

theorem IsAttained.foldlM_step (h : tree.IsAttained (folder ++ inside)) :
    inside.foldlM tree.step folder = .ok (folder ++ inside) := by
  induction inside generalizing folder with
  | nil => simp; rfl
  | cons name inside ih =>
    have hstep := step_of_isFolder (h.isFolder folder _ rfl (by simp))
      (h.isUsable name (by simp))
    rw [List.foldlM_cons, hstep]
    change inside.foldlM tree.step (folder ++ [name]) = _
    rw [ih (by simpa using h), List.append_assoc, List.singleton_append]

/-- The canonical path name of a place leads to it. -/
theorem IsAttained.follow_pathOf (h : tree.IsAttained names) :
    tree.follow (pathOf names) = .ok names := by
  have hnul : '\x00' ∉ (pathOf names).text := by
    by_cases hne : names = []
    · subst hne
      decide
    · rw [Pathname.text_pathOf hne, List.mem_flatMap]
      rintro ⟨name, hname, hmem⟩
      exact (h.isUsable name hname).not_mem ((List.mem_cons.1 hmem).resolve_left (by decide))
  rw [FileTree.follow_pathOf (fun name hname => (h.isUsable name hname).isName) hnul]
  exact @IsAttained.foldlM_step tree [] names h

theorem eq_of_pathOf_eq (h : tree.IsAttained names) (h' : tree.IsAttained inside)
    (heq : pathOf names = pathOf inside) : names = inside :=
  Pathname.eq_of_components_pathOf (fun name hname => (h.isUsable name hname).isName)
    (fun name hname => (h'.isUsable name hname).isName) (congrArg Pathname.components heq)

/-! ### Canonical path names -/

theorem canonical_eq_pathOf (h : tree.follow path = .ok names)
    (hfind : tree.find? names = some entry) : tree.canonical path = pathOf names := by
  have hentry : tree.follow path >>= tree.entryAt = .ok (names, entry) :=
    bind_eq_ok_iff.2 ⟨names, h, by rw [entryAt, hfind]⟩
  rw [canonical, hentry]

/-- Where a path name leads whose canonical path name is that of a place. -/
theorem follow_of_canonical_eq (h : tree.IsAttained names)
    (heq : tree.canonical other = pathOf names) : tree.follow other = .ok names := by
  rw [canonical] at heq
  split at heq
  next found hfound =>
    obtain ⟨place, hfollow, hentry⟩ := bind_eq_ok_iff.1 hfound
    rw [entryAt] at hentry
    split at hentry
    next =>
      cases hentry
      rw [hfollow, eq_of_pathOf_eq (isAttained_of_follow hfollow) h heq]
    next => cases hentry
  next =>
    rw [heq]
    exact h.follow_pathOf

/-- Two path names have the same canonical path name just when they lead to one place, if there is
anything. -/
theorem canonical_eq_canonical_iff (h : tree.follow path = .ok names)
    (hfind : tree.find? names = some entry) :
    tree.canonical other = tree.canonical path ↔ tree.SamePlace path other := by
  rw [canonical_eq_pathOf h hfind]
  constructor
  · intro heq
    exact ⟨names, h, follow_of_canonical_eq (isAttained_of_follow h) heq⟩
  · rintro ⟨place, hplace, hother⟩
    cases h.symm.trans hplace
    exact canonical_eq_pathOf hother hfind

end ExpectError.FileTree
