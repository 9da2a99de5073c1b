import ExpectError.Files.FileTree
import ExpectError.Proofs.Answers
import ExpectError.Proofs.EncodedTexts

/-!
# Contents of files

Writing a file that is there changes its contents and nothing else: every other place keeps what it
holds, and every path name leads to the same place as before, since the way there is made of
folders.

* `find?_put`: what is at a place after something has been put somewhere;
* `locate_congr`: path names lead to the same places in trees of the same form;
* `FileAt`: a path name leads to a file;
* `FileAt.writeText_eq`, `readText_eq`: writing and reading at a place;
* `SameForm`: all that changes from one tree to another are the contents of files.
-/

namespace ExpectError.FileTree

open Text (bytesOf ofBytes?)

/-! ### Putting something at a place -/

theorem lookup_go (names : Names) (entry : Entry) (entries : List (Names × Entry)) (other : Names) :
    (put.go names entry entries).lookup other =
      if other = names then some entry else entries.lookup other := by
  induction entries with
  | nil => by_cases h : other = names <;> simp [put.go, List.lookup_cons, h, beq_eq_false_iff_ne.2]
  | cons first rest ih =>
    obtain ⟨n, e⟩ := first
    rw [put.go]
    by_cases hn : n = names
    · subst hn
      by_cases h : other = n <;> simp [List.lookup_cons, h, beq_eq_false_iff_ne.2]
    · rw [if_neg hn, List.lookup_cons, List.lookup_cons, ih]
      by_cases h : other = n
      · subst h
        simp [hn]
      · simp [beq_eq_false_iff_ne.2 h]

theorem find?_put (tree : FileTree) {names : Names} (hne : names ≠ []) (entry : Entry)
    (other : Names) :
    (tree.put names entry).find? other = if other = names then some entry else tree.find? other := by
  cases other with
  | nil => rw [if_neg hne.symm]; rfl
  | cons name other => exact lookup_go names entry tree.entries (name :: other)

/-- What kind of thing is at a place: nothing, a folder or a file. -/
def kind? (tree : FileTree) (names : Names) : Option Bool :=
  (tree.find? names).map fun entry => decide (entry = .folder)

theorem step_congr {tree other : FileTree} (h : ∀ names, tree.kind? names = other.kind? names) :
    tree.step = other.step := by
  funext names field
  have hkind := h names
  rw [step, step]
  unfold kind? at hkind
  cases hfirst : tree.find? names with
  | none =>
    cases hsecond : other.find? names with
    | none => rfl
    | some entry => simp [hfirst, hsecond] at hkind
  | some entry =>
    cases hsecond : other.find? names with
    | none => simp [hfirst, hsecond] at hkind
    | some entry' =>
      cases entry <;> cases entry' <;> simp_all

/-- Path names lead to the same places in trees of the same form. -/
theorem locate_congr {tree other : FileTree} (h : ∀ names, tree.kind? names = other.kind? names)
    (path : Pathname) : tree.locate path = other.locate path := by
  rw [locate, locate, follow, follow, step_congr h]

theorem kind?_put_of_file {tree : FileTree} {names : Names} {content : List UInt8}
    {executable : Bool} (hfile : tree.find? names = some (.file content executable))
    (bytes : List UInt8) (other : Names) :
    (tree.put names (.file bytes executable)).kind? other = tree.kind? other := by
  have hne : names ≠ [] := by
    rintro rfl
    cases hfile
  rw [kind?, find?_put tree hne, kind?]
  by_cases h : other = names
  · subst h
    simp [hfile]
  · simp [h]

/-! ### Reading and writing at a place -/

/-- A path name leads to a file. -/
structure FileAt (tree : FileTree) (path : Pathname) (names : Names) (content : List UInt8)
    (executable : Bool) : Prop where
  locate_eq : tree.locate path = .ok names
  find?_eq : tree.find? names = some (.file content executable)

/-- The bytes at a place. -/
def bytesAt (tree : FileTree) (names : Names) : Except FileError (List UInt8) :=
  match tree.find? names with
  | none => .error .notFound
  | some .folder => .error .isFolder
  | some (.file content _) => .ok content

theorem readBytes_eq (tree : FileTree) (path : Pathname) :
    tree.readBytes path = tree.locate path >>= tree.bytesAt := by
  rw [readBytes, resolve]
  cases tree.locate path with
  | error e => rfl
  | ok names =>
    change (tree.entryAt names >>= _) = tree.bytesAt names
    rw [entryAt, bytesAt]
    cases tree.find? names with
    | none => rfl
    | some entry => cases entry <;> rfl

theorem bytesAt_eq_ok_iff {tree : FileTree} {names : Names} {content : List UInt8} :
    tree.bytesAt names = .ok content ↔
      ∃ executable, tree.find? names = some (.file content executable) := by
  rw [bytesAt]
  split
  all_goals simp_all

theorem FileAt.readBytes_eq {tree : FileTree} {path : Pathname} {names : Names}
    {content : List UInt8} {executable : Bool} (h : tree.FileAt path names content executable) :
    tree.readBytes path = .ok content := by
  rw [FileTree.readBytes_eq, bind_eq_ok_iff]
  exact ⟨names, h.locate_eq, bytesAt_eq_ok_iff.2 ⟨executable, h.find?_eq⟩⟩

theorem exists_fileAt_of_readBytes {tree : FileTree} {path : Pathname} {content : List UInt8}
    (h : tree.readBytes path = .ok content) :
    ∃ names executable, tree.FileAt path names content executable := by
  rw [readBytes_eq, bind_eq_ok_iff] at h
  obtain ⟨names, hlocate, hbytes⟩ := h
  obtain ⟨executable, hfind⟩ := bytesAt_eq_ok_iff.1 hbytes
  exact ⟨names, executable, hlocate, hfind⟩

/-- A text is read from the bytes that are its encoding. -/
theorem readText_eq_ok_iff {tree : FileTree} {path : Pathname} {text : String} :
    tree.readText path = .ok text ↔ tree.readBytes path = .ok (bytesOf text) := by
  rw [readText, bind_eq_ok_iff]
  constructor
  · rintro ⟨bytes, hbytes, h⟩
    split at h
    next found hfound =>
      cases h
      rw [hbytes, (Text.ofBytes?_eq_some_iff bytes text).1 hfound]
    next => cases h
  · intro h
    refine ⟨bytesOf text, h, ?_⟩
    rw [Text.ofBytes?_bytesOf]
    rfl

theorem exists_fileAt_of_readText {tree : FileTree} {path : Pathname} {text : String}
    (h : tree.readText path = .ok text) :
    ∃ names executable, tree.FileAt path names (bytesOf text) executable :=
  exists_fileAt_of_readBytes (readText_eq_ok_iff.1 h)

theorem FileAt.readText_eq {tree : FileTree} {path : Pathname} {names : Names} {text : String}
    {executable : Bool} (h : tree.FileAt path names (bytesOf text) executable) :
    tree.readText path = .ok text :=
  readText_eq_ok_iff.2 h.readBytes_eq

/-- A file is written in its place, unless it can only be read. -/
theorem FileAt.writeText_eq {tree : FileTree} {path : Pathname} {names : Names}
    {content : List UInt8} {executable : Bool} (h : tree.FileAt path names content executable)
    (text : String) :
    tree.writeText path text =
      if tree.isWritable names then .ok (tree.put names (.file (bytesOf text) executable))
      else .error .denied := by
  rw [writeText, write, h.locate_eq, Text.toList_toUTF8]
  simp only [bind, Except.bind, h.find?_eq]
  rfl

theorem FileAt.ne_nil {tree : FileTree} {path : Pathname} {names : Names} {content : List UInt8}
    {executable : Bool} (h : tree.FileAt path names content executable) : names ≠ [] := by
  rintro rfl
  cases h.find?_eq

theorem FileAt.put {tree : FileTree} {path : Pathname} {names : Names} {content : List UInt8}
    {executable : Bool} (h : tree.FileAt path names content executable) (bytes : List UInt8) :
    (tree.put names (.file bytes executable)).FileAt path names bytes executable where
  locate_eq := by
    rw [locate_congr (kind?_put_of_file h.find?_eq bytes), h.locate_eq]
  find?_eq := by rw [find?_put tree h.ne_nil, if_pos rfl]

/-! ### Trees of the same form -/

/-- Two trees hold the same at every place. -/
def Same (tree other : FileTree) : Prop :=
  tree.readOnly = other.readOnly ∧ ∀ names, tree.find? names = other.find? names

/-- Two path names do not lead to one place. -/
def Apart (tree : FileTree) (a b : Pathname) : Prop :=
  ∀ names, tree.locate a = .ok names → tree.locate b ≠ .ok names

/-- What a path name leads to is the same in two trees. -/
def SameAt (tree other : FileTree) (path : Pathname) : Prop :=
  ∀ names, tree.locate path = .ok names → other.find? names = tree.find? names

/-- A tree has the form that the first one has, and the same files can be written. -/
structure SameForm (first tree : FileTree) : Prop where
  kind?_eq : ∀ names, tree.kind? names = first.kind? names
  readOnly_eq : tree.readOnly = first.readOnly

variable {first tree : FileTree} {path : Pathname} {names : Names} {content : List UInt8}
  {executable : Bool}

theorem Apart.symm {a b : Pathname} (h : tree.Apart a b) : tree.Apart b a :=
  fun names hb ha => h names ha hb

theorem SameForm.refl (tree : FileTree) : SameForm tree tree :=
  ⟨fun _ => rfl, rfl⟩

theorem SameForm.locate_eq (h : SameForm first tree) (path : Pathname) :
    tree.locate path = first.locate path :=
  locate_congr h.kind?_eq path

theorem SameForm.isWritable_eq (h : SameForm first tree) (names : Names) :
    tree.isWritable names = first.isWritable names := by
  rw [isWritable, isWritable, h.readOnly_eq]

theorem SameForm.put (h : SameForm first tree)
    (hfile : tree.find? names = some (.file content executable)) (bytes : List UInt8) :
    SameForm first (tree.put names (.file bytes executable)) where
  kind?_eq other := (kind?_put_of_file hfile bytes other).trans (h.kind?_eq other)
  readOnly_eq := h.readOnly_eq

/-- A file that can be written gets new contents, and nothing else changes. -/
theorem SameForm.exists_writeText (h : SameForm first tree)
    (hfile : tree.FileAt path names content executable) (hwritable : first.isWritable names = true)
    (text : String) :
    ∃ tree', tree.writeText path text = .ok tree' ∧ SameForm first tree' ∧
      tree'.find? names = some (.file (bytesOf text) executable) ∧
      ∀ other, other ≠ names → tree'.find? other = tree.find? other := by
  refine ⟨tree.put names (.file (bytesOf text) executable), ?_, h.put hfile.find?_eq _, ?_, ?_⟩
  · rw [hfile.writeText_eq, if_pos ((h.isWritable_eq names).trans hwritable)]
  · rw [find?_put tree hfile.ne_nil, if_pos rfl]
  · intro other hother
    rw [find?_put tree hfile.ne_nil, if_neg hother]

/-- Reading looks only at what the path name leads to. -/
theorem readBytes_congr (hlocate : tree.locate path = first.locate path)
    (hkept : first.SameAt tree path) : tree.readBytes path = first.readBytes path := by
  rw [readBytes_eq, readBytes_eq, hlocate]
  cases hnames : first.locate path with
  | error e => rfl
  | ok names =>
    change tree.bytesAt names = first.bytesAt names
    rw [bytesAt, bytesAt, hkept names hnames]

theorem readText_congr (hlocate : tree.locate path = first.locate path)
    (hkept : first.SameAt tree path) : tree.readText path = first.readText path := by
  rw [readText, readText, readBytes_congr hlocate hkept]

end ExpectError.FileTree
