import ExpectError.Proofs.Ancestors
import ExpectError.Proofs.Annotation
import ExpectError.Proofs.TopStatements

/-!
# Past keywords

An annotation that would part a keyword from its line climbs to the nearest ancestor that starts at
the keyword or in front of it, and on from there until no such keyword is in the way or only the file
as a whole is left. In the second case nothing is parted either: the keyword is in front of the
statement of the text in which the anchor stands, and behind a statement that ends with such a keyword
there is a line break.

* `enclosing?`, `hoistStep?`: one step of the climb;
* `hoist_induction`: the climb is made up of steps;
* `hoist_eq_self_iff`: what stays where it is;
* `breaksBetween_of_hoistStep?`: where the climb ends, the line has ended before;
* `breaksBetween_hoist`, `hoist_ne_self_iff_encloses`: where the climb ends, and when there is one.
-/

open ExpectError.Tree (Path)

namespace ExpectError.Structural

open Placement Text

variable {file : SourceFile} {path p q : Path} {keyword : Grammar.Token}

/-! ### Steps -/

/-- The nearest of some ancestors that starts at an offset or in front of it, below the file as a
whole. -/
def enclosing? (offset : ℕ) : List Tree → Option Path
  | [] => none
  | parent :: rest =>
    if parent.kind = .sourceFile then none
    else if parent.start ≤ offset then some { node := parent, ancestors := rest }
    else enclosing? offset rest

/-- One step of the climb past keywords. -/
def hoistStep? (file : SourceFile) (path : Path) : Option Path := do
  let keyword ← lineSensitiveBefore? file path.node.start
  enclosing? keyword.start path.ancestors

theorem of_enclosing?_eq_some {offset : ℕ} {ancestors : List Tree}
    (h : enclosing? offset ancestors = some q) :
    q.chain <:+ ancestors ∧ q.node.kind ≠ .sourceFile ∧ q.node.start ≤ offset := by
  induction ancestors with
  | nil => cases h
  | cons parent rest ih =>
    rw [enclosing?] at h
    split_ifs at h with hfile hstart
    · cases h
      exact ⟨List.suffix_rfl, hfile, hstart⟩
    · exact (ih h).imp_left fun hsuffix => hsuffix.trans (List.suffix_cons _ _)

/-- If nothing is above the file as a whole, there is such an ancestor unless all of them but the file
start behind the offset. -/
theorem enclosing?_eq_none_iff {offset : ℕ} {ancestors : List Tree}
    (htop : ∀ q : Path, q.chain <:+ ancestors → q.node.kind = .sourceFile → q.ancestors = []) :
    enclosing? offset ancestors = none ↔
      ∀ a ∈ ancestors, a.kind ≠ .sourceFile → offset < a.start := by
  induction ancestors with
  | nil => simp [enclosing?]
  | cons parent rest ih =>
    rw [enclosing?, List.forall_mem_cons]
    split_ifs with hfile hstart
    · obtain rfl : rest = [] := htop ⟨parent, rest⟩ List.suffix_rfl hfile
      simp [hfile]
    · simp [hfile, hstart]
    · rw [ih fun q hq => htop q (hq.trans (List.suffix_cons _ _))]
      exact (and_iff_right fun _ => Nat.lt_of_not_le hstart).symm

theorem hoistPast_eq (anchor : Path) (ancestors : List Tree) :
    hoistPast file anchor keyword ancestors =
      ((enclosing? keyword.start ancestors).map (hoist file)).getD anchor := by
  induction ancestors with
  | nil => rfl
  | cons parent rest ih =>
    rw [hoistPast, enclosing?]
    split_ifs
    · rfl
    · rfl
    · exact ih

/-- The climb is a step and the climb from there, or it ends at once. -/
theorem hoist_eq (file : SourceFile) (path : Path) :
    hoist file path = ((hoistStep? file path).map (hoist file)).getD path := by
  rw [hoist, hoistStep?]
  cases lineSensitiveBefore? file path.node.start with
  | none => rfl
  | some keyword => exact hoistPast_eq path path.ancestors

theorem hoist_eq_self (h : hoistStep? file p = none) : hoist file p = p := by
  rw [hoist_eq, h]
  rfl

theorem hoist_eq_of_step (h : hoistStep? file p = some q) : hoist file p = hoist file q := by
  rw [hoist_eq, h]
  rfl

theorem of_hoistStep?_eq_some (h : hoistStep? file p = some q) :
    ∃ keyword, lineSensitiveBefore? file p.node.start = some keyword ∧ q.chain <:+ p.ancestors ∧
      q.node.kind ≠ .sourceFile ∧ q.node.start ≤ keyword.start := by
  obtain ⟨keyword, hkeyword, hq⟩ := Option.bind_eq_some_iff.1 h
  exact ⟨keyword, hkeyword, of_enclosing?_eq_some hq⟩

/-- What is true where the climb ends, and at the start of each step if it is true at its end. -/
theorem hoist_induction {motive : Path → Path → Prop}
    (hstop : ∀ p, hoistStep? file p = none → motive p p)
    (hstep : ∀ p q, hoistStep? file p = some q → motive q (hoist file q) → motive p (hoist file q))
    (p : Path) : motive p (hoist file p) := by
  -- by induction on the number of ancestors
  obtain ⟨n, hn⟩ : ∃ n, p.ancestors.length = n := ⟨_, rfl⟩
  induction n using Nat.strong_induction_on generalizing p with
  | _ n ih =>
    cases h : hoistStep? file p with
    | none => exact (hoist_eq_self h).symm ▸ hstop p h
    | some q =>
      obtain ⟨-, -, hsuffix, -⟩ := of_hoistStep?_eq_some h
      have hlt : q.ancestors.length < n := by
        have := hsuffix.length_le
        rw [Path.chain, List.length_cons] at this
        omega
      exact hoist_eq_of_step h ▸ hstep p q h (ih _ hlt q rfl)

/-- The climb ends where there is no further step. -/
theorem hoistStep?_hoist (file : SourceFile) (path : Path) :
    hoistStep? file (hoist file path) = none :=
  hoist_induction (motive := fun _ q => hoistStep? file q = none) (fun _ h => h)
    (fun _ _ _ h => h) path

/-- The climb does not lead to the file as a whole. -/
theorem hoist_eq_self_or_kind_ne (file : SourceFile) (path : Path) :
    hoist file path = path ∨ (hoist file path).node.kind ≠ .sourceFile := by
  refine hoist_induction (motive := fun p q => q = p ∨ q.node.kind ≠ .sourceFile)
    (fun _ _ => Or.inl rfl) (fun p q hstep hq => Or.inr ?_) path
  obtain ⟨-, -, -, hkind, -⟩ := of_hoistStep?_eq_some hstep
  rcases hq with heq | hne
  · rwa [heq]
  · exact hne

/-- A step leads away for good: a node that is left behind is not come back to. -/
theorem hoist_eq_self_iff : hoist file p = p ↔ hoistStep? file p = none := by
  refine ⟨fun h => ?_, hoist_eq_self⟩
  cases hstep : hoistStep? file p with
  | none => rfl
  | some q =>
    obtain ⟨-, -, hsuffix, -⟩ := of_hoistStep?_eq_some hstep
    have hle := ((hoist_eq_of_step hstep ▸ suffix_hoist file q).trans hsuffix).length_le
    rw [h, Path.chain, List.length_cons] at hle
    omega

/-! ### Trees of texts -/

section

variable {dialect : Dialect} {text : List Char} (hread : SourceFile.read? dialect text = some file)
  (hclean : file.errors = []) (hpath : path ∈ file.tree.paths)

include hread hclean hpath

/-- Only the root stands for the file as a whole. -/
theorem ancestors_eq_nil_of_kind_eq (hkind : path.node.kind = .sourceFile) : path.ancestors = [] := by
  rcases Tree.eq_root_or_below hpath with rfl | ⟨top, -, -, htop, hsuffix⟩
  · rfl
  · have hinner : path.node.Inner := Tree.below_induction (motive := fun p => p.node.Inner)
      (SourceFile.inner_of_read? hread hclean _ htop)
      (fun _ _ _ h _ hchild => h.of_mem_children hchild) hpath hsuffix
    exact absurd hkind hinner.kind_ne

/-- There is a step from a node exactly if it stands behind a keyword together with an ancestor that
does not start behind that keyword, the file as a whole apart. -/
theorem hoistStep?_eq_none_iff : hoistStep? file path = none ↔
    ∀ keyword, lineSensitiveBefore? file path.node.start = some keyword →
      ∀ a ∈ path.ancestors, a.kind ≠ .sourceFile → keyword.start < a.start := by
  rw [hoistStep?, Option.bind_eq_bind, Option.bind_eq_none_iff]
  refine forall₂_congr fun keyword _ => enclosing?_eq_none_iff fun q hq hkind => ?_
  exact ancestors_eq_nil_of_kind_eq hread hclean
    (Tree.mem_paths_of_suffix hpath (hq.trans (List.suffix_cons _ _))) hkind

/-- Where there is no step past a keyword, there is a line break behind the keyword. -/
theorem breaksBetween_of_hoistStep? (hstop : hoistStep? file path = none)
    (hkeyword : lineSensitiveBefore? file path.node.start = some keyword) :
    BreaksBetween text keyword.stop path.node.start := by
  obtain ⟨hbefore, hsensitive⟩ := Option.filter_eq_some_iff.1 hkeyword
  obtain ⟨hmem, hstop'⟩ := SourceFile.of_tokenBefore?_eq_some hbefore
  have hlt := ((SourceFile.covered_of_read? hread).of_mem hmem).2.1
  have hfile := cleanFile_of_read? hread hclean
  rcases Tree.eq_root_or_below hpath with rfl | ⟨top, htop, hancestors, hchild, hsuffix⟩
  · -- no token is in front of the file as a whole
    have := hfile.start_eq
    simp only at hstop'
    omega
  have hstart := hfile.filled.start_le_of_mem_chain hpath top.node
    (hsuffix.subset List.mem_cons_self)
  -- the keyword does not belong to the statement of the text in which the node stands
  have hfront : keyword.start < top.node.start := by
    rcases List.suffix_cons_iff.1 hsuffix with heq | hbelow
    · rw [Tree.Path.eq_of_chain_eq heq]
      omega
    · refine (hoistStep?_eq_none_iff hread hclean hpath).1 hstop keyword hkeyword top.node
        (hbelow.subset List.mem_cons_self) fun hkind => ?_
      rw [ancestors_eq_nil_of_kind_eq hread hclean htop hkind] at hancestors
      cases hancestors
  exact (SourceFile.breaksBetween_of_child hread hclean hchild hstart hbefore hsensitive hfront).mono
    le_rfl hstart

/-- What is moved past a keyword is moved to the keyword or in front of it. -/
theorem start_hoist_le (hne : hoist file path ≠ path)
    (hkeyword : lineSensitiveBefore? file path.node.start = some keyword) :
    (hoist file path).node.start ≤ keyword.start := by
  obtain ⟨q, hq⟩ := Option.ne_none_iff_exists'.1 (mt hoist_eq_self_iff.2 hne)
  obtain ⟨first, hfirst, hsuffix, -, hstart⟩ := of_hoistStep?_eq_some hq
  obtain rfl : first = keyword := Option.some.inj (hfirst.symm.trans hkeyword)
  have hmem : q ∈ file.tree.paths :=
    Tree.mem_paths_of_suffix hpath (hsuffix.trans (List.suffix_cons _ _))
  rw [hoist_eq_of_step hq]
  exact ((cleanFile_of_read? hread hclean).filled.start_le_of_mem_chain hmem _
    ((suffix_hoist file q).subset List.mem_cons_self)).trans hstart

end

/-- In a text that is read without errors, the climb past keywords leads from every node to itself or
to one of its ancestors, and to the file as a whole only from there. If the token in front of where it
leads is a keyword that has to share its line with what follows, then there is a line break between
the two already, and a line comment parts nothing that was not parted before. -/
theorem breaksBetween_hoist {dialect : Dialect} {text : List Char} {file : SourceFile}
    (hread : SourceFile.read? dialect text = some file) (hclean : file.errors = []) {path : Path}
    (hpath : path ∈ file.tree.paths) :
    hoist file path ∈ file.tree.paths ∧ (hoist file path).chain <:+ path.chain ∧
      ((hoist file path).node.kind = .sourceFile → hoist file path = path) ∧
      ∀ keyword, lineSensitiveBefore? file (hoist file path).node.start = some keyword →
        BreaksBetween text keyword.stop (hoist file path).node.start := by
  have hsuffix := suffix_hoist file path
  have hmem := Tree.mem_paths_of_suffix hpath hsuffix
  refine ⟨hmem, hsuffix, fun hkind => ?_, fun keyword hkeyword => ?_⟩
  · exact (hoist_eq_self_or_kind_ne file path).resolve_right (not_not_intro hkind)
  · exact breaksBetween_of_hoistStep? hread hclean hmem (hoistStep?_hoist file path) hkeyword

/-- A word that could begin a declaration is a statement of its own where a line break follows. The
statement behind it stays where it is. -/
theorem breaksBetween_hoist_word :
    ∃ (file : SourceFile) (path : Path) (keyword : Grammar.Token),
      SourceFile.read? (.ofFileName "a.ts") "type\n  foo;\n".toList = some file ∧
      file.errors = [] ∧ path ∈ file.tree.paths ∧ path.node.kind = .expressionStatement ∧
      (hoist file path).node.start = 7 ∧
      lineSensitiveBefore? file (hoist file path).node.start = some keyword ∧
      BreaksBetween "type\n  foo;\n".toList keyword.stop (hoist file path).node.start := by
  have heval : (SourceFile.read? (.ofFileName "a.ts") "type\n  foo;\n".toList).map (fun file =>
      (file.errors, (file.tree.paths.find? fun path => path.node.start = 7).map fun path =>
        (path.node.kind, (hoist file path).node.start), lineSensitiveBefore? file 7)) =
      some ([], some (.expressionStatement, 7), some ⟨.typeKeyword, 0, 4⟩) := by
    decide +kernel
  obtain ⟨file, hread, hfile⟩ := Option.map_eq_some_iff.1 heval
  simp only [Prod.mk.injEq] at hfile
  obtain ⟨hclean, hfound, hkeyword⟩ := hfile
  obtain ⟨path, hfind, hkind⟩ := Option.map_eq_some_iff.1 hfound
  obtain ⟨hkind, hstart⟩ := Prod.mk.inj hkind
  have hpath := List.mem_of_find?_eq_some hfind
  have hkeyword' : lineSensitiveBefore? file (hoist file path).node.start =
      some ⟨.typeKeyword, 0, 4⟩ := by rw [hstart, hkeyword]
  exact ⟨file, path, _, hread, hclean, hpath, hkind, hstart, hkeyword',
    (breaksBetween_hoist hread hclean hpath).2.2.2 _ hkeyword'⟩

/-- In a text that is read without errors, a line comment for a node is moved up if and only if the
token in front of the node is a keyword that has to share its line with what follows, and an ancestor
of the node starts at the keyword or in front of it, the file as a whole apart. So it is whenever there
is no line break between the keyword and the node; and where it is, it goes to the keyword or in front
of it. -/
theorem hoist_ne_self_iff_encloses {dialect : Dialect} {text : List Char} {file : SourceFile}
    (hread : SourceFile.read? dialect text = some file) (hclean : file.errors = []) {path : Path}
    (hpath : path ∈ file.tree.paths) :
    (hoist file path ≠ path ↔
      ∃ keyword, lineSensitiveBefore? file path.node.start = some keyword ∧
        ∃ a ∈ path.ancestors, a.kind ≠ .sourceFile ∧ a.start ≤ keyword.start) ∧
      ∀ keyword, lineSensitiveBefore? file path.node.start = some keyword →
        (¬ BreaksBetween text keyword.stop path.node.start → hoist file path ≠ path) ∧
          (hoist file path ≠ path → (hoist file path).node.start ≤ keyword.start) := by
  refine ⟨?_, fun keyword hkeyword => ⟨?_, fun hne => ?_⟩⟩
  · rw [Ne, hoist_eq_self_iff, hoistStep?_eq_none_iff hread hclean hpath]
    push Not
    rfl
  · exact mt fun heq =>
      breaksBetween_of_hoistStep? hread hclean hpath (hoist_eq_self_iff.1 heq) hkeyword
  · exact start_hoist_le hread hclean hpath hne hkeyword

/-- What is returned stays on the line of the keyword: its comment goes in front of the statement. -/
theorem hoist_ne_self_iff_encloses_returned :
    ∃ (file : SourceFile) (path : Path) (keyword : Grammar.Token),
      SourceFile.read? (.ofFileName "a.ts") "function f() \x7b\n  return foo;\n\x7d\n".toList =
        some file ∧
      file.errors = [] ∧ path ∈ file.tree.paths ∧ path.node.kind = .token .identifier ∧
      lineSensitiveBefore? file path.node.start = some keyword ∧ hoist file path ≠ path ∧
      (hoist file path).node.start ≤ keyword.start := by
  have heval : (SourceFile.read? (.ofFileName "a.ts")
      "function f() \x7b\n  return foo;\n\x7d\n".toList).map (fun file =>
        (file.errors, (file.tree.paths.find? fun path => path.node.start = 24).map fun path =>
          (path.node.kind, lineSensitiveBefore? file path.node.start,
            path.ancestors.any fun a => decide (a.kind ≠ .sourceFile) && decide (a.start ≤ 17)))) =
      some ([], some (.token .identifier, some ⟨.returnKeyword, 17, 23⟩, true)) := by
    decide +kernel
  obtain ⟨file, hread, hfile⟩ := Option.map_eq_some_iff.1 heval
  obtain ⟨hclean, hfound⟩ := Prod.mk.inj hfile
  obtain ⟨path, hfind, hpath⟩ := Option.map_eq_some_iff.1 hfound
  simp only [Prod.mk.injEq] at hpath
  obtain ⟨hkind, hkeyword, hany⟩ := hpath
  have hmem := List.mem_of_find?_eq_some hfind
  obtain ⟨hiff, hplace⟩ := hoist_ne_self_iff_encloses hread hclean hmem
  have hne : hoist file path ≠ path := hiff.2 ⟨_, hkeyword, by
    simpa only [List.any_eq_true, Bool.and_eq_true, decide_eq_true_eq] using hany⟩
  exact ⟨file, path, _, hread, hclean, hmem, hkind, hkeyword, hne, (hplace _ hkeyword).2 hne⟩

/-- A keyword that ends its statement still moves the comment of the statement on the next line, in
front of the block around both. -/
theorem exists_hoist_ne_self_of_breaksBetween :
    ∃ (file : SourceFile) (path : Path) (keyword : Grammar.Token),
      SourceFile.read? (.ofFileName "a.ts") "function f() \x7b\n  return\n  foo;\n\x7d\n".toList =
        some file ∧
      file.errors = [] ∧ path ∈ file.tree.paths ∧ path.node.kind = .expressionStatement ∧
      lineSensitiveBefore? file path.node.start = some keyword ∧
      BreaksBetween "function f() \x7b\n  return\n  foo;\n\x7d\n".toList keyword.stop
        path.node.start ∧
      (hoist file path).node.kind = .block ∧ hoist file path ≠ path := by
  have heval : (SourceFile.read? (.ofFileName "a.ts")
      "function f() \x7b\n  return\n  foo;\n\x7d\n".toList).map (fun file =>
        (file.errors, (file.tree.paths.find? fun path => path.node.start = 26).map fun path =>
          (path.node.kind, lineSensitiveBefore? file path.node.start,
            (hoist file path).node.kind))) =
      some ([], some (.expressionStatement, some ⟨.returnKeyword, 17, 23⟩, .block)) := by
    decide +kernel
  obtain ⟨file, hread, hfile⟩ := Option.map_eq_some_iff.1 heval
  obtain ⟨hclean, hfound⟩ := Prod.mk.inj hfile
  obtain ⟨path, hfind, hpath⟩ := Option.map_eq_some_iff.1 hfound
  simp only [Prod.mk.injEq] at hpath
  obtain ⟨hkind, hkeyword, hblock⟩ := hpath
  have hstart : path.node.start = 26 := by simpa using List.find?_some hfind
  have hbreaks : BreaksBetween "function f() \x7b\n  return\n  foo;\n\x7d\n".toList 23 26 :=
    ⟨"function f() \x7b\n  return".toList, '\n', "  foo;\n\x7d\n".toList, rfl, rfl, by decide,
      by decide⟩
  -- the hoisted path has another kind of node, so it is another path
  refine ⟨file, path, _, hread, hclean, List.mem_of_find?_eq_some hfind, hkind, hkeyword,
    hstart.symm ▸ hbreaks, hblock, fun heq => ?_⟩
  rw [heq, hkind] at hblock
  cases hblock

end ExpectError.Structural
