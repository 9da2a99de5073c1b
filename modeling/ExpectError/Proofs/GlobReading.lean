import ExpectError.Project.Glob
import ExpectError.Proofs.Answers

/-!
# How patterns are read

A pattern is read from its start to its end. What has been read outside all braces can only grow,
except that two stars between slashes take the place of the slash in front of them.

* `Step`, `Reads`: what one step of reading does, and reading as a whole;
* `Anchored`: some pieces and a slash stay at the bottom of what has been read;
* `anchored_of_ofText?`: what is read of a pattern that begins with plain characters and a slash;
* `Reads.exists_below`: reading a pattern with a slash and two stars behind it.
-/

namespace ExpectError.Glob

variable {before behind : Option Char} {p q r : Progress} {c : Char} {cs rest text : List Char}

/-! ### Reading -/

/-- The mark of a class at its front, and what is behind that. -/
def classBody : List Char → Bool × List Char
  | '!' :: rest => (true, rest)
  | '^' :: rest => (true, rest)
  | cs => (false, cs)

/-- The characters that begin something else than a literal. -/
def isSpecial (c : Char) : Bool :=
  c = '?' || c = '*' || c = '[' || c = '\x7b' || c = '\x7d' || c = ',' || c = '\\'

/-- One step of reading: the character in front and what has been read, before and after. -/
inductive Step (before : Option Char) (p : Progress) :
    List Char → Option Char → Progress → List Char → Prop
  | any (cs : List Char) : Step before p ('?' :: cs) (some '?') (p.push .any) cs
  | star (cs : List Char) (h : cs.head? ≠ some '*') :
      Step before p ('*' :: cs) (some '*') (p.push .star) cs
  | twoStars (cs : List Char) (h : (p.twoStars before cs.head?).2 = false) :
      Step before p ('*' :: '*' :: cs) (some '*') (p.twoStars before cs.head?).1 cs
  | folders (cs : List Char) (h : (p.twoStars before cs.head?).2 = true) :
      Step before p ('*' :: '*' :: cs) (some '/') (p.twoStars before cs.head?).1 cs.tail
  | oneOf (cs rest : List Char) (ranges : List CharRange)
      (h : readClass {} (classBody cs).2 = .ok (ranges, rest)) :
      Step before p ('[' :: cs) (some ']') (p.push (.oneOf (classBody cs).1 ranges)) rest
  | opens (cs : List Char) :
      Step before p ('\x7b' :: cs) (some '\x7b')
        { pieces := [], outer := ([], p.pieces) :: p.outer } cs
  | closes (cs : List Char) (next : Progress) (h : p.close = .ok next) :
      Step before p ('\x7d' :: cs) (some '\x7d') next cs
  | comma (cs : List Char) : Step before p (',' :: cs) (some ',') p.comma cs
  | escape (c : Char) (cs : List Char) :
      Step before p ('\\' :: c :: cs) (some c) (p.push (.literal c)) cs
  | literal (c : Char) (cs : List Char) (h : isSpecial c = false) :
      Step before p (c :: cs) (some c) (p.push (.literal c)) cs

/-- Reading to the end. -/
inductive Reads : Option Char → Progress → List Char → Progress → Prop
  | done (before : Option Char) (p : Progress) : Reads before p [] p
  | step {before behind : Option Char} {p next q : Progress} {cs rest : List Char}
      (h : Step before p cs behind next rest) (hrest : Reads behind next rest q) :
      Reads before p cs q

theorem readPieces_class (n : ℕ) (before : Option Char) (p : Progress) (cs : List Char) :
    readPieces (n + 1) before p ('[' :: cs) = (do
      let (ranges, rest) ← readClass {} (classBody cs).2
      readPieces n (some ']') (p.push (.oneOf (classBody cs).1 ranges)) rest) := by
  have hbody : classBody cs =
      match cs with
      | '!' :: rest | '^' :: rest => (true, rest)
      | _ => (false, cs) := by
    unfold classBody
    split <;> rfl
  rw [hbody]
  rfl

theorem readPieces_literal (n : ℕ) (before : Option Char) (p : Progress)
    (h : isSpecial c = false) :
    readPieces (n + 1) before p (c :: cs) = readPieces n (some c) (p.push (.literal c)) cs := by
  rw [readPieces] <;>
    · rintro rfl
      cases h

theorem readPieces_stars (n : ℕ) (before : Option Char) (p : Progress) (cs : List Char) :
    readPieces (n + 1) before p ('*' :: '*' :: cs) =
      if (p.twoStars before cs.head?).2 then
        readPieces n (some '/') (p.twoStars before cs.head?).1 cs.tail
      else readPieces n (some '*') (p.twoStars before cs.head?).1 cs := rfl

theorem readPieces_star (n : ℕ) (before : Option Char) (p : Progress)
    (h : cs.head? ≠ some '*') :
    readPieces (n + 1) before p ('*' :: cs) = readPieces n (some '*') (p.push .star) cs := by
  cases cs with
  | nil => rfl
  | cons c cs =>
    have hc : c ≠ '*' := fun hc => h (congrArg some hc)
    simp [readPieces, hc]

theorem Step.readPieces_eq (h : Step before p cs behind q rest) (n : ℕ) :
    readPieces (n + 1) before p cs = readPieces n behind q rest := by
  cases h with
  | any => rfl
  | star _ h => exact readPieces_star n before p h
  | twoStars _ h => rw [readPieces_stars, if_neg (by simp [h])]
  | folders cs h => rw [readPieces_stars, if_pos h]
  | oneOf cs _ ranges h =>
    rw [readPieces_class, h]
    rfl
  | opens => rfl
  | closes _ _ h =>
    change (p.close >>= fun next => readPieces n (some '\x7d') next rest) = _
    rw [h]
    rfl
  | comma => rfl
  | escape => rfl
  | literal c _ h => exact readPieces_literal n before p h

/-- Reading goes on with one step, as long as there are characters left. -/
theorem exists_step {n : ℕ} (h : readPieces (n + 1) before p (c :: cs) = .ok q) :
    ∃ behind next rest, Step before p (c :: cs) behind next rest ∧
      readPieces n behind next rest = .ok q := by
  cases hspecial : isSpecial c with
  | false =>
    rw [readPieces_literal n before p hspecial] at h
    exact ⟨_, _, _, .literal c cs hspecial, h⟩
  | true =>
    simp only [isSpecial, Bool.or_eq_true, decide_eq_true_eq] at hspecial
    rcases hspecial with (((((rfl | rfl) | rfl) | rfl) | rfl) | rfl) | rfl
    · exact ⟨_, _, _, .any cs, h⟩
    · by_cases hstar : cs.head? = some '*'
      · obtain ⟨cs, rfl⟩ := List.head?_eq_some_iff.1 hstar
        rw [readPieces_stars] at h
        split at h
        next hnext => exact ⟨_, _, _, .folders cs hnext, h⟩
        next hnext => exact ⟨_, _, _, .twoStars cs (by simpa using hnext), h⟩
      · rw [readPieces_star n before p hstar] at h
        exact ⟨_, _, _, .star cs hstar, h⟩
    · rw [readPieces_class] at h
      obtain ⟨answer, hclass, h⟩ := bind_eq_ok_iff.1 h
      exact ⟨_, _, _, .oneOf cs answer.2 answer.1 hclass, h⟩
    · exact ⟨_, _, _, .opens cs, h⟩
    · obtain ⟨next, hclose, h⟩ := bind_eq_ok_iff.1 h
      exact ⟨_, _, _, .closes cs next hclose, h⟩
    · exact ⟨_, _, _, .comma cs, h⟩
    · cases cs with
      | nil => cases h
      | cons c cs => exact ⟨_, _, _, .escape c cs, h⟩

theorem length_readClass {progress : ClassProgress} {ranges : List CharRange}
    (h : readClass progress cs = .ok (ranges, rest)) : rest.length < cs.length := by
  induction cs generalizing progress with
  | nil => cases h
  | cons c cs ih =>
    rw [readClass] at h
    split at h
    · cases h
      exact Nat.lt_succ_self _
    · obtain ⟨next, -, h⟩ := bind_eq_ok_iff.1 h
      exact (ih h).trans (Nat.lt_succ_self _)

theorem length_classBody (cs : List Char) : (classBody cs).2.length ≤ cs.length := by
  unfold classBody
  split <;> simp

theorem Step.length_lt (h : Step before p cs behind q rest) : rest.length < cs.length := by
  cases h with
  | oneOf cs _ ranges h =>
    have := length_readClass h
    have := length_classBody cs
    simp only [List.length_cons]
    omega
  | folders cs h =>
    simp only [List.length_cons, List.length_tail]
    omega
  | _ => simp

/-- The bound on the steps does not matter. -/
theorem readPieces_eq_ok_iff {n : ℕ} (hn : cs.length < n) :
    readPieces n before p cs = .ok q ↔ Reads before p cs q := by
  induction n generalizing before p cs with
  | zero => exact absurd hn (Nat.not_lt_zero _)
  | succ n ih =>
    constructor
    · intro h
      cases cs with
      | nil =>
        cases h
        exact .done before _
      | cons c cs =>
        obtain ⟨behind, next, rest, hstep, hrest⟩ := exists_step h
        have := hstep.length_lt
        exact .step hstep ((ih (by omega)).1 hrest)
    · intro h
      cases h with
      | done => rfl
      | step hstep hrest =>
        have := hstep.length_lt
        rw [hstep.readPieces_eq n]
        exact (ih (by omega)).2 hrest

theorem ofText?_eq_ok_iff {glob : Glob} :
    ofText? text = .ok glob ↔
      ∃ q, Reads none {} text q ∧ q.outer = [] ∧ glob = ⟨q.pieces.reverse⟩ := by
  have hreads (q : Progress) : readPieces (text.length + 1) none {} text = .ok q ↔
      Reads none {} text q := readPieces_eq_ok_iff (Nat.lt_succ_self text.length)
  have hall : ofText? text = readPieces (text.length + 1) none {} text >>= fun q =>
      if q.outer.isEmpty then .ok ⟨q.pieces.reverse⟩ else .error .unclosedAlternatives := rfl
  rw [hall]
  constructor
  · intro h
    obtain ⟨q, hread, h⟩ := bind_eq_ok_iff.1 h
    split at h
    next houter =>
      cases h
      exact ⟨q, (hreads q).1 hread, List.isEmpty_iff.1 houter, rfl⟩
    next => cases h
  · rintro ⟨q, hread, houter, rfl⟩
    rw [(hreads q).2 hread]
    change (if q.outer.isEmpty then _ else _) = _
    rw [if_pos (List.isEmpty_iff.2 houter)]

/-! ### What is read outside all braces -/

/-- The pieces outside all braces, the last one first. -/
def bottom : List Piece → List (List (List Piece) × List Piece) → List Piece
  | pieces, [] => pieces
  | _, (_, pieces) :: outer => bottom pieces outer

/-- The pieces outside all braces that have been read. -/
def Progress.outermost (p : Progress) : List Piece :=
  bottom p.pieces p.outer

/-- A piece that only matches something with a slash at its front. -/
inductive Piece.IsSlashed : Piece → Prop
  | literal : IsSlashed (.literal '/')
  | anyRest : IsSlashed .anyRest
  | anyFolders : IsSlashed .anyFolders

/-- Some pieces and a slash stay at the bottom of what has been read, and nothing above them stands
for folders at the front. -/
def Progress.Anchored (base : List Piece) (p : Progress) : Prop :=
  ∃ above slash, p.outermost = above ++ slash :: base ∧ slash.IsSlashed ∧ .anyFront ∉ above

theorem Progress.outermost_of_outer (h : p.outer = []) : p.outermost = p.pieces := by
  rw [outermost, h, bottom]

/-- What reading can do to the pieces outside all braces: adding some, or putting two stars that
stand for folders in the place of the last one. -/
inductive Grows : List Piece → List Piece → Prop
  | add (added pieces : List Piece) (h : .anyFront ∉ added) : Grows pieces (added ++ pieces)
  | replace (last piece : Piece) (pieces : List Piece) (h : piece.IsSlashed) :
      Grows (last :: pieces) (piece :: pieces)

theorem Grows.refl (pieces : List Piece) : Grows pieces pieces :=
  .add [] pieces List.not_mem_nil

/-- Inside braces nothing changes outside of them. -/
theorem Grows.of_outer {pieces added : List Piece} {outer : List (List (List Piece) × List Piece)}
    (h : outer = [] → Grows pieces added) : Grows (bottom pieces outer) (bottom added outer) := by
  cases outer with
  | nil => exact h rfl
  | cons first outer => exact .refl _

theorem Progress.grows_push (p : Progress) {piece : Piece} (h : piece ≠ .anyFront) :
    Grows p.outermost (p.push piece).outermost :=
  .of_outer fun _ => .add [piece] p.pieces (by simpa using h.symm)

theorem Progress.grows_pushFolders (p : Progress) (hne : p.outermost ≠ []) {piece : Piece}
    (h : piece.IsSlashed) : Grows p.outermost (p.pushFolders piece).outermost := by
  obtain ⟨pieces, outer⟩ := p
  rw [pushFolders]
  split
  · exact .refl _
  · exact .refl _
  next last rest _ _ hpieces =>
    subst hpieces
    exact .of_outer fun _ => .replace last piece rest h
  next hpieces =>
    subst hpieces
    refine .of_outer fun houter => ?_
    subst houter
    exact absurd rfl hne

/-- Two stars are two stars, or folders at the front, or they stand for folders. -/
theorem Progress.twoStars_cases (p : Progress) (before next : Option Char) :
    (p.twoStars before next).1 = (p.push .star).push .star ∨
      p.pieces = [] ∧ (p.twoStars before next).1 = p.push .anyFront ∨
      ∃ piece : Piece, piece.IsSlashed ∧ (p.twoStars before next).1 = p.pushFolders piece := by
  unfold twoStars
  dsimp only
  split
  next hempty =>
    split
    · exact Or.inr (Or.inl ⟨List.isEmpty_iff.1 hempty, rfl⟩)
    · split
      · exact Or.inr (Or.inl ⟨List.isEmpty_iff.1 hempty, rfl⟩)
      · exact Or.inl rfl
  next =>
    split
    · exact Or.inl rfl
    · split
      · exact Or.inr (Or.inr ⟨_, .anyRest, rfl⟩)
      · split
        · exact Or.inr (Or.inr ⟨_, .anyRest, rfl⟩)
        · split
          · exact Or.inr (Or.inr ⟨_, .anyFolders, rfl⟩)
          · exact Or.inl rfl

theorem Progress.grows_twoStars (p : Progress) (hne : p.outermost ≠ []) (before next : Option Char) :
    Grows p.outermost (p.twoStars before next).1.outermost := by
  rcases p.twoStars_cases before next with hplain | ⟨hnil, hfront⟩ | ⟨piece, hpiece, hfolders⟩
  · rw [hplain]
    exact .of_outer fun _ => .add [.star, .star] p.pieces (by simp)
  · rw [hfront]
    refine .of_outer fun houter => ?_
    rw [outermost, houter, hnil] at hne
    exact absurd rfl hne
  · rw [hfolders]
    exact p.grows_pushFolders hne hpiece

theorem Progress.grows_close {next : Progress} (h : p.close = .ok next) :
    Grows p.outermost next.outermost := by
  obtain ⟨pieces, outer⟩ := p
  cases outer with
  | nil => cases h
  | cons first outer =>
    cases h
    exact .of_outer fun _ => .add [_] first.2 (by simp)

theorem Progress.grows_comma (p : Progress) : Grows p.outermost p.comma.outermost := by
  obtain ⟨pieces, outer⟩ := p
  cases outer with
  | nil => exact .add [.literal ','] pieces (by simp)
  | cons first outer => exact .refl _

theorem Step.grows (h : Step before p cs behind q rest) (hne : p.outermost ≠ []) :
    Grows p.outermost q.outermost := by
  cases h with
  | any => exact p.grows_push (by simp)
  | star => exact p.grows_push (by simp)
  | twoStars => exact p.grows_twoStars hne before _
  | folders => exact p.grows_twoStars hne before _
  | oneOf => exact p.grows_push (by simp)
  | opens => exact .refl _
  | closes _ _ h => exact Progress.grows_close h
  | comma => exact p.grows_comma
  | escape => exact p.grows_push (by simp)
  | literal => exact p.grows_push (by simp)

theorem Progress.Anchored.of_grows {base : List Piece} (h : p.Anchored base)
    (hgrows : Grows p.outermost q.outermost) : q.Anchored base := by
  obtain ⟨above, slash, hp, hslash, hfront⟩ := h
  generalize hpieces : p.outermost = old at hgrows
  generalize hq : q.outermost = new at hgrows
  rw [hp] at hpieces
  cases hgrows with
  | add added pieces hadded =>
    subst hpieces
    exact ⟨added ++ above, slash, by simp [hq], hslash, by simp [hadded, hfront]⟩
  | replace last piece pieces hpiece =>
    cases above with
    | nil =>
      cases hpieces
      exact ⟨[], piece, hq, hpiece, List.not_mem_nil⟩
    | cons first above =>
      cases hpieces
      refine ⟨piece :: above, slash, hq, hslash, ?_⟩
      cases hpiece <;> simp_all

theorem Progress.Anchored.ne_nil {base : List Piece} (h : p.Anchored base) : p.outermost ≠ [] := by
  obtain ⟨above, slash, hp, -⟩ := h
  simp [hp]

theorem Progress.Anchored.step {base : List Piece} (h : p.Anchored base)
    (hstep : Step before p cs behind q rest) : q.Anchored base :=
  h.of_grows (hstep.grows h.ne_nil)

theorem Progress.Anchored.reads {base : List Piece} (h : p.Anchored base)
    (hreads : Reads before p cs q) : q.Anchored base := by
  induction hreads with
  | done => exact h
  | step hstep _ ih => exact ih (h.step hstep)

/-! ### Plain characters -/

/-- A character that stands for itself in a pattern, or is an error there, outside all braces. -/
def isPlain (c : Char) : Bool :=
  !(c = '?' || c = '*' || c = '[' || c = '\x7b' || c = '\\')

/-- A plain character is read as a literal. -/
theorem Step.of_isPlain (h : Step before p (c :: cs) behind q rest) (hc : isPlain c = true)
    (houter : p.outer = []) : behind = some c ∧ rest = cs ∧ q = p.push (.literal c) := by
  obtain ⟨pieces, outer⟩ := p
  cases houter
  cases h with
  | closes _ _ h => cases h
  | comma => exact ⟨rfl, rfl, rfl⟩
  | literal => exact ⟨rfl, rfl, rfl⟩
  | _ => cases hc

/-- Plain characters at the front are read as literals. -/
theorem Reads.of_isPlain {front : List Char} (h : Reads before p (front ++ cs) q)
    (hfront : ∀ c ∈ front, isPlain c = true) (houter : p.outer = []) :
    ∃ behind, Reads behind { p with pieces := (front.map .literal).reverse ++ p.pieces } cs q := by
  induction front generalizing before p with
  | nil => exact ⟨before, h⟩
  | cons c front ih =>
    cases h with
    | step hstep hrest =>
      obtain ⟨-, rfl, rfl⟩ := hstep.of_isPlain (hfront c List.mem_cons_self) houter
      obtain ⟨behind, hreads⟩ := ih hrest (fun d hd => hfront d (List.mem_cons_of_mem _ hd)) houter
      exact ⟨behind, by simpa [Progress.push] using hreads⟩

/-- What has been read of a pattern behind plain characters and a slash. -/
theorem anchored_of_ofText? {front : List Char} {glob : Glob}
    (h : ofText? (front ++ '/' :: cs) = .ok glob) (hfront : ∀ c ∈ front, isPlain c = true) :
    ∃ (slash : Piece) (above : List Piece), slash.IsSlashed ∧
      glob.pieces = front.map .literal ++ slash :: above := by
  obtain ⟨q, hreads, houter, rfl⟩ := ofText?_eq_ok_iff.1 h
  have hplain : ∀ c ∈ front ++ ['/'], isPlain c = true := by
    simpa [or_imp, forall_and] using ⟨hfront, by decide⟩
  obtain ⟨behind, hrest⟩ := (show Reads none {} ((front ++ ['/']) ++ cs) q by
    simpa using hreads).of_isPlain hplain rfl
  have hanchored : Progress.Anchored (front.map .literal).reverse
      { pieces := ((front ++ ['/']).map .literal).reverse ++ [] } :=
    ⟨[], .literal '/', by simp [Progress.outermost, bottom], .literal, List.not_mem_nil⟩
  obtain ⟨above, slash, hq, hslash, -⟩ := hanchored.reads hrest
  rw [Progress.outermost_of_outer houter] at hq
  exact ⟨slash, above.reverse, hslash, by simp [hq]⟩

/-- A pattern of plain characters consists of literals. -/
theorem pieces_of_isPlain {glob : Glob} (h : ofText? text = .ok glob)
    (hplain : ∀ c ∈ text, isPlain c = true) : glob.pieces = text.map .literal := by
  obtain ⟨q, hreads, -, rfl⟩ := ofText?_eq_ok_iff.1 h
  obtain ⟨behind, hrest⟩ := (show Reads none {} (text ++ []) q by
    simpa using hreads).of_isPlain hplain rfl
  cases hrest with
  | done => simp
  | step hstep => cases hstep

/-! ### A slash and two stars behind a pattern -/

theorem readClass_append {progress : ClassProgress} {ranges : List CharRange}
    (h : readClass progress cs = .ok (ranges, rest)) (tail : List Char) :
    readClass progress (cs ++ tail) = .ok (ranges, rest ++ tail) := by
  induction cs generalizing progress with
  | nil => cases h
  | cons c cs ih =>
    rw [readClass] at h
    rw [List.cons_append, readClass]
    split at h
    next hend =>
      rw [if_pos hend]
      cases h
      rfl
    next hgoes =>
      rw [if_neg hgoes]
      obtain ⟨next, hstep, h⟩ := bind_eq_ok_iff.1 h
      exact bind_eq_ok_iff.2 ⟨next, hstep, ih h⟩

theorem classBody_append (hne : cs ≠ []) (tail : List Char) :
    classBody (cs ++ tail) = ((classBody cs).1, (classBody cs).2 ++ tail) := by
  cases cs with
  | nil => exact absurd rfl hne
  | cons c cs =>
    unfold classBody
    split
    next heq =>
      cases heq
      rfl
    next heq =>
      cases heq
      rfl
    next hmark hhat =>
      split
      next heq =>
        cases heq
        exact absurd rfl (hmark _)
      next heq =>
        cases heq
        exact absurd rfl (hhat _)
      next => rfl

/-- What follows a slash behind a pattern matters only for two stars at its end. -/
theorem Step.append (h : Step before p cs behind q rest) (hend : cs ≠ ['*', '*'])
    (tail : List Char) : Step before p (cs ++ '/' :: tail) behind q (rest ++ '/' :: tail) := by
  cases h with
  | any => exact .any _
  | star _ h =>
    refine .star _ ?_
    cases rest with
    | nil => simp
    | cons c rest => exact h
  | twoStars _ h =>
    cases rest with
    | nil => exact absurd rfl hend
    | cons c rest => exact .twoStars (c :: rest ++ '/' :: tail) h
  | folders cs h =>
    cases cs with
    | nil => exact absurd rfl hend
    | cons c cs => exact .folders (c :: cs ++ '/' :: tail) h
  | oneOf cs _ ranges h =>
    have hne : cs ≠ [] := by
      rintro rfl
      cases h
    have hbody := classBody_append hne ('/' :: tail)
    have := @Step.oneOf before p (cs ++ '/' :: tail) (rest ++ '/' :: tail) ranges
      (by rw [hbody]; exact readClass_append h _)
    rwa [hbody] at this
  | opens => exact .opens _
  | closes _ _ h => exact .closes _ _ h
  | comma => exact .comma _
  | escape => exact .escape _ _
  | literal _ _ h => exact .literal _ _ h

@[simp] theorem Progress.outer_pushFolders (p : Progress) (piece : Piece) :
    (p.pushFolders piece).outer = p.outer := by
  rw [pushFolders]
  split <;> rfl

theorem Progress.outer_twoStars (p : Progress) (before next : Option Char) :
    (p.twoStars before next).1.outer = p.outer := by
  rcases p.twoStars_cases before next with hplain | ⟨-, hfront⟩ | ⟨piece, -, hfolders⟩
  · rw [hplain]
    rfl
  · rw [hfront]
    rfl
  · rw [hfolders, outer_pushFolders]

/-- A slash and two stars, outside all braces, stand for everything below. -/
theorem reads_below (before : Option Char) (houter : p.outer = []) :
    Reads before p "/**".toList { p with pieces := .anyRest :: p.pieces } := by
  obtain ⟨pieces, outer⟩ := p
  cases houter
  exact .step (.literal '/' _ rfl) (.step (.twoStars [] rfl) (.done _ _))

theorem Progress.twoStars_of_ne (hne : p.pieces ≠ []) (houter : p.outer = [])
    (hbefore : before ≠ some '/') (next : Option Char) :
    p.twoStars before next = ((p.push .star).push .star, false) := by
  obtain ⟨pieces, outer⟩ := p
  cases houter
  cases pieces with
  | nil => exact absurd rfl hne
  | cons first rest => simp [twoStars, hbefore]

theorem Progress.twoStars_end (hne : p.pieces ≠ []) :
    p.twoStars (some '/') none = (p.pushFolders .anyRest, false) := by
  simp [twoStars, hne]

theorem Progress.twoStars_slash (hne : p.pieces ≠ []) :
    p.twoStars (some '/') (some '/') = (p.pushFolders .anyFolders, true) := by
  simp [twoStars, hne]

/-- Behind two stars at its end, a pattern goes on with a slash and two stars. -/
theorem exists_reads_stars (hp : p.Anchored []) (houter : p.outer = []) (before : Option Char) :
    ∃ r, Reads before p ("**".toList ++ "/**".toList) r ∧ r.outer = [] ∧
      (r.pieces = .anyRest :: (p.twoStars before none).1.pieces ∨
        r.pieces = (p.twoStars before none).1.pieces ∧ r.pieces.head? = some .anyRest) := by
  obtain ⟨above, slash, habove, hslash, hfront⟩ := hp
  rw [Progress.outermost_of_outer houter] at habove
  obtain ⟨first, rest, hpieces, hfirst⟩ :
      ∃ first rest, p.pieces = first :: rest ∧ first ≠ .anyFront := by
    cases above with
    | nil => exact ⟨slash, [], habove, by cases hslash <;> simp⟩
    | cons first above => exact ⟨first, _, habove, fun h => hfront (h ▸ List.mem_cons_self)⟩
  have hne : p.pieces ≠ [] := by simp [hpieces]
  by_cases hbefore : before = some '/'
  · subst hbefore
    -- two stars behind a slash already stand for everything below, and the second pair adds nothing
    have hfolders : (p.pushFolders .anyFolders).pieces ≠ [] ∧
        ((p.pushFolders .anyFolders).pushFolders .anyRest).pieces = (p.pushFolders .anyRest).pieces ∧
        (p.pushFolders .anyRest).pieces.head? = some .anyRest := by
      cases first with
      | anyFront => exact absurd rfl hfirst
      | _ => simp [Progress.pushFolders, hpieces]
    obtain ⟨hne', hsame, hhead⟩ := hfolders
    have hlast := @Step.twoStars (some '/') (p.pushFolders .anyFolders) []
      (by rw [List.head?_nil, Progress.twoStars_end hne'])
    have hfirst := @Step.folders (some '/') p "/**".toList
      (by simp [Progress.twoStars_slash hne])
    rw [List.head?_nil, Progress.twoStars_end hne'] at hlast
    have hhead' : "/**".toList.head? = some '/' := rfl
    rw [hhead', Progress.twoStars_slash hne] at hfirst
    refine ⟨_, .step hfirst (.step hlast (.done _ _)), ?_, Or.inr ?_⟩
    · simp [houter]
    · rw [Progress.twoStars_end hne, hsame]
      exact ⟨rfl, hhead⟩
  · have hplain := Progress.twoStars_of_ne hne houter hbefore
    have hfirst := @Step.twoStars before p "/**".toList (by rw [hplain])
    refine ⟨_, .step hfirst (reads_below _ ?_), ?_, Or.inl ?_⟩
    · rw [hplain]
      exact houter
    · rw [hplain]
      exact houter
    · rw [hplain, hplain]

/-- A pattern with a slash and two stars behind it: everything below is one more piece, or the
pattern already ends with that. -/
theorem Reads.exists_below (h : Reads before p cs q) (hp : p.Anchored []) (houter : q.outer = []) :
    ∃ r, Reads before p (cs ++ "/**".toList) r ∧ r.outer = [] ∧
      (r.pieces = .anyRest :: q.pieces ∨
        r.pieces = q.pieces ∧ r.pieces.head? = some .anyRest) := by
  induction h with
  | done before p => exact ⟨_, reads_below before houter, houter, Or.inl rfl⟩
  | @step before behind p next q cs rest hstep hrest ih =>
    by_cases hend : cs = ['*', '*']
    · subst hend
      have hnil : rest = [] ∧ next = (p.twoStars before none).1 := by
        cases hstep with
        | star _ h => exact absurd rfl h
        | twoStars => exact ⟨rfl, rfl⟩
        | folders => exact ⟨rfl, rfl⟩
        | literal _ _ h => cases h
      obtain ⟨rfl, rfl⟩ := hnil
      cases hrest with
      | done =>
        exact exists_reads_stars hp ((p.outer_twoStars before none).symm.trans houter) before
      | step hmore => cases hmore
    · obtain ⟨r, hreads, hr⟩ := ih (hp.step hstep) houter
      exact ⟨r, .step (hstep.append hend _) hreads, hr⟩

end ExpectError.Glob
