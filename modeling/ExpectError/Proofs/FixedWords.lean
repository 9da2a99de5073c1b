import ExpectError.Proofs.WrittenWords
import ExpectError.Shell.Interpreter

/-!
# Words that stand for themselves

Expansion puts values in place of the pieces of a word, splits what is not quoted into fields and
replaces the fields that are patterns by the names of files. In a word whose pieces stand for themselves
there is nothing to be put in place, nothing to be split at, and no pattern. So it is one field, in
every state of a shell, and the shell is not changed.

* `expandPieces_of_isFixed`, `ofItems_of_isFixed`, `expandFiles_of_isFixed`: the steps of expansion;
* `Word.Denotes.expandFields_eq`, `expandCommand_of_isWord`: a word, and the words of a command.
-/

namespace ExpectError.Shell

variable {n : ℕ} {s : State} {word : Word} {piece : Piece} {text : List Char} {words : List Word}
  {texts : List (List Char)} {marked : List Marked} {interpret : Interpreter}

/-- The item of a piece that stands for itself. -/
def Piece.item : Piece → Item
  | .char c quoted => .byte c quoted false
  | _ => .mark

/-- The byte of a piece that stands for itself. Quotes alone have none. -/
def Piece.marked? : Piece → Option Marked
  | .char c quoted => some (c, quoted)
  | _ => none

/-! ### The steps of expansion -/

theorem expandPiece_of_isFixed (h : piece.IsFixed) (n : ℕ) (s : State) :
    expandPiece interpret (n + 1) piece s = ([piece.item], s) := by
  cases piece with
  | char c quoted => simp only [expandPiece, Piece.item]
  | mark => simp only [expandPiece, Piece.item]
  | parameter => cases h
  | command => cases h
  | arithmetic => cases h

theorem expandPieces_of_isFixed (h : ∀ piece ∈ word, piece.IsFixed) (hs : s.leaving = none)
    (hn : word.length < n) :
    expandPieces interpret n word s = (word.map Piece.item, s) := by
  induction word generalizing n with
  | nil =>
    obtain ⟨n, rfl⟩ := Nat.exists_eq_add_one.2 hn
    rw [expandPieces]
    · rfl
    · exact Nat.succ_ne_zero n
  | cons piece word ih =>
    obtain ⟨hpiece, hword⟩ := List.forall_mem_cons.1 h
    rw [List.length_cons] at hn
    obtain ⟨n, rfl⟩ : ∃ m, n = m + 1 + 1 := ⟨n - 2, by omega⟩
    have hrest := @ih (n + 1) hword (by omega)
    simp only [expandPieces, expandPiece_of_isFixed hpiece, hs, Option.isSome_none, hrest]
    rfl

/-- A tilde that stands for a folder is no piece that stands for itself. -/
theorem expandTilde_of_isFixed (h : ∀ piece ∈ word, piece.IsFixed) (s : State) :
    expandTilde s word = word := by
  unfold expandTilde
  split
  next rest =>
    have htilde : Piece.IsFixed (.char '~' false) := h _ List.mem_cons_self
    exact absurd htilde (by simp [Piece.IsFixed, IsPlain])
  next => rfl

/-- Nothing is split, so all bytes come to the field that is not complete. -/
theorem foldl_add_items (separators : Octets) (word : Word) (done : List (List Marked))
    (field : List Marked) :
    (word.map Piece.item).foldl (Fields.add separators) { done, current := some field } =
      { done, current := some ((word.filterMap Piece.marked?).reverse ++ field) } := by
  induction word generalizing field with
  | nil => rfl
  | cons piece word ih =>
    cases piece with
    | char c quoted =>
      have hmarked : (Piece.char c quoted :: word).filterMap Piece.marked? =
          (c, quoted) :: word.filterMap Piece.marked? := rfl
      rw [hmarked, List.reverse_cons, List.append_assoc, List.singleton_append]
      exact ih ((c, quoted) :: field)
    | _ => exact ih field

/-- All bytes of the word are one field. -/
theorem ofItems_of_isFixed (separators : Octets) (hne : word ≠ []) :
    Fields.ofItems separators (word.map Piece.item) = [word.filterMap Piece.marked?] := by
  obtain ⟨piece, word, rfl⟩ := List.exists_cons_of_ne_nil hne
  have hfold : ((piece :: word).map Piece.item).foldl (Fields.add separators) {} =
      (word.map Piece.item).foldl (Fields.add separators)
        { done := [], current := some piece.marked?.toList } := by
    cases piece <;> rfl
  have hmarked : (piece :: word).filterMap Piece.marked? =
      piece.marked?.toList ++ word.filterMap Piece.marked? := by
    cases piece <;> rfl
  have hreverse : piece.marked?.toList.reverse = piece.marked?.toList := by
    cases piece <;> rfl
  rw [Fields.ofItems, hfold, foldl_add_items, hmarked]
  simp [Fields.close, hreverse]

/-- A byte that is quoted, or that has no meaning, stands for itself in a pattern. -/
theorem exists_exactly (h : ∀ mark ∈ marked, mark.2 = true ∨ IsPlain mark.1) (n : ℕ) :
    ∀ item ∈ Pattern.ofMarked n marked, ∃ c, item = .exactly c := by
  -- the bytes that have a meaning in a pattern are not plain
  have hopen {c : Char} {rest : List Marked} (hc : ¬IsPlain c)
      (hrest : ∀ mark ∈ (c, false) :: rest, mark.2 = true ∨ IsPlain mark.1) : False :=
    (hrest _ List.mem_cons_self).elim Bool.false_ne_true hc
  fun_induction Pattern.ofMarked n marked with
  | case1 => simp
  | case2 => simp
  | case3 n c rest ih =>
    exact List.forall_mem_cons.2 ⟨⟨c, rfl⟩, ih (List.forall_mem_cons.1 h).2⟩
  | case4 n rest ih => exact (hopen (by decide) h).elim
  | case5 n rest ih => exact (hopen (by decide) h).elim
  | case6 n c quoted rest ih => exact (hopen (by decide) h).elim
  | case7 n rest set size hset ih => exact (hopen (by decide) h).elim
  | case8 n rest hset ih => exact (hopen (by decide) h).elim
  | case9 n c rest _ _ _ _ ih =>
    exact List.forall_mem_cons.2 ⟨⟨c, rfl⟩, ih (List.forall_mem_cons.1 h).2⟩

theorem expandFiles_of_isFixed (h : ∀ mark ∈ marked, mark.2 = true ∨ IsPlain mark.1) (s : State) :
    expandFiles s marked = [plainText marked] := by
  have hclosed : (Pattern.ofText marked).isOpen = false := by
    rw [Pattern.isOpen, List.any_eq_false]
    intro item hitem
    obtain ⟨c, rfl⟩ := exists_exactly h _ item hitem
    exact Bool.false_ne_true
  rw [expandFiles, hclosed, Bool.not_false, Bool.or_true, if_pos rfl]

/-! ### Words -/

theorem plainText_marked (h : word.literal? = some text) :
    plainText (word.filterMap Piece.marked?) = text := by
  induction word generalizing text with
  | nil => cases h; rfl
  | cons piece word ih =>
    cases piece with
    | char c quoted =>
      obtain ⟨behind, hbehind, rfl⟩ := Option.map_eq_some_iff.1 h
      exact congrArg (c :: ·) (ih hbehind)
    | mark => exact ih h
    | parameter => cases h
    | command => cases h
    | arithmetic => cases h

theorem isPlain_of_mem_marked (h : ∀ piece ∈ word, piece.IsFixed) :
    ∀ mark ∈ word.filterMap Piece.marked?, mark.2 = true ∨ IsPlain mark.1 := by
  intro mark hmark
  obtain ⟨piece, hpiece, hmarked⟩ := List.mem_filterMap.1 hmark
  have hfixed := h piece hpiece
  cases piece with
  | char c quoted => cases hmarked; exact hfixed
  | _ => cases hmarked

theorem Word.Denotes.expandItems_eq (h : word.Denotes text) (hs : s.leaving = none) :
    expandItems interpret word s = (word.map Piece.item, s) := by
  rw [expandItems, expandTilde_of_isFixed h.isFixed]
  exact expandPieces_of_isFixed h.isFixed hs (by rw [maxNesting]; omega)

/-- A word that denotes a text is one field, which is that text, and the shell stays as it is. -/
theorem Word.Denotes.expandFields_eq (h : word.Denotes text) (hne : word ≠ [])
    (hs : s.leaving = none) : expandFields interpret word s = ([text], s) := by
  rw [expandFields, h.expandItems_eq hs]
  dsimp only
  rw [hs, Option.isSome_none, if_neg Bool.false_ne_true, ofItems_of_isFixed _ hne,
    List.flatMap_singleton, expandFiles_of_isFixed (isPlain_of_mem_marked h.isFixed),
    plainText_marked h.literal?_eq]

/-- As one text the word is the same text, empty or not. -/
theorem Word.Denotes.expandText_eq (h : word.Denotes text) (hs : s.leaving = none) :
    expandText interpret word s = (text, s) := by
  have hmarked : Item.marked (word.map Piece.item) = word.filterMap Piece.marked? := by
    rw [Item.marked, List.filterMap_map]
    apply List.filterMap_congr
    intro piece _
    cases piece <;> rfl
  rw [expandText, h.expandItems_eq hs]
  dsimp only
  rw [Item.text, hmarked]
  exact congrArg (·, s) (plainText_marked h.literal?_eq)

/-- A word of a script, with the text that it stands for. -/
structure IsWord (word : Word) (text : List Char) : Prop where
  ne_nil : word ≠ []
  denotes : word.Denotes text

/-! ### Commands -/

/-- Words that stand for themselves are their texts, one field each. -/
theorem expandAll_of_isWord (h : List.Forall₂ IsWord words texts) (hs : s.leaving = none) :
    expandAll interpret words s = (texts, s) := by
  induction h with
  | nil => rfl
  | cons hword _ ih =>
    rw [expandAll, hword.denotes.expandFields_eq hword.ne_nil hs]
    dsimp only
    rw [hs, Option.isSome_none, if_neg Bool.false_ne_true, ih]
    rfl

theorem literal?_append_of_bare? {name : List Char} (h : Word.bare? word = some name)
    (other : Word) : Word.literal? (word ++ other) = (Word.literal? other).map (name ++ ·) := by
  fun_induction Word.bare? word generalizing name with
  | case1 =>
    cases h
    simp
  | case2 c word ih =>
    obtain ⟨behind, hbehind, rfl⟩ := Option.map_eq_some_iff.1 h
    rw [List.cons_append, Word.literal?, ih hbehind, Option.map_map]
    rfl
  | case3 => cases h

theorem Word.exists_name_of_assignment? {name : List Char} {value : Word}
    (h : word.assignment? = some (name, value)) :
    isName name ∧ ∃ front : Word, front.bare? = some name ∧
      word = front ++ .char '=' false :: value := by
  unfold Word.assignment? at h
  dsimp only at h
  split at h
  next hbare hdrop =>
    obtain ⟨hname, heq⟩ := Option.ite_none_right_eq_some.1 h
    obtain ⟨rfl, rfl⟩ := Prod.mk.inj (Option.some.inj heq)
    refine ⟨hname, _, hbare, ?_⟩
    rw [← hdrop, List.takeWhile_append_dropWhile]
  next => cases h

/-- The value of an assignment stands for what is behind the sign. -/
theorem Word.Denotes.assignment? {name : List Char} {value : Word} (h : word.Denotes text)
    (hword : word.assignment? = some (name, value)) :
    isName name ∧ ∃ behind, value.Denotes behind ∧ text = name ++ '=' :: behind := by
  obtain ⟨hname, front, hbare, rfl⟩ := Word.exists_name_of_assignment? hword
  have hliteral := h.literal?_eq
  rw [literal?_append_of_bare? hbare, Word.literal?, Option.map_map,
    Option.map_eq_some_iff] at hliteral
  obtain ⟨behind, hbehind, rfl⟩ := hliteral
  have hfixed : ∀ piece ∈ value, piece.IsFixed := fun piece hpiece =>
    h.isFixed piece (List.mem_append_right _ (List.mem_cons_of_mem _ hpiece))
  exact ⟨hname, behind, ⟨hfixed, hbehind⟩, rfl⟩

/-- An argument that is an assignment is carried out by the same text. -/
theorem expandArgument_of_isWord (h : IsWord word text) (hs : s.leaving = none) :
    expandArgument interpret word s = ([text], s) := by
  unfold expandArgument
  split
  next => exact h.denotes.expandFields_eq h.ne_nil hs
  next name value hassignment =>
    obtain ⟨-, behind, hvalue, rfl⟩ := h.denotes.assignment? hassignment
    rw [hvalue.expandText_eq hs]

theorem expandArguments_of_isWord (h : List.Forall₂ IsWord words texts) (hs : s.leaving = none) :
    expandArguments interpret words s = (texts, s) := by
  induction h with
  | nil => rfl
  | cons hword _ ih =>
    rw [expandArguments, expandArgument_of_isWord hword hs]
    dsimp only
    rw [hs, Option.isSome_none, if_neg Bool.false_ne_true, ih]
    rfl

/-- A command is called by the texts of its words, whatever command it is. -/
theorem expandCommand_of_isWord (h : List.Forall₂ IsWord words texts) (hs : s.leaving = none) :
    expandCommand interpret words s = (texts, s) := by
  cases h with
  | nil => rfl
  | cons hword hrest =>
    rw [expandCommand, hword.denotes.expandFields_eq hword.ne_nil hs]
    dsimp only
    rw [hs, Option.isSome_none, if_neg Bool.false_ne_true, expandArguments_of_isWord hrest hs,
      expandAll_of_isWord hrest hs, ite_self]
    rfl

end ExpectError.Shell
