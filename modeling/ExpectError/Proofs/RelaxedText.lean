import ExpectError.Json.Relaxed
import Mathlib.Data.List.TakeWhile
import Mathlib.Tactic

/-!
# Comments and trailing commas in a text

A text is put together from pieces: string literals, comments and other characters. Both passes
over a text keep track of strings by a zone alone, which is `.code` again behind every piece; so
what a pass does with a text is what it does with its pieces.

* `KeepsStrings`: what the two passes have in common, and that they leave literals as they are;
* `stripComments_textOf`: a comment leaves its line feeds behind, every other piece stays;
* `dropTrailingCommas_textOf`: a comma goes if a closing bracket comes next, any other piece stays.
-/

namespace ExpectError.Json

/-! ### String literals -/

/-- A digit to the base sixteen. -/
def IsHexDigit (c : Char) : Prop :=
  ('0' ≤ c ∧ c ≤ '9') ∨ ('a' ≤ c ∧ c ≤ 'f') ∨ ('A' ≤ c ∧ c ≤ 'F')

/-- One item between the quotes of a string literal. -/
inductive StringItem where
  | raw (c : Char) (h : 0x20 ≤ c.toNat ∧ c ≠ '"' ∧ c ≠ '\\')
  | escape (c : Char) (h : c ∈ ['"', '\\', '/', 'b', 'f', 'n', 'r', 't'])
  | unicode (a b c d : Char) (h : ∀ digit ∈ [a, b, c, d], IsHexDigit digit)

/-- How an item is written. -/
def StringItem.text : StringItem → List Char
  | .raw c _ => [c]
  | .escape c _ => ['\\', c]
  | .unicode a b c d _ => ['\\', 'u', a, b, c, d]

/-- The items of a literal with the closing quote. -/
def closedItems (items : List StringItem) : List Char :=
  items.flatMap StringItem.text ++ ['"']

/-- A string literal. -/
def literal (items : List StringItem) : List Char :=
  '"' :: closedItems items

theorem IsHexDigit.ne_quote {c : Char} (h : IsHexDigit c) : c ≠ '"' ∧ c ≠ '\\' := by
  constructor <;> rintro rfl <;> revert h <;> unfold IsHexDigit <;> decide

/-- A pass over a text that leaves strings as they are. -/
structure KeepsStrings (pass : Zone → List Char → List Char) : Prop where
  opening : ∀ cs, pass .code ('"' :: cs) = '"' :: pass (.string false) cs
  inside : ∀ isEscaped c cs,
    pass (.string isEscaped) (c :: cs) = c :: pass (.inString isEscaped c) cs

theorem inString_of_ne {c : Char} (h : c ≠ '"' ∧ c ≠ '\\') :
    Zone.inString false c = .string false := by
  simp [Zone.inString, h.1, h.2]

theorem keepsStrings_stripFrom : KeepsStrings stripFrom where
  opening cs := by rw [stripFrom, Zone.inCode, if_pos rfl] <;> rintro _ ⟨⟩
  inside isEscaped c cs := by rw [stripFrom]

theorem keepsStrings_dropCommasFrom : KeepsStrings dropCommasFrom where
  opening cs := by
    rw [dropCommasFrom, if_neg (by simp), Zone.inCode, if_pos rfl]
    simp
  inside isEscaped c cs := by rw [dropCommasFrom]

namespace KeepsStrings

variable {pass : Zone → List Char → List Char}

theorem item (h : KeepsStrings pass) (item : StringItem) (cs : List Char) :
    pass (.string false) (item.text ++ cs) = item.text ++ pass (.string false) cs := by
  have hback : Zone.inString false '\\' = .string true := rfl
  have hescaped (c : Char) : Zone.inString true c = .string false := rfl
  cases item with
  | raw c hc => simp [StringItem.text, h.inside, inString_of_ne hc.2]
  | escape c hc => simp [StringItem.text, h.inside, hback, hescaped]
  | unicode a b c d hdigits =>
    have hplain (digit : Char) (hdigit : digit ∈ [a, b, c, d]) :
        Zone.inString false digit = .string false :=
      inString_of_ne (hdigits digit hdigit).ne_quote
    simp [StringItem.text, h.inside, hback, hescaped, hplain]

/-- A pass is outside strings again behind a literal. -/
theorem literal (h : KeepsStrings pass) (items : List StringItem) (cs : List Char) :
    pass .code (literal items ++ cs) = Json.literal items ++ pass .code cs := by
  have hitems : pass (.string false) (closedItems items ++ cs) =
      closedItems items ++ pass .code cs := by
    induction items with
    | nil => exact h.inside false '"' cs
    | cons item items ih =>
      have hsplit : closedItems (item :: items) = item.text ++ closedItems items := by
        simp [closedItems]
      rw [hsplit, List.append_assoc, h.item, ih, List.append_assoc]
  rw [Json.literal, List.cons_append, h.opening, hitems, List.cons_append]

end KeepsStrings

/-! ### Pieces of a text -/

/-- A part of a text that a pass handles by itself. -/
inductive Piece where
  | char (c : Char) (h : c ≠ '"' ∧ c ≠ '/')
  | literal (items : List StringItem)
  | lineComment (body : List Char) (h : '\n' ∉ body)
  | blockComment (body : List Char) (h : ¬ ['*', '/'] <:+: body)

namespace Piece

/-- How a piece is written. -/
def text : Piece → List Char
  | .char c _ => [c]
  | .literal items => Json.literal items
  | .lineComment body _ => '/' :: '/' :: body ++ ['\n']
  | .blockComment body _ => '/' :: '*' :: body ++ ['*', '/']

/-- A line feed outside comments. -/
def lineFeed : Piece :=
  .char '\n' (by decide)

/-- What is left of a piece without comments: the line feeds of a comment, and all of any other
piece. -/
def kept : Piece → List Piece
  | .lineComment _ _ => [lineFeed]
  | .blockComment body _ => (body.filter (· = '\n')).map fun _ => lineFeed
  | piece => [piece]

/-- Is a piece a comment? -/
def IsComment : Piece → Prop
  | .lineComment _ _ | .blockComment _ _ => True
  | .char _ _ | .literal _ => False

/-- Is a piece a comma outside strings and comments? -/
def IsComma : Piece → Prop
  | .char c _ => c = ','
  | _ => False

instance (piece : Piece) : Decidable piece.IsComma := by
  cases piece <;> simp only [IsComma] <;> infer_instance

theorem not_isComment_of_mem_kept {piece other : Piece} (h : other ∈ piece.kept) :
    ¬ other.IsComment := by
  cases piece with
  | char | literal => simp_all [kept, IsComment]
  | lineComment => simp_all [kept, IsComment, lineFeed]
  | blockComment =>
    obtain ⟨_, _, rfl⟩ := List.mem_map.1 h
    exact not_false

end Piece

/-- The text of some pieces. -/
def textOf (pieces : List Piece) : List Char :=
  pieces.flatMap Piece.text

@[simp] theorem textOf_nil : textOf [] = [] := rfl

@[simp] theorem textOf_cons (piece : Piece) (pieces : List Piece) :
    textOf (piece :: pieces) = piece.text ++ textOf pieces := rfl

@[simp] theorem textOf_append (pieces others : List Piece) :
    textOf (pieces ++ others) = textOf pieces ++ textOf others :=
  List.flatMap_append

theorem textOf_map_lineFeed {feeds : List Char} (h : ∀ c ∈ feeds, c = '\n') :
    textOf (feeds.map fun _ => Piece.lineFeed) = feeds := by
  induction feeds with
  | nil => rfl
  | cons c feeds ih =>
    rw [List.forall_mem_cons] at h
    rw [List.map_cons, textOf_cons, ih h.2, h.1]
    rfl

/-- A comment up to the end of a text, or nothing. -/
inductive LastComment where
  | none
  | line (body : List Char) (h : '\n' ∉ body)

/-- How the last comment is written. -/
def LastComment.text : LastComment → List Char
  | .none => []
  | .line body _ => '/' :: '/' :: body

/-! ### Comments -/

theorem stripFrom_code_of_ne {c : Char} (h : c ≠ '"' ∧ c ≠ '/') (cs : List Char) :
    stripFrom .code (c :: cs) = c :: stripFrom .code cs := by
  rw [stripFrom, Zone.inCode, if_neg h.1]
  · rintro _ rfl
    exact absurd rfl h.2
  · rintro _ rfl
    exact absurd rfl h.2

theorem stripFrom_code_line (cs : List Char) :
    stripFrom .code ('/' :: '/' :: cs) = stripFrom .lineComment cs := by
  rw [stripFrom]

theorem stripFrom_code_block (cs : List Char) :
    stripFrom .code ('/' :: '*' :: cs) = stripFrom .blockComment cs := by
  rw [stripFrom]

theorem stripFrom_lineComment_of_not_mem {body : List Char} (h : '\n' ∉ body) (cs : List Char) :
    stripFrom .lineComment (body ++ cs) = stripFrom .lineComment cs := by
  induction body with
  | nil => rfl
  | cons c body ih =>
    rw [List.mem_cons, not_or] at h
    rw [List.cons_append, stripFrom, if_neg (Ne.symm h.1), ih h.2]

/-- A block comment ends at the first place where a star stands in front of a slash. -/
theorem stripFrom_blockComment {body : List Char} (h : ¬ ['*', '/'] <:+: body) (cs : List Char) :
    stripFrom .blockComment (body ++ '*' :: '/' :: cs) =
      body.filter (· = '\n') ++ stripFrom .code cs := by
  induction body with
  | nil => rw [List.nil_append, stripFrom, List.filter_nil, List.nil_append]
  | cons c body ih =>
    have hrest : ¬ ['*', '/'] <:+: body :=
      fun hends => h (hends.trans (List.suffix_cons c body).isInfix)
    have hopen : ∀ rest, c = '*' → body ++ '*' :: '/' :: cs = '/' :: rest → False := by
      rintro rest rfl hbody
      cases body with
      -- behind a star at the end of the body comes the star that closes the comment
      | nil => simp at hbody
      | cons next body =>
        rw [List.cons_append, List.cons.injEq] at hbody
        exact h ⟨[], body, by simp [hbody.1]⟩
    rw [List.cons_append, stripFrom, ih hrest]
    · by_cases hc : c = '\n'
      · simp [hc]
      · simp [hc]
    · exact hopen

theorem stripFrom_piece (piece : Piece) (cs : List Char) :
    stripFrom .code (piece.text ++ cs) = textOf piece.kept ++ stripFrom .code cs := by
  cases piece with
  | char c h => exact stripFrom_code_of_ne h cs
  | literal items =>
    rw [Piece.text, keepsStrings_stripFrom.literal]
    simp [Piece.kept, Piece.text]
  | lineComment body h =>
    have htext : (Piece.lineComment body h).text ++ cs = '/' :: '/' :: (body ++ '\n' :: cs) := by
      simp [Piece.text]
    rw [htext, stripFrom_code_line, stripFrom_lineComment_of_not_mem h, stripFrom, if_pos rfl]
    rfl
  | blockComment body h =>
    have htext : (Piece.blockComment body h).text ++ cs =
        '/' :: '*' :: (body ++ '*' :: '/' :: cs) := by
      simp [Piece.text]
    rw [htext, stripFrom_code_block, stripFrom_blockComment h, Piece.kept, textOf_map_lineFeed]
    intro c hc
    exact of_decide_eq_true (List.mem_filter.1 hc).2

theorem stripFrom_textOf (pieces : List Piece) (cs : List Char) :
    stripFrom .code (textOf pieces ++ cs) =
      textOf (pieces.flatMap Piece.kept) ++ stripFrom .code cs := by
  induction pieces with
  | nil => rfl
  | cons piece pieces ih =>
    rw [textOf_cons, List.append_assoc, stripFrom_piece, ih, List.flatMap_cons, textOf_append,
      List.append_assoc]

theorem stripFrom_last (last : LastComment) : stripFrom .code last.text = [] := by
  cases last with
  | none => rfl
  | line body h =>
    have hend := stripFrom_lineComment_of_not_mem h []
    rw [List.append_nil] at hend
    rw [LastComment.text, stripFrom_code_line, hend, stripFrom]

/-- Without its comments a text is what is left of its pieces. -/
theorem stripComments_textOf (pieces : List Piece) (last : LastComment) :
    stripComments (textOf pieces ++ last.text) = textOf (pieces.flatMap Piece.kept) := by
  rw [stripComments, stripFrom_textOf, stripFrom_last, List.append_nil]

example : stripComments ['/', '*', '/', '"', '\n', '*', '*', '/', '"', '/', '/', '"'] =
    ['\n', '"', '/', '/', '"'] := by decide

/-! ### Commas -/

/-- Is the first character of some pieces that is not blank a closing bracket? -/
def ClosesNext (pieces : List Piece) : Prop :=
  (textOf pieces).find? (fun c => !Text.isBlank c) ∈ [some ']', some '\x7d']

instance (pieces : List Piece) : Decidable (ClosesNext pieces) :=
  inferInstanceAs (Decidable (_ ∈ _))

/-- Some pieces without the commas in front of closing brackets. -/
def withoutTrailing : List Piece → List Piece
  | [] => []
  | piece :: pieces =>
    if piece.IsComma ∧ ClosesNext pieces then withoutTrailing pieces
    else piece :: withoutTrailing pieces

theorem closesNext_textOf (pieces : List Piece) :
    closesNext (textOf pieces) = true ↔ ClosesNext pieces := by
  rw [closesNext, Text.trimLeft, ClosesNext, List.find?_not_eq_head?_dropWhile]
  cases (textOf pieces).dropWhile Text.isBlank with
  | nil => simp
  | cons c cs => simp

theorem dropCommasFrom_comma (cs : List Char) :
    dropCommasFrom .code (',' :: cs) =
      if closesNext cs then dropCommasFrom .code cs else ',' :: dropCommasFrom .code cs := by
  rw [dropCommasFrom]
  · simp [Zone.inCode]
  · rintro _ ⟨⟩

theorem dropCommasFrom_code_of_ne {c : Char} (hquote : c ≠ '"') (hcomma : c ≠ ',')
    (cs : List Char) : dropCommasFrom .code (c :: cs) = c :: dropCommasFrom .code cs := by
  rw [dropCommasFrom, if_neg (by simp [hcomma]), Zone.inCode, if_neg hquote]
  rintro _ ⟨⟩

/-- Without its trailing commas a text with no comments is that of its other pieces. -/
theorem dropTrailingCommas_textOf {pieces : List Piece} (h : ∀ piece ∈ pieces, ¬ piece.IsComment) :
    dropTrailingCommas (textOf pieces) = textOf (withoutTrailing pieces) := by
  rw [dropTrailingCommas]
  induction pieces with
  | nil => rfl
  | cons piece pieces ih =>
    have hrest := ih fun other hother => h other (List.mem_cons_of_mem _ hother)
    rw [textOf_cons, withoutTrailing]
    cases piece with
    | char c hc =>
      by_cases hcomma : c = ','
      · subst hcomma
        rw [Piece.text, List.singleton_append, dropCommasFrom_comma, hrest]
        by_cases hcloses : ClosesNext pieces
        · rw [if_pos ((closesNext_textOf pieces).2 hcloses), if_pos ⟨rfl, hcloses⟩]
        · rw [if_neg (mt (closesNext_textOf pieces).1 hcloses), if_neg (mt And.right hcloses)]
          rfl
      · have hkeep : ¬ ((Piece.char c hc).IsComma ∧ ClosesNext pieces) := mt And.left hcomma
        rw [if_neg hkeep, Piece.text, List.singleton_append,
          dropCommasFrom_code_of_ne hc.1 hcomma, hrest]
        rfl
    | literal items =>
      have hkeep : ¬ ((Piece.literal items).IsComma ∧ ClosesNext pieces) := mt And.left not_false
      rw [if_neg hkeep, Piece.text, keepsStrings_dropCommasFrom.literal, hrest]
      rfl
    | lineComment => exact absurd trivial (h _ List.mem_cons_self)
    | blockComment => exact absurd trivial (h _ List.mem_cons_self)

end ExpectError.Json
