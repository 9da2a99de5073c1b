import ExpectError.Proofs.ScannerSessions
import ExpectError.Proofs.Trivia
import ExpectError.Text.LineStarts

/-!
# Tokens that are marks

The kind of a mark tells how the token begins: whatever has been done with a scanner, a token of the
kind of a mark starts with that mark. So a `/` that is read anew as a regular expression, and a `}`
that is read anew as the end of a substitution, are one character and one byte, and a reader may step
over them by either. The same holds of an escape between braces, of which the scanner looks for the
closing brace byte by byte.

* `Lexeme.isPrefix_of_kind_read`: a token that has just been read;
* `Scanner.Spelled`, `Session.spelled_run`: a scanner in use;
* `Session.pos_skip_run`: the first character of a mark is one byte;
* `Cursor.identifierEnd_braced`: the end of an escape between braces.
-/

namespace ExpectError

open Text

namespace Lexeme

open Cursor

variable {c : Cursor} {mark : String × TokenKind}

/-- No two marks have one kind. -/
theorem eq_of_mem_marks {other : String × TokenKind} (hmark : mark ∈ marks) (hother : other ∈ marks)
    (h : mark.2 = other.2) : mark = other := by
  have hnodup : (marks.map Prod.snd).Nodup := by decide
  exact List.inj_on_of_nodup_map hnodup hmark hother h

/-- The kinds of tokens that are no marks, apart from keywords. -/
def unmarkedKinds : List TokenKind :=
  [.unknown, .endOfFile, .identifier, .privateIdentifier, .bigIntLiteral, .numericLiteral,
   .stringLiteral, .noSubstitutionTemplateLiteral, .templateHead, .templateMiddle, .templateTail,
   .regularExpressionLiteral, .jsxText, .lessThanSlash]

theorem ne_of_mem_unmarkedKinds (hmark : mark ∈ marks) :
    ∀ kind ∈ unmarkedKinds, kind ≠ mark.2 := by
  have hall : ∀ mark ∈ marks, ∀ kind ∈ unmarkedKinds, kind ≠ mark.2 := by decide +kernel
  exact hall mark hmark

theorem ne_of_mem_keywords (hmark : mark ∈ marks) {word : String × TokenKind}
    (hword : word ∈ TokenKind.keywords) : word.2 ≠ mark.2 := by
  have hall : ∀ mark ∈ marks, ∀ word ∈ TokenKind.keywords, word.2 ≠ mark.2 := by decide +kernel
  exact hall mark hmark word hword

theorem isPrefix_of_kind_readMark (hmark : mark ∈ marks) (h : (readMark c).kind = mark.2) :
    mark.1.toList <+: c.rest := by
  have hno := ne_of_mem_unmarkedKinds hmark
  rw [readMark] at h
  split_ifs at h
  · exact absurd h (hno .endOfFile (by decide))
  · split at h
    next found hfound =>
      obtain rfl := eq_of_mem_marks (List.mem_of_find?_eq_some hfound) hmark h
      have hbegins := List.find?_some hfound
      simp only [beginsWithMark, Bool.and_eq_true] at hbegins
      exact List.isPrefixOf_iff_prefix.1 hbegins.1
    next => exact absurd h (hno .unknown (by decide))

theorem kind_readNumber_ne (hmark : mark ∈ marks) (c : Cursor) : (readNumber c).kind ≠ mark.2 := by
  have hno := ne_of_mem_unmarkedKinds hmark
  rw [readNumber]
  split
  · exact hno .bigIntLiteral (by decide)
  · exact hno .numericLiteral (by decide)

theorem isPrefix_of_kind_readHash (hmark : mark ∈ marks) (h : (readHash c).kind = mark.2) :
    mark.1.toList <+: c.rest := by
  rw [readHash] at h
  split at h
  · split_ifs at h
    · exact absurd h (ne_of_mem_unmarkedKinds hmark .privateIdentifier (by decide))
    · exact isPrefix_of_kind_readMark hmark h
  · exact isPrefix_of_kind_readMark hmark h

/-- A token of the kind of a mark begins with the mark. -/
theorem isPrefix_of_kind_read (hmark : mark ∈ marks) (h : (read c).kind = mark.2) :
    mark.1.toList <+: c.rest := by
  have hno := ne_of_mem_unmarkedKinds hmark
  rw [read] at h
  split at h
  · exact absurd h (hno .endOfFile (by decide))
  · split_ifs at h
    · exact absurd h (kind_readIdentifier_ne (fun word hword => ne_of_mem_keywords hmark hword)
        (hno .unknown (by decide)).symm (hno .identifier (by decide)).symm)
    · exact absurd h (kind_readNumber_ne hmark c)
    · exact absurd h (hno .stringLiteral (by decide))
    · exact absurd h (kind_readTemplateHead_ne
        (hno .noSubstitutionTemplateLiteral (by decide)) (hno .templateHead (by decide)) _)
    · exact absurd h (kind_readNumber_ne hmark c)
    · exact isPrefix_of_kind_readHash hmark h
    · exact isPrefix_of_kind_readMark hmark h

theorem isPrefix_of_kind_readAttributeValue (hmark : mark ∈ marks)
    (h : (readAttributeValue c).kind = mark.2) : mark.1.toList <+: c.rest := by
  rw [readAttributeValue] at h
  split at h
  · split_ifs at h
    · exact absurd h (ne_of_mem_unmarkedKinds hmark .stringLiteral (by decide))
    · exact isPrefix_of_kind_read hmark h
  · exact isPrefix_of_kind_read hmark h

theorem isPrefix_of_kind_readMarkup (hmark : mark ∈ marks) (h : (readMarkup c).kind = mark.2) :
    mark.1.toList <+: c.rest := by
  have hno := ne_of_mem_unmarkedKinds hmark
  have hsame : ∀ other ∈ marks, other.2 = mark.2 → other = mark :=
    fun _ hother => eq_of_mem_marks hother hmark
  rw [readMarkup] at h
  split at h
  · exact absurd h (hno .endOfFile (by decide))
  · exact absurd h (hno .lessThanSlash (by decide))
  next cs _ hrest =>
    obtain rfl := hsame ("<", .lessThan) (by decide) h
    exact ⟨cs, hrest.symm⟩
  next cs hrest =>
    obtain rfl := hsame ("\x7b", .openBrace) (by decide) h
    exact ⟨cs, hrest.symm⟩
  · exact absurd h (hno .jsxText (by decide))

end Lexeme

namespace Scanner

open Lexeme Grammar

/-- A token of the kind of a mark begins with the mark. -/
def Spelled (s : Scanner) : Prop :=
  ∀ mark ∈ marks, s.kind = mark.2 → mark.1.toList <+: s.start.rest

variable {s : Scanner} {session : Session}

theorem spelled_of_mem_unmarkedKinds (kind : TokenKind) (hkind : s.kind = kind)
    (h : kind ∈ unmarkedKinds) : s.Spelled := by
  intro mark hmark hmarked
  exact absurd (hkind.symm.trans hmarked) (ne_of_mem_unmarkedKinds hmark kind h)

theorem spelled_scan (scan : Scan) (s : Scanner) : (scan.apply s).Spelled := by
  intro mark hmark hkind
  cases scan with
  | code => exact isPrefix_of_kind_read hmark hkind
  | attributeValue => exact isPrefix_of_kind_readAttributeValue hmark hkind
  | markup => exact isPrefix_of_kind_readMarkup hmark hkind

theorem Spelled.rescan (h : s.Spelled) (scan : Rescan) : (scan.apply s).Spelled := by
  cases scan with
  | greater =>
    simp only [Rescan.apply, rescanGreater]
    split_ifs
    · split
      next ending kind hending =>
        have hno : ∀ ending ∈ greaterEndings, ∀ mark ∈ marks, ending.2 ≠ mark.2 := by
          decide +kernel
        exact fun mark hmark hkind =>
          absurd hkind (hno _ (List.mem_of_find?_eq_some hending) mark hmark)
      next => exact h
    · exact h
  | slash =>
    simp only [Rescan.apply, rescanSlash]
    split_ifs
    · exact spelled_of_mem_unmarkedKinds .regularExpressionLiteral rfl (by decide)
    · exact h
  | template =>
    simp only [Rescan.apply, rescanTemplate]
    split_ifs
    · intro mark hmark hkind
      have hno := ne_of_mem_unmarkedKinds hmark
      exact absurd hkind (kind_readTemplateSpan_ne (hno .templateTail (by decide))
        (hno .templateMiddle (by decide)) _)
    · exact h
  | markupName =>
    simp only [Rescan.apply, extendMarkupName]
    split_ifs
    · exact h
    · exact spelled_of_mem_unmarkedKinds .identifier rfl (by decide)
    · exact h

/-- The scanner of a session stands on a spelled token, and so do the saved states of it. -/
structure Session.Spelled (session : Session) : Prop where
  scanner : session.scanner.Spelled
  saved : ∀ state ∈ session.saved, state.Spelled

theorem Session.Spelled.step (h : session.Spelled) (use : Use) : (session.step use).Spelled := by
  cases use with
  | scan scan => exact ⟨spelled_scan scan _, h.saved⟩
  | rescan scan => exact ⟨h.scanner.rescan scan, h.saved⟩
  | save =>
    refine ⟨h.scanner, List.forall_mem_append.2 ⟨h.saved, ?_⟩⟩
    simpa using h.scanner
  | restore place =>
    refine ⟨?_, h.saved⟩
    change ((session.saved[place]?).getD session.scanner).Spelled
    cases hplace : session.saved[place]? with
    | none => exact h.scanner
    | some state => exact h.saved state (List.mem_of_getElem? hplace)

theorem Session.Spelled.run (h : session.Spelled) (uses : List Use) :
    (session.run uses).Spelled := by
  induction uses generalizing session with
  | nil => exact h
  | cons use uses ih => exact ih (h.step use)

/-- Whatever is done with a scanner, in whatever order, a token of the kind of a mark begins with the
mark. -/
theorem Session.spelled_run (text : List Char) (uses : List Use) :
    ((Session.ofText text).run uses).scanner.Spelled :=
  (Session.Spelled.run ⟨spelled_of_mem_unmarkedKinds .unknown rfl (by decide),
    by simp [Session.ofText]⟩ uses).scanner

/-- The first character of a token that is a mark is one byte. -/
theorem Session.pos_skip_run {mark : String × TokenKind} (hmark : mark ∈ marks) (text : List Char)
    (uses : List Use) (hkind : ((Session.ofText text).run uses).scanner.kind = mark.2) :
    ((((Session.ofText text).run uses).scanner.start).skip 1).pos =
      ((Session.ofText text).run uses).scanner.start.pos + 1 := by
  have hfirst : ∀ mark ∈ marks, (mark.1.toList.head?.map Char.utf8Size) = some 1 := by decide +kernel
  obtain ⟨behind, hrest⟩ := Session.spelled_run text uses mark hmark hkind
  obtain ⟨c, hc, hsize⟩ := Option.map_eq_some_iff.1 (hfirst mark hmark)
  obtain ⟨cs, hcs⟩ := List.head?_eq_some_iff.1 hc
  generalize ((Session.ofText text).run uses).scanner.start = start at hrest ⊢
  obtain ⟨pos, rest⟩ := start
  rw [hcs, List.cons_append] at hrest
  subst hrest
  simp only [Cursor.skip, hsize]

end Scanner

namespace Cursor

/-! ### Escapes between braces -/

/-- Only a closing brace has the byte of one. -/
theorem brace_mem_utf8EncodeChar (c : Char) : 0x7D ∈ String.utf8EncodeChar c ↔ c = '\x7d' := by
  have hbrace : '\x7d'.val.toNat = 0x7D := rfl
  have hbyte : (0x7D : UInt8).toNat = 0x7D := rfl
  rw [← toNat_val_inj, hbrace]
  have hvalid : c.val.toNat < 0x110000 := by
    have := c.valid
    simp only [UInt32.isValidChar, Nat.isValidChar] at this
    omega
  unfold String.utf8EncodeChar
  generalize c.val.toNat = n at hvalid ⊢
  simp only
  -- the bytes of a longer character are `0x80` and above
  split_ifs <;>
    simp only [List.mem_cons, List.not_mem_nil, or_false, ← UInt8.toNat_inj, UInt8.toNat_ofNat',
      hbyte] <;>
    omega

/-- An escape between braces ends where the first byte of a closing brace is found, or with the
text. -/
theorem identifierEnd_braced (pos : ℕ) (cs : List Char) :
    ∃ n, n = ((utf8Bytes cs).takeWhile (· ≠ 0x7D)).length ∧ ∃ inside behind,
      cs = inside ++ behind ∧ byteLength inside = n ∧
      (behind = [] ∧ identifierEnd .braced pos cs = { pos := pos + n, rest := [] } ∨
        ∃ rest, behind = '\x7d' :: rest ∧
          identifierEnd .braced pos cs = identifierEnd .outside (pos + n + 1) rest) := by
  refine ⟨_, rfl, ?_⟩
  induction cs generalizing pos with
  | nil => exact ⟨[], [], rfl, rfl, Or.inl ⟨rfl, by simp [identifierEnd, utf8Bytes]⟩⟩
  | cons c cs ih =>
    have hbytes : utf8Bytes (c :: cs) = String.utf8EncodeChar c ++ utf8Bytes cs := rfl
    by_cases hc : c = '\x7d'
    · subst hc
      have hnone : ((utf8Bytes ('\x7d' :: cs)).takeWhile (· ≠ 0x7D)).length = 0 := rfl
      refine ⟨[], _, rfl, by rw [hnone]; rfl, Or.inr ⟨cs, rfl, ?_⟩⟩
      rw [hnone, identifierEnd, if_pos rfl]
      rfl
    · have hall : ∀ byte ∈ String.utf8EncodeChar c, decide (byte ≠ 0x7D) = true := by
        intro byte hbyte
        simp only [ne_eq, decide_not, Bool.not_eq_true', decide_eq_false_iff_not]
        rintro rfl
        exact hc ((brace_mem_utf8EncodeChar c).1 hbyte)
      have hlength : ((utf8Bytes (c :: cs)).takeWhile (· ≠ 0x7D)).length =
          c.utf8Size + ((utf8Bytes cs).takeWhile (· ≠ 0x7D)).length := by
        rw [hbytes, List.takeWhile_append_of_pos hall, List.length_append,
          String.length_utf8EncodeChar]
      obtain ⟨inside, behind, hcs, hinside, hend⟩ := ih (pos + c.utf8Size)
      refine ⟨c :: inside, behind, by rw [hcs, List.cons_append], ?_, ?_⟩
      · rw [byteLength_cons, hinside, hlength]
      · rw [identifierEnd, if_neg hc, hlength, ← Nat.add_assoc]
        exact hend

end Cursor

end ExpectError
