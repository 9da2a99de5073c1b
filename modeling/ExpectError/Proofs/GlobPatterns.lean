import ExpectError.Proofs.EncodedTexts
import ExpectError.Proofs.GlobReading

/-!
# Patterns and the texts that they match

A pattern that begins with plain characters and a slash only matches texts that begin in the same
way, and a pattern with a slash and two stars behind it matches everything below what the pattern
matches.

* `accepts_append`: matching goes on behind the end of a match;
* `exists_append_of_encode`: bytes are matched, and they say the same as characters;
* `front_of_isMatch`, `eq_of_isMatch`, `exists_isMatch_below`: what follows for texts.
-/

namespace ExpectError.Glob

variable {cs text : List Char}

/-! ### Matching -/

variable {next next' : List UInt8 → Bool} {bytes tail : List UInt8}

theorem behindStar_append (hnext : ∀ b, next b = true → next' (b ++ tail) = true)
    (h : behindStar next bytes = true) : behindStar next' (bytes ++ tail) = true := by
  induction bytes with
  | nil =>
    have hb := hnext [] h
    rw [List.nil_append] at hb ⊢
    cases tail with
    | nil => exact hb
    | cons b tail => simp [behindStar, hb]
  | cons b bytes ih =>
    simp only [behindStar, Bool.or_eq_true, Bool.and_eq_true, List.cons_append] at h ⊢
    exact h.imp (hnext (b :: bytes)) fun h => ⟨h.1, ih h.2⟩

theorem behindSlash_append (hnext : ∀ b, next b = true → next' (b ++ tail) = true)
    (h : behindSlash next bytes = true) : behindSlash next' (bytes ++ tail) = true := by
  induction bytes with
  | nil => cases h
  | cons b bytes ih =>
    simp only [behindSlash, Bool.or_eq_true, Bool.and_eq_true, List.cons_append] at h ⊢
    exact h.imp (fun h => ⟨h.1, hnext bytes h.2⟩) ih

theorem behindAny_append (hnext : ∀ b, next b = true → next' (b ++ tail) = true)
    (h : behindAny next bytes = true) : behindAny next' (bytes ++ tail) = true := by
  induction bytes with
  | nil =>
    have hb := hnext [] h
    rw [List.nil_append] at hb ⊢
    cases tail with
    | nil => exact hb
    | cons b tail => simp [behindAny, hb]
  | cons b bytes ih =>
    simp only [behindAny, Bool.or_eq_true, List.cons_append] at h ⊢
    exact h.imp (hnext (b :: bytes)) ih

mutual

/-- If what has to hold behind a match also holds with more bytes behind it, then so does the
match. -/
theorem Piece.accepts_append {next next' : List UInt8 → Bool} {tail : List UInt8}
    (hnext : ∀ b, next b = true → next' (b ++ tail) = true)
    (piece : Piece) (bytes : List UInt8) (h : piece.accepts next bytes = true) :
    piece.accepts next' (bytes ++ tail) = true := by
  match piece, bytes with
  | .literal c, bytes =>
    simp only [Piece.accepts, Bool.and_eq_true, List.isPrefixOf_iff_prefix] at h ⊢
    obtain ⟨⟨rest, rfl⟩, h⟩ := h
    rw [List.drop_left] at h
    refine ⟨⟨rest ++ tail, by simp⟩, ?_⟩
    rw [List.append_assoc, List.drop_left]
    exact hnext rest h
  | .any, b :: bytes =>
    simp only [Piece.accepts, Bool.and_eq_true, List.cons_append] at h ⊢
    exact ⟨h.1, hnext bytes h.2⟩
  | .star, bytes => exact behindStar_append hnext h
  | .anyFront, bytes =>
    simp only [Piece.accepts, Bool.or_eq_true] at h ⊢
    exact h.imp (hnext bytes) (behindSlash_append hnext)
  | .anyRest, b :: bytes =>
    simp only [Piece.accepts, Bool.and_eq_true, List.cons_append] at h ⊢
    exact ⟨h.1, behindAny_append hnext h.2⟩
  | .anyFolders, b :: bytes =>
    simp only [Piece.accepts, Bool.and_eq_true, Bool.or_eq_true, List.cons_append] at h ⊢
    exact ⟨h.1, h.2.imp (hnext bytes) (behindSlash_append hnext)⟩
  | .oneOf negated ranges, b :: bytes =>
    simp only [Piece.accepts, Bool.and_eq_true, List.cons_append] at h ⊢
    exact ⟨h.1, hnext bytes h.2⟩
  | .alternatives [], bytes => exact hnext bytes h
  | .alternatives (branch :: rest), bytes =>
    simp only [Piece.accepts, Bool.or_eq_true] at h ⊢
    exact h.imp (acceptsAll_append hnext branch bytes) (acceptsAny_append hnext rest bytes)

theorem acceptsAll_append {next next' : List UInt8 → Bool} {tail : List UInt8}
    (hnext : ∀ b, next b = true → next' (b ++ tail) = true)
    (pieces : List Piece) (bytes : List UInt8) (h : acceptsAll next pieces bytes = true) :
    acceptsAll next' pieces (bytes ++ tail) = true := by
  match pieces with
  | [] => exact hnext bytes h
  | piece :: rest =>
    have hrest : ∀ b, acceptsAll next rest b = true → acceptsAll next' rest (b ++ tail) = true :=
      fun b => acceptsAll_append hnext rest b
    exact Piece.accepts_append hrest piece bytes h

theorem acceptsAny_append {next next' : List UInt8 → Bool} {tail : List UInt8}
    (hnext : ∀ b, next b = true → next' (b ++ tail) = true)
    (branches : List (List Piece)) (bytes : List UInt8) (h : acceptsAny next branches bytes = true) :
    acceptsAny next' branches (bytes ++ tail) = true := by
  match branches with
  | [] => cases h
  | branch :: rest =>
    simp only [acceptsAny, Bool.or_eq_true] at h ⊢
    exact h.imp (acceptsAll_append hnext branch bytes) (acceptsAny_append hnext rest bytes)

end

/-! ### Texts -/

/-- The bytes of a text. -/
def encode (text : List Char) : List UInt8 :=
  text.flatMap String.utf8EncodeChar

@[simp] theorem encode_nil : encode [] = [] := rfl

@[simp] theorem encode_cons (c : Char) (cs : List Char) :
    encode (c :: cs) = String.utf8EncodeChar c ++ encode cs := rfl

@[simp] theorem encode_append (a b : List Char) : encode (a ++ b) = encode a ++ encode b :=
  List.flatMap_append

theorem encode_slash (rest : List Char) : encode ('/' :: rest) = slash :: encode rest := rfl

theorem bytesOf_eq (c : Char) : bytesOf c = String.utf8EncodeChar c := by
  have := Text.toList_toUTF8_ofList [c]
  rwa [List.flatMap_singleton] at this

theorem bytesOf_slash : bytesOf '/' = [slash] := by
  rw [bytesOf_eq]
  rfl

theorem isMatch_eq (glob : Glob) (text : List Char) :
    glob.isMatch text = glob.matchesBytes (encode text) := by
  rw [isMatch, Text.toList_toUTF8_ofList, encode]

theorem utf8EncodeChar_append_inj {c d : Char} {u v : List UInt8}
    (h : String.utf8EncodeChar c ++ u = String.utf8EncodeChar d ++ v) : c = d ∧ u = v := by
  have hcd : c = d := by
    by_cases hlt : c < d
    · exact absurd (h ▸ Text.utf8EncodeChar_append_lt hlt u v) (List.lt_irrefl _)
    · by_cases hgt : d < c
      · exact absurd (h ▸ Text.utf8EncodeChar_append_lt hgt v u) (List.lt_irrefl _)
      · exact Char.le_antisymm (Char.not_lt.1 hgt) (Char.not_lt.1 hlt)
  subst hcd
  exact ⟨rfl, List.append_cancel_left h⟩

/-- Where the bytes of a text begin with those of another one, so does the text. -/
theorem exists_append_of_encode {front : List Char} {tail : List UInt8}
    (h : encode text = encode front ++ tail) :
    ∃ rest, text = front ++ rest ∧ tail = encode rest := by
  induction front generalizing text with
  | nil => exact ⟨text, rfl, h.symm⟩
  | cons d front ih =>
    cases text with
    | nil =>
      rw [encode_nil, encode_cons, List.append_assoc] at h
      exact absurd (List.append_eq_nil_iff.1 h.symm).1 String.utf8EncodeChar_ne_nil
    | cons c text =>
      rw [encode_cons, encode_cons, List.append_assoc] at h
      obtain ⟨rfl, htext⟩ := utf8EncodeChar_append_inj h
      obtain ⟨rest, rfl, htail⟩ := ih htext
      exact ⟨rest, rfl, htail⟩

theorem encode_injective : Function.Injective encode := by
  intro a b h
  obtain ⟨rest, rfl, hrest⟩ := exists_append_of_encode (h.trans (List.append_nil _).symm)
  cases rest with
  | nil => rw [List.append_nil]
  | cons c rest =>
    rw [encode_cons] at hrest
    exact absurd (List.append_eq_nil_iff.1 hrest.symm).1 String.utf8EncodeChar_ne_nil

theorem matchesBytes_eq {glob : Glob} (h : glob.pieces.head? ≠ some .anyFront)
    (bytes : List UInt8) : glob.matchesBytes bytes = acceptsAll List.isEmpty glob.pieces bytes := by
  rw [matchesBytes]
  split
  next heq => exact absurd (by rw [heq]; rfl) h
  next => rfl

theorem acceptsAll_literals {front : List Char} {pieces : List Piece}
    (h : acceptsAll next (front.map .literal ++ pieces) bytes = true) :
    ∃ tail, bytes = encode front ++ tail ∧ acceptsAll next pieces tail = true := by
  induction front generalizing bytes with
  | nil => exact ⟨bytes, rfl, h⟩
  | cons c front ih =>
    simp only [List.map_cons, List.cons_append, acceptsAll, Piece.accepts, Bool.and_eq_true,
      List.isPrefixOf_iff_prefix, bytesOf_eq] at h
    obtain ⟨⟨rest, rfl⟩, h⟩ := h
    rw [List.drop_left] at h
    obtain ⟨tail, rfl, htail⟩ := ih h
    exact ⟨tail, by simp, htail⟩

theorem Piece.IsSlashed.accepts {piece : Piece} (h : piece.IsSlashed)
    (haccepts : piece.accepts next bytes = true) : ∃ tail, bytes = slash :: tail := by
  cases h with
  | literal =>
    rw [Piece.accepts, bytesOf_slash, Bool.and_eq_true, List.isPrefixOf_iff_prefix] at haccepts
    obtain ⟨⟨tail, htail⟩, -⟩ := haccepts
    exact ⟨tail, htail.symm⟩
  | anyRest =>
    cases bytes with
    | nil => cases haccepts
    | cons b bytes =>
      rw [Piece.accepts, Bool.and_eq_true, decide_eq_true_eq] at haccepts
      exact ⟨bytes, by rw [haccepts.1]⟩
  | anyFolders =>
    cases bytes with
    | nil => cases haccepts
    | cons b bytes =>
      rw [Piece.accepts, Bool.and_eq_true, decide_eq_true_eq] at haccepts
      exact ⟨bytes, by rw [haccepts.1]⟩

/-- A pattern that begins with plain characters and a slash only matches texts that do so, too. -/
theorem front_of_isMatch {front : List Char} {glob : Glob}
    (h : ofText? (front ++ '/' :: cs) = .ok glob) (hfront : ∀ c ∈ front, isPlain c = true)
    (hmatch : glob.isMatch text = true) : ∃ rest, text = front ++ '/' :: rest := by
  obtain ⟨piece, above, hslash, hpieces⟩ := anchored_of_ofText? h hfront
  have hhead : glob.pieces.head? ≠ some .anyFront := by
    rw [hpieces]
    cases front with
    | nil => cases hslash <;> simp
    | cons c front => simp
  rw [isMatch_eq, matchesBytes_eq hhead, hpieces] at hmatch
  obtain ⟨tail, hbytes, htail⟩ := acceptsAll_literals hmatch
  obtain ⟨tail, rfl⟩ := hslash.accepts htail
  have hencode : encode text = encode (front ++ ['/']) ++ tail := by
    rw [hbytes, encode_append, List.append_assoc]
    rfl
  obtain ⟨rest, rfl, -⟩ := exists_append_of_encode hencode
  exact ⟨rest, by simp⟩

/-- A pattern of plain characters only matches itself. -/
theorem eq_of_isMatch {glob : Glob} (h : ofText? cs = .ok glob)
    (hplain : ∀ c ∈ cs, isPlain c = true) (hmatch : glob.isMatch text = true) : text = cs := by
  have hpieces := pieces_of_isPlain h hplain
  have hhead : glob.pieces.head? ≠ some .anyFront := by
    rw [hpieces]
    cases cs <;> simp
  rw [isMatch_eq, matchesBytes_eq hhead, hpieces, ← List.append_nil (cs.map _)] at hmatch
  obtain ⟨tail, hbytes, htail⟩ := acceptsAll_literals hmatch
  rw [List.isEmpty_iff.1 htail, List.append_nil] at hbytes
  exact encode_injective hbytes

/-- What a pattern does to the pattern with a slash and two stars behind it. -/
theorem exists_ofText?_below {glob : Glob} (h : ofText? text = .ok glob)
    (habsolute : text = [] ∨ text.head? = some '/') :
    ∃ below, ofText? (text ++ "/**".toList) = .ok below ∧
      (below.pieces = glob.pieces ++ [.anyRest] ∨
        below.pieces = glob.pieces ∧ below.pieces.getLast? = some .anyRest) ∧
      glob.pieces.head? ≠ some .anyFront := by
  obtain ⟨q, hreads, houter, rfl⟩ := ofText?_eq_ok_iff.1 h
  rcases habsolute with rfl | habsolute
  · cases hreads with
    | done => exact ⟨⟨[.anyRest]⟩, rfl, Or.inl rfl, by simp⟩
    | step hstep => cases hstep
  · obtain ⟨text, rfl⟩ := List.head?_eq_some_iff.1 habsolute
    cases hreads with
    | step hstep hrest =>
      obtain ⟨rfl, rfl, rfl⟩ := hstep.of_isPlain (by decide) rfl
      have hanchored : Progress.Anchored [] (Progress.push {} (.literal '/')) :=
        ⟨[], .literal '/', rfl, .literal, List.not_mem_nil⟩
      obtain ⟨r, hbelow, hr, hpieces⟩ := hrest.exists_below hanchored houter
      refine ⟨⟨r.pieces.reverse⟩, ofText?_eq_ok_iff.2 ⟨r, .step (.literal '/' _ rfl) hbelow, hr, rfl⟩,
        ?_, ?_⟩
      · rcases hpieces with hpieces | ⟨hpieces, hhead⟩
        · exact Or.inl (by simp [hpieces])
        · exact Or.inr ⟨by simp [hpieces], by simp [hhead]⟩
      · obtain ⟨above, slash, hq, hslash, -⟩ := hanchored.reads hrest
        rw [Progress.outermost_of_outer houter] at hq
        rw [hq]
        cases hslash <;> simp

theorem acceptsAll_concat (next : List UInt8 → Bool) (pieces last : List Piece) :
    acceptsAll next (pieces ++ last) = acceptsAll (acceptsAll next last) pieces := by
  induction pieces with
  | nil =>
    funext bytes
    rfl
  | cons piece pieces ih =>
    funext bytes
    rw [List.cons_append, acceptsAll, acceptsAll, ih]

theorem behindAny_isEmpty (bytes : List UInt8) : behindAny List.isEmpty bytes = true := by
  induction bytes with
  | nil => rfl
  | cons b bytes ih => simp [behindAny, ih]

/-- The pattern with a slash and two stars behind it matches everything below what one of the two
patterns matches. -/
theorem exists_isMatch_below {glob : Glob} (h : ofText? text = .ok glob)
    (habsolute : text = [] ∨ text.head? = some '/') :
    ∃ below, ofText? (text ++ "/**".toList) = .ok below ∧
      ∀ folder inside, glob.isMatch folder = true ∨ below.isMatch folder = true →
        below.isMatch (folder ++ '/' :: inside) = true := by
  obtain ⟨below, hbelow, hpieces, hhead⟩ := exists_ofText?_below h habsolute
  refine ⟨below, hbelow, fun folder inside hmatch => ?_⟩
  have hend : ∀ b : List UInt8, b.isEmpty = true →
      acceptsAll List.isEmpty [.anyRest] (b ++ encode ('/' :: inside)) = true := by
    intro b hb
    rw [List.isEmpty_iff.1 hb, List.nil_append, encode_slash]
    simp [acceptsAll, Piece.accepts, behindAny_isEmpty]
  have hmore : ∀ b : List UInt8, acceptsAll List.isEmpty [.anyRest] b = true →
      acceptsAll List.isEmpty [.anyRest] (b ++ encode ('/' :: inside)) = true := by
    intro b hb
    cases b with
    | nil => cases hb
    | cons first b =>
      simp only [acceptsAll, Piece.accepts, Bool.and_eq_true, List.cons_append] at hb ⊢
      exact ⟨hb.1, behindAny_isEmpty _⟩
  -- neither pattern begins with two stars, so both are matched from the first byte on
  have hhead' : below.pieces.head? ≠ some .anyFront := by
    rcases hpieces with hpieces | ⟨hpieces, -⟩
    · rw [hpieces]
      cases hglob : glob.pieces with
      | nil => simp
      | cons first rest => simpa [hglob] using hhead
    · rwa [hpieces]
  rw [isMatch_eq, matchesBytes_eq hhead, isMatch_eq, matchesBytes_eq hhead'] at hmatch
  rw [isMatch_eq, matchesBytes_eq hhead', encode_append]
  -- what is below is matched by the last piece, which stands for everything behind a slash
  have hbelowMatch : ∀ pieces, below.pieces = pieces ++ [.anyRest] →
      acceptsAll List.isEmpty below.pieces (encode folder) = true →
      acceptsAll List.isEmpty below.pieces (encode folder ++ encode ('/' :: inside)) = true := by
    intro pieces hlast hfolder
    rw [hlast, acceptsAll_concat] at hfolder ⊢
    exact acceptsAll_append hmore pieces _ hfolder
  rcases hpieces with hpieces | ⟨hpieces, hlast⟩
  · rcases hmatch with hmatch | hmatch
    · rw [hpieces, acceptsAll_concat]
      exact acceptsAll_append hend glob.pieces _ hmatch
    · exact hbelowMatch _ hpieces hmatch
  · rw [← hpieces, or_self] at hmatch
    obtain ⟨pieces, hpieces⟩ := List.getLast?_eq_some_iff.1 hlast
    exact hbelowMatch pieces hpieces hmatch

end ExpectError.Glob
