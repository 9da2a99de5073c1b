import ExpectError.Proofs.LineEnds
import ExpectError.Proofs.ReportedPositions
import Mathlib.Order.Bounds.Basic

/-!
# Offsets and positions

Offsets count bytes, columns count code units, and both ways from the one to the other are monotone.
A boundary comes back from its position as it was, unless it stands between a carriage return and
its line feed: the content of that line ends in front of both. A position, which may be any two
numbers, means the first boundary in its line that is not in front of the column, or the end of the line's
content if the column is beyond it.

* `lineContent`, `IsColumn`: a line without its terminator, and where it can be cut;
* `exists_columnBytes`: how far into a line a column goes;
* `LineMap.offsetOf?_positionOf`, `LineMap.exists_offsetOf?`: there and back, both ways;
* `LineMap.offsets_and_positions`: the two conversions together.
-/

namespace ExpectError.Text

/-- One position is in front of another: on an earlier line, or on the same line further left. -/
def Position.Before (first last : Position) : Prop :=
  first.line < last.line ∨ first.line = last.line ∧ first.character < last.character

/-- An offset lies between a carriage return and the line feed behind it. -/
def CutsReturn (text : List Char) (n : ℕ) : Prop :=
  ∃ before after, text = before ++ '\r' :: '\n' :: after ∧ n = byteLength before + 1

theorem byteLength_concat_return (before : List Char) :
    byteLength (before ++ ['\r']) = byteLength before + 1 := by
  rw [byteLength_append]
  rfl

theorem cutsReturn_iff {front after : List Char} :
    CutsReturn (front ++ after) (byteLength front) ↔
      (∃ before, front = before ++ ['\r']) ∧ after.head? = some '\n' := by
  constructor
  · rintro ⟨before, rest, htext, hn⟩
    obtain ⟨rfl, rfl⟩ := append_inj_of_byteLength (c := before ++ ['\r']) (d := '\n' :: rest)
      (htext.trans (by simp)) (by rw [hn, byteLength_concat_return])
    exact ⟨⟨before, rfl⟩, rfl⟩
  · rintro ⟨⟨before, rfl⟩, hfeed⟩
    cases after with
    | nil => cases hfeed
    | cons c after =>
      obtain rfl := Option.some_inj.1 hfeed
      exact ⟨before, after, by simp, byteLength_concat_return before⟩

/-- A line does not start between a carriage return and its line feed. -/
theorem CutsReturn.not_mem_lineStarts {text : List Char} {n : ℕ} (h : CutsReturn text n) :
    n ∉ lineStarts text := by
  obtain ⟨before, after, rfl, rfl⟩ := h
  intro hmem
  rcases mem_lineStarts_iff.1 hmem with hzero | ⟨front, c, rest, htext, hn, hc⟩
  · omega
  · obtain ⟨hfront, rfl⟩ := append_inj_of_byteLength (a := before ++ ['\r']) (b := '\n' :: after)
      (c := front ++ [c]) (d := rest) (by simpa using htext)
      (by rw [byteLength_concat_return, hn]; simp)
    obtain rfl : c = '\r' := by
      simpa using (congrArg List.getLast? hfront).symm
    simp at hc

/-! ### Columns of a line -/

/-- A line without its terminator. -/
def lineContent (line : List Char) : List Char :=
  line.takeWhile fun c => !isLineBreak c

/-- There are so many code units in front of some place in the content of a line. -/
def IsColumn (content : List Char) (column : ℕ) : Prop :=
  ∃ front rest, content = front ++ rest ∧ unitLength front = column

/-- The column that is reached for a column that is wanted: the least one of the line that is not
smaller, or the end of the line's content if that is in front of the wanted column. -/
def ReachesColumn (content : List Char) (wanted reached : ℕ) : Prop :=
  (wanted ≤ unitLength content →
      IsLeast {column | IsColumn content column ∧ wanted ≤ column} reached) ∧
    (unitLength content < wanted → reached = unitLength content)

theorem isColumn_zero (content : List Char) : IsColumn content 0 := ⟨[], content, rfl, rfl⟩

theorem isColumn_cons {c : Char} {content : List Char} {column : ℕ} :
    IsColumn (c :: content) column ↔
      column = 0 ∨ ∃ k, IsColumn content k ∧ column = unitSize c + k := by
  constructor
  · rintro ⟨front, rest, htext, rfl⟩
    cases front with
    | nil => exact Or.inl rfl
    | cons d front =>
      obtain ⟨rfl, rfl⟩ := List.cons.inj htext
      exact Or.inr ⟨_, ⟨front, rest, rfl, rfl⟩, rfl⟩
  · rintro (rfl | ⟨_, ⟨front, rest, rfl, rfl⟩, rfl⟩)
    · exact isColumn_zero _
    · exact ⟨c :: front, rest, rfl, rfl⟩

theorem reachesColumn_zero (content : List Char) : ReachesColumn content 0 0 :=
  ⟨fun _ => ⟨⟨isColumn_zero content, le_rfl⟩, fun _ _ => Nat.zero_le _⟩, fun h => by omega⟩

theorem reachesColumn_nil (wanted : ℕ) : ReachesColumn [] wanted 0 := by
  constructor
  · intro h
    obtain rfl : wanted = 0 := Nat.le_zero.1 h
    exact ⟨⟨isColumn_zero [], le_rfl⟩, fun _ _ => Nat.zero_le _⟩
  · intro _
    rfl

theorem ReachesColumn.cons {c : Char} {content : List Char} {wanted reached : ℕ}
    (h : ReachesColumn content (wanted - unitSize c) reached) (hwanted : wanted ≠ 0) :
    ReachesColumn (c :: content) wanted (unitSize c + reached) := by
  have hc := unitSize_pos c
  have hlength : unitLength (c :: content) = unitSize c + unitLength content := rfl
  constructor
  · intro hle
    obtain ⟨⟨hcolumn, hreached⟩, hleast⟩ := h.1 (by omega)
    refine ⟨⟨isColumn_cons.2 (Or.inr ⟨_, hcolumn, rfl⟩), by omega⟩, ?_⟩
    rintro column ⟨hcolumn, hwide⟩
    rcases isColumn_cons.1 hcolumn with rfl | ⟨k, hk, rfl⟩
    · omega
    · have : reached ≤ k := hleast ⟨hk, by omega⟩
      omega
  · intro hlt
    rw [hlength, h.2 (by omega)]

/-- A column goes as far into a line as the column that is reached for it. -/
theorem exists_columnBytes (wanted : ℕ) (line : List Char) :
    ∃ front rest, lineContent line = front ++ rest ∧
      LineMap.columnBytes wanted line = byteLength front ∧
      ReachesColumn (lineContent line) wanted (unitLength front) := by
  induction line generalizing wanted with
  | nil => exact ⟨[], [], rfl, rfl, reachesColumn_nil wanted⟩
  | cons c line ih =>
    rw [LineMap.columnBytes]
    by_cases hbreak : isLineBreak c = true
    · have hcontent : lineContent (c :: line) = [] := by simp [lineContent, hbreak]
      rw [hcontent]
      exact ⟨[], [], rfl, by simp [hbreak], reachesColumn_nil wanted⟩
    · have hcontent : lineContent (c :: line) = c :: lineContent line := by
        simp [lineContent, hbreak]
      rw [hcontent]
      by_cases hzero : wanted = 0
      · subst hzero
        exact ⟨[], c :: lineContent line, rfl, by simp, reachesColumn_zero _⟩
      · obtain ⟨front, rest, hfront, hbytes, hreached⟩ := ih (wanted - unitSize c)
        refine ⟨c :: front, rest, by rw [hfront, List.cons_append], ?_, hreached.cons hzero⟩
        rw [if_neg (by simp [hzero, hbreak]), hbytes, byteLength_cons]

/-- A column beyond the content of a line goes to the end of the content. -/
theorem columnBytes_append_of_isLineBreak {content : List Char}
    (h : ∀ c ∈ content, isLineBreak c = false) {column : ℕ} (hcolumn : unitLength content ≤ column)
    {c : Char} (hc : isLineBreak c = true) (rest : List Char) :
    LineMap.columnBytes column (content ++ c :: rest) = byteLength content := by
  induction content generalizing column with
  | nil => simp [LineMap.columnBytes, hc]
  | cons d content ih =>
    have hd := unitSize_pos d
    rw [unitLength] at hcolumn
    rw [List.cons_append, LineMap.columnBytes, if_neg,
      ih (fun e he => h e (List.mem_cons_of_mem d he)) (by omega), byteLength_cons]
    simp [h d List.mem_cons_self]
    omega

/-- What stands behind a line does not matter for the columns of the line. -/
theorem columnBytes_append_of_exists {line : List Char} (h : ∃ c ∈ line, isLineBreak c = true)
    (column : ℕ) (rest : List Char) :
    LineMap.columnBytes column (line ++ rest) = LineMap.columnBytes column line := by
  induction line generalizing column with
  | nil => simp at h
  | cons c line ih =>
    rw [List.cons_append, LineMap.columnBytes, LineMap.columnBytes]
    by_cases hbreak : isLineBreak c = true
    · simp [hbreak]
    · rw [ih (by simpa [hbreak] using h)]

/-- If no line ends in a stretch of text, then it holds no line break, or just a carriage return at
its end whose line feed stands behind it. -/
theorem exists_content_of_endings_eq_zero {line rest : List Char} (h : endings line rest = 0) :
    (∀ c ∈ line, isLineBreak c = false) ∨
      ∃ content, line = content ++ ['\r'] ∧ (∀ c ∈ content, isLineBreak c = false) ∧
        rest.head? = some '\n' := by
  induction line with
  | nil => simp
  | cons c line ih =>
    rw [endings] at h
    obtain ⟨hend, hline⟩ : endsLine c (line ++ rest) = false ∧ endings line rest = 0 := by
      rw [Nat.add_eq_zero_iff] at h
      exact ⟨by simpa using h.1, h.2⟩
    by_cases hbreak : isLineBreak c = true
    · -- a line break that ends no line is a carriage return in front of a line feed
      obtain ⟨rfl, hfeed⟩ : c = '\r' ∧ (line ++ rest).head? = some '\n' := by
        rw [endsLine, hbreak] at hend
        simpa only [Bool.true_and, Bool.not_eq_false', Bool.and_eq_true, decide_eq_true_iff]
          using hend
      cases line with
      | nil => exact Or.inr ⟨[], rfl, by simp, hfeed⟩
      | cons d line =>
        obtain rfl : d = '\n' := by simpa using hfeed
        simp [endings, endsLine, isLineBreak] at hline
    · rcases ih hline with hplain | ⟨content, rfl, hcontent, hfeed⟩
      · refine Or.inl fun d hd => ?_
        rcases List.mem_cons.1 hd with rfl | hd
        · simpa using hbreak
        · exact hplain d hd
      · refine Or.inr ⟨c :: content, rfl, fun d hd => ?_, hfeed⟩
        rcases List.mem_cons.1 hd with rfl | hd
        · simpa using hbreak
        · exact hcontent d hd

namespace LineMap

/-! ### From a boundary to its position and back -/

/-- The offset of a position in the line that starts behind some beginning of the text. -/
theorem offsetOf?_of_getElem?_starts {text before rest : List Char} {number : ℕ}
    (htext : text = before ++ rest)
    (hstart : (ofText text).starts[number]? = some (byteLength before)) (column : ℕ) :
    (ofText text).offsetOf? ⟨number, column⟩ =
      some (byteLength before + columnBytes column rest) := by
  obtain ⟨hlt, -⟩ := List.getElem?_eq_some_iff.1 hstart
  rw [length_starts] at hlt
  obtain ⟨front, behind, hsplit, hnumber, htext'⟩ :=
    exists_of_getElem?_splitLines (List.getElem?_eq_getElem hlt)
  have hfront := getElem?_starts_of_splitLines hsplit
  rw [hnumber, hstart, Option.some_inj] at hfront
  obtain ⟨rfl, hrest⟩ := append_inj_of_byteLength (htext.symm.trans htext') hfront
  rw [offsetOf?_eq hsplit hnumber, hrest]
  by_cases hlast : behind = []
  · simp [hlast]
  · rw [columnBytes_append_of_exists (exists_isLineBreak_of_splitLines hsplit hlast)]

/-- Between the start of its line and a boundary no line ends. -/
theorem endings_eq_zero_of_lineStartOf {text before line after : List Char}
    (htext : text = before ++ (line ++ after))
    (hstart : byteLength before = (ofText text).lineStartOf (byteLength (before ++ line))) :
    endings line after = 0 := by
  have hmem := (lineStartOf_spec text (byteLength (before ++ line))).1
  rw [← hstart] at hmem
  have hline : (ofText text).lineOf (byteLength before) =
      (ofText text).lineOf (byteLength (before ++ line)) := by
    obtain ⟨number, hnumber⟩ := List.getElem?_of_mem hmem
    rw [← starts_ofText] at hnumber
    exact ((lineStartOf_eq_iff hnumber).1 (lineStartOf_of_mem hmem)).trans
      ((lineStartOf_eq_iff hnumber).1 hstart.symm).symm
  rw [htext, lineOf_append, ← List.append_assoc, lineOf_append, endings_append] at hline
  omega

theorem getElem?_lineOf (text : List Char) (n : ℕ) :
    (ofText text).starts[(ofText text).lineOf n]? = some ((ofText text).lineStartOf n) := by
  obtain ⟨number, hnumber⟩ := List.getElem?_of_mem (lineStartOf_spec text n).1
  rw [← starts_ofText] at hnumber
  rw [(lineStartOf_eq_iff hnumber).1 rfl, hnumber]

/-- A boundary comes back from its position, unless it cuts a carriage return from its line feed:
then the boundary in front of both comes back. -/
theorem offsetOf?_positionOf {text : List Char} {n : ℕ} (h : IsBoundary text n) :
    (¬ CutsReturn text n →
      (ofText text).offsetOf? ((ofText text).positionOf n) = some n) ∧
    (CutsReturn text n →
      (ofText text).offsetOf? ((ofText text).positionOf n) = some (n - 1)) := by
  obtain ⟨before, line, after, htext, hbefore, hn, hposition⟩ := exists_positionOf h
  have hstart := getElem?_lineOf text n
  rw [← hbefore] at hstart
  rw [hposition, offsetOf?_of_getElem?_starts htext hstart]
  have hcuts : CutsReturn text n ↔
      (∃ front, before ++ line = front ++ ['\r']) ∧ after.head? = some '\n' := by
    rw [← hn, htext, ← List.append_assoc]
    exact cutsReturn_iff
  have hzero : endings line after = 0 :=
    endings_eq_zero_of_lineStartOf htext (by rw [hn, hbefore])
  rcases exists_content_of_endings_eq_zero hzero with hplain | ⟨content, rfl, hcontent, hfeed⟩
  · rw [columnBytes_append hplain, ← byteLength_append, hn]
    refine ⟨fun _ => rfl, fun hcut => ?_⟩
    -- the carriage return would have to be in front of the line
    obtain ⟨⟨front, hfront⟩, -⟩ := hcuts.1 hcut
    rcases List.eq_nil_or_concat line with rfl | ⟨init, last, rfl⟩
    · rw [List.append_nil] at hn
      have hmem := List.mem_of_getElem? hstart
      rw [starts_ofText, hn] at hmem
      exact absurd hmem hcut.not_mem_lineStarts
    · obtain rfl : last = '\r' := by
        simpa [List.concat_eq_append, ← List.append_assoc] using congrArg List.getLast? hfront
      have := hplain '\r' (by simp)
      simp [isLineBreak] at this
  · have hcut : CutsReturn text n :=
      hcuts.2 ⟨⟨before ++ content, by rw [List.append_assoc]⟩, hfeed⟩
    refine ⟨fun h => absurd hcut h, fun _ => ?_⟩
    have hcolumn : unitLength content ≤ unitLength (content ++ ['\r']) := by
      rw [unitLength_append]
      exact Nat.le_add_right _ _
    rw [List.append_assoc, List.singleton_append,
      columnBytes_append_of_isLineBreak hcontent hcolumn (by rfl), ← hn, ← List.append_assoc,
      byteLength_concat_return, byteLength_append, Nat.add_sub_cancel]

/-! ### From a position to its offset and back -/

/-- There is no offset for a position beyond the last line. -/
theorem offsetOf?_eq_none_iff (text : List Char) (position : Position) :
    (ofText text).offsetOf? position = none ↔ (splitLines text).length ≤ position.line := by
  rw [← length_starts, ← List.getElem?_eq_none_iff, offsetOf?]
  cases (ofText text).starts[position.line]? <;> simp

/-- The offset of a position in one of the lines is a boundary on that line, at the column that is
reached for the one of the position. -/
theorem exists_offsetOf? {text line : List Char} {position : Position}
    (h : (splitLines text)[position.line]? = some line) :
    ∃ n column, (ofText text).offsetOf? position = some n ∧ IsBoundary text n ∧
      (ofText text).positionOf n = ⟨position.line, column⟩ ∧
      ReachesColumn (lineContent line) position.character column := by
  obtain ⟨front, rest, hfront, hbytes, hreached⟩ := exists_columnBytes position.character line
  have hline : line = front ++ (rest ++ line.dropWhile fun c => !isLineBreak c) := by
    rw [← List.append_assoc, ← hfront, lineContent, List.takeWhile_append_dropWhile]
  have hplain : ∀ c ∈ front, isLineBreak c = false := by
    intro c hc
    have hcontent : c ∈ lineContent line := hfront ▸ List.mem_append_left rest hc
    simpa using List.mem_takeWhile_imp hcontent
  -- the column that is reached is a column of the text, and it has the same offset
  have hinText : Position.InText text ⟨position.line, unitLength front⟩ :=
    ⟨front, _, h.trans (congrArg some hline), hplain, rfl⟩
  obtain ⟨n, hn, hboundary, hposition⟩ := offsetOf?_of_inText hinText
  refine ⟨n, unitLength front, ?_, hboundary, hposition, hreached⟩
  obtain ⟨before, after, hsplit, hnumber, -⟩ := exists_of_getElem?_splitLines h
  have hexact : columnBytes (unitLength front) line = byteLength front := by
    conv_lhs => rw [hline]
    exact columnBytes_append hplain _
  have hreachedOffset := @offsetOf?_eq text line before after
    ⟨position.line, unitLength front⟩ hsplit hnumber
  rw [offsetOf?_eq hsplit hnumber, hbytes, ← hn, hreachedOffset, hexact]

/-! ### Both conversions -/

/-- A character of two code units has four bytes. -/
theorem unitSize_le (c : Char) : unitSize c ≤ c.utf8Size := by
  have hpos := c.utf8Size_pos
  unfold unitSize
  split
  next => exact hpos
  next hwide =>
    have hbytes : ¬ c.utf8Size = 1 := by
      intro h
      have := Char.utf8Size_eq_one_iff.1 h
      rw [UInt32.le_iff_toNat_le] at this
      exact hwide (this.trans_lt (by decide))
    omega

theorem unitLength_le (text : List Char) : unitLength text ≤ byteLength text := by
  induction text with
  | nil => exact le_rfl
  | cons c text ih => exact Nat.add_le_add (unitSize_le c) ih

theorem endings_le (text rest : List Char) : endings text rest ≤ byteLength text := by
  induction text with
  | nil => exact le_rfl
  | cons c text ih =>
    have hc := c.utf8Size_pos
    rw [endings, byteLength_cons]
    split <;> omega

/-- Neither the line nor the column of a boundary is greater than the boundary. -/
theorem positionOf_le {text : List Char} {n : ℕ} (h : IsBoundary text n) :
    ((ofText text).positionOf n).line ≤ n ∧ ((ofText text).positionOf n).character ≤ n := by
  obtain ⟨before, line, after, htext, -, hn, hposition⟩ := exists_positionOf h
  rw [hposition]
  constructor
  · rw [htext, ← List.append_assoc, ← hn, lineOf_append]
    exact endings_le _ _
  · have := unitLength_le line
    rw [byteLength_append] at hn
    exact this.trans (by omega)

/-- In a text whose offsets have 32 bits, the positions of boundaries have 32 bits too and grow with
them; a boundary comes back from its position, except that the one between a carriage return and
its line feed goes back to the one in front of both; and a position has no offset just if the text
has no such line, and else that of the boundary on that line at the column which is reached. -/
theorem offsets_and_positions {text : List Char} (hsize : byteLength text < 2 ^ 32) :
    (∀ m n, IsBoundary text m → IsBoundary text n → m < n →
      ((ofText text).positionOf m).Before ((ofText text).positionOf n)) ∧
    (∀ n, IsBoundary text n →
      ((ofText text).positionOf n).line < 2 ^ 32 ∧
      ((ofText text).positionOf n).character < 2 ^ 32 ∧
      (¬ CutsReturn text n → (ofText text).offsetOf? ((ofText text).positionOf n) = some n) ∧
      (CutsReturn text n →
        (ofText text).offsetOf? ((ofText text).positionOf n) = some (n - 1))) ∧
    ∀ position : Position,
      ((ofText text).offsetOf? position = none ↔ (splitLines text).length ≤ position.line) ∧
      ∀ line, (splitLines text)[position.line]? = some line →
        ∃ n column, (ofText text).offsetOf? position = some n ∧ n < 2 ^ 32 ∧
          IsBoundary text n ∧ (ofText text).positionOf n = ⟨position.line, column⟩ ∧
          ReachesColumn (lineContent line) position.character column := by
  refine ⟨fun m n hm hn hlt => positionOf_lt hm hn hlt, fun n hn => ?_, fun position => ?_⟩
  · obtain ⟨hline, hcolumn⟩ := positionOf_le hn
    have hlt := hn.le.trans_lt hsize
    exact ⟨hline.trans_lt hlt, hcolumn.trans_lt hlt, offsetOf?_positionOf hn⟩
  · refine ⟨offsetOf?_eq_none_iff text position, fun line hline => ?_⟩
    obtain ⟨n, column, hoffset, hboundary, hposition⟩ := exists_offsetOf? hline
    exact ⟨n, column, hoffset, hboundary.le.trans_lt hsize, hboundary, hposition⟩

/-- A line that ends with a carriage return and a line feed, and below it a letter of two code
units: a column between these two goes behind the letter. -/
theorem offsets_and_positions_letter :
    byteLength "a\r\n𝒳b".toList < 2 ^ 32 ∧ CutsReturn "a\r\n𝒳b".toList 2 ∧
      ((ofText "a\r\n𝒳b".toList).positionOf 2).Before ((ofText "a\r\n𝒳b".toList).positionOf 3) ∧
      (ofText "a\r\n𝒳b".toList).offsetOf? ((ofText "a\r\n𝒳b".toList).positionOf 2) = some 1 ∧
      (ofText "a\r\n𝒳b".toList).offsetOf? ((ofText "a\r\n𝒳b".toList).positionOf 3) = some 3 ∧
      (ofText "a\r\n𝒳b".toList).offsetOf? ⟨2, 0⟩ = none ∧
      ∃ n column, (ofText "a\r\n𝒳b".toList).offsetOf? ⟨1, 1⟩ = some n ∧
        (ofText "a\r\n𝒳b".toList).positionOf n = ⟨1, column⟩ ∧
        ReachesColumn ['𝒳', 'b'] 1 column := by
  have hsize : byteLength "a\r\n𝒳b".toList < 2 ^ 32 := by decide
  have hcut : CutsReturn "a\r\n𝒳b".toList 2 := ⟨['a'], ['𝒳', 'b'], by decide, by decide⟩
  have hmiddle : IsBoundary "a\r\n𝒳b".toList 2 :=
    ⟨['a', '\r'], ['\n', '𝒳', 'b'], by decide, by decide⟩
  have hletter : IsBoundary "a\r\n𝒳b".toList 3 :=
    ⟨['a', '\r', '\n'], ['𝒳', 'b'], by decide, by decide⟩
  have hwhole : ¬ CutsReturn "a\r\n𝒳b".toList 3 :=
    fun h => h.not_mem_lineStarts (by decide)
  obtain ⟨hbefore, hback, hany⟩ := offsets_and_positions hsize
  obtain ⟨n, column, hoffset, -, -, hposition, hreached⟩ :=
    (hany ⟨1, 1⟩).2 ['𝒳', 'b'] (by decide)
  exact ⟨hsize, hcut, hbefore 2 3 hmiddle hletter (by decide), (hback 2 hmiddle).2.2.2 hcut,
    (hback 3 hletter).2.2.1 hwhole, (hany ⟨2, 0⟩).1.2 (by decide), n, column, hoffset, hposition,
    hreached⟩

end LineMap

end ExpectError.Text
