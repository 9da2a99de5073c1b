import ExpectError.Proofs.Insertions
import ExpectError.Proofs.Lines
import Mathlib.Data.List.TakeWhile

/-!
# The lines of a text

A line map knows where lines start; the text between two starts is a line together with its
terminator. The lines are found again by going over the text once, which is how it can be said what
becomes of them when words are put between two lines or into one of them.

* `LineMap.lines`: the lines of a text as the line map cuts them;
* `lines_eq_splitLines`: the same by recursion on the text;
* `endings`, `lineOf_append`: the number of a line is the number of lines that end in front of it;
* `splitLines_interleave`: whole lines put in front of lines;
* `LineMap.getElem?_starts`: where a line starts and how it is indented.
-/

namespace ExpectError.Text

/-- Does a character end its line? A carriage return in front of a line feed does not. -/
def endsLine (c : Char) (rest : List Char) : Bool :=
  isLineBreak c && !(c = '\r' && rest.head? = some '\n')

theorem lineStartsFrom_cons (pos : ℕ) (c : Char) (cs : List Char) :
    lineStartsFrom pos (c :: cs) =
      if endsLine c cs then (pos + c.utf8Size) :: lineStartsFrom (pos + c.utf8Size) cs
      else lineStartsFrom (pos + c.utf8Size) cs := rfl

/-- Whether a character ends its line depends on the next one only. -/
theorem endsLine_congr {c : Char} {rest rest' : List Char}
    (h : c = '\r' → (rest.head? = some '\n' ↔ rest'.head? = some '\n')) :
    endsLine c rest = endsLine c rest' := by
  unfold endsLine
  by_cases hc : c = '\r'
  · rw [decide_eq_decide.2 (h hc)]
  · simp [hc]

theorem lt_of_mem_lineStartsFrom {pos n : ℕ} {cs : List Char} (h : n ∈ lineStartsFrom pos cs) :
    pos < n := by
  obtain ⟨m, -, hm, rfl⟩ := exists_of_mem_lineStartsFrom h
  omega

/-- In front of the start of a line there is a line break. -/
theorem isLineBreak_of_mem_lineStartsFrom {pos : ℕ} {before after : List Char} {c : Char}
    (h : pos + byteLength (before ++ [c]) ∈ lineStartsFrom pos (before ++ c :: after)) :
    isLineBreak c = true := by
  induction before generalizing pos with
  | nil =>
    rw [List.nil_append, List.nil_append, byteLength_cons, byteLength_nil, Nat.add_zero,
      lineStartsFrom] at h
    split at h
    next hbreak => exact (Bool.and_eq_true_iff.1 hbreak).1
    next => exact absurd (lt_of_mem_lineStartsFrom h) (lt_irrefl _)
  | cons d before ih =>
    rw [List.cons_append, List.cons_append, byteLength_cons, ← Nat.add_assoc, lineStartsFrom] at h
    split at h
    · rcases List.mem_cons.1 h with heq | h
      · have hc := c.utf8Size_pos
        rw [byteLength_append, byteLength_cons] at heq
        omega
      · exact ih h
    · exact ih h

/-! ### Lines -/

/-- The lines of a text with their terminators, cut where the line map says that lines start. -/
def LineMap.lines (map : LineMap) : List (List Char) :=
  List.zipWith (fun start stop => (slice? start stop map.text).getD []) map.starts
    (map.starts.tail ++ [byteLength map.text])

/-- The lines of a text with their terminators. Behind the last terminator there is one more, which
may be empty. -/
def splitLines : List Char → List (List Char)
  | [] => [[]]
  | c :: cs =>
    if endsLine c cs then [c] :: splitLines cs else (splitLines cs).modifyHead (c :: ·)

theorem splitLines_ne_nil (cs : List Char) : splitLines cs ≠ [] := by
  induction cs with
  | nil => simp [splitLines]
  | cons c cs ih =>
    rw [splitLines]
    split
    · simp
    · simpa using ih

/-- The lines that are found from a place in the middle of a line on: the line that began at `start`
goes on with the first of them. -/
theorem zipWith_slice?_lineStartsFrom (before line cs : List Char) :
    List.zipWith (fun start stop => (slice? start stop (before ++ (line ++ cs))).getD [])
      (byteLength before :: lineStartsFrom (byteLength (before ++ line)) cs)
      (lineStartsFrom (byteLength (before ++ line)) cs ++ [byteLength (before ++ (line ++ cs))]) =
        (splitLines cs).modifyHead (line ++ ·) := by
  induction cs generalizing before line with
  | nil =>
    have hslice := slice?_append before line []
    rw [List.append_nil] at hslice
    simp [lineStartsFrom, splitLines, hslice]
  | cons c cs ih =>
    have hnext : byteLength (before ++ line) + c.utf8Size = byteLength (before ++ (line ++ [c])) := by
      simp [Nat.add_assoc]
    have htext : line ++ c :: cs = line ++ [c] ++ cs := by simp
    rw [lineStartsFrom_cons, splitLines]
    split
    · -- the line ends here, and the next one is still empty
      have hslice := slice?_append before (line ++ [c]) cs
      rw [← byteLength_append] at hslice
      have hrest := ih (before ++ (line ++ [c])) []
      simp only [List.nil_append, List.append_nil, List.append_assoc] at hrest hslice
      rw [hnext, List.cons_append, List.zipWith_cons_cons, htext]
      simp only [List.append_assoc, List.cons_append, List.nil_append] at hrest hslice ⊢
      rw [hrest, hslice]
      cases hsplit : splitLines cs with
      | nil => exact absurd hsplit (splitLines_ne_nil cs)
      | cons first rest => simp
    · have hrest := ih before (line ++ [c])
      rw [hnext, htext, hrest]
      cases hsplit : splitLines cs with
      | nil => exact absurd hsplit (splitLines_ne_nil cs)
      | cons first rest => simp

theorem LineMap.lines_eq_splitLines (text : List Char) :
    (LineMap.ofText text).lines = splitLines text := by
  have h := zipWith_slice?_lineStartsFrom [] [] text
  simp only [List.nil_append, byteLength_nil] at h
  rw [LineMap.lines, LineMap.starts_ofText]
  show List.zipWith _ (0 :: lineStartsFrom 0 text) _ = _
  refine h.trans ?_
  cases hsplit : splitLines text with
  | nil => exact absurd hsplit (splitLines_ne_nil text)
  | cons first rest => simp

/-! ### The number of a line -/

/-- How many lines end in a text that is followed by another. -/
def endings : List Char → List Char → ℕ
  | [], _ => 0
  | c :: cs, rest => (if endsLine c (cs ++ rest) then 1 else 0) + endings cs rest

theorem endings_append (a b rest : List Char) :
    endings (a ++ b) rest = endings a (b ++ rest) + endings b rest := by
  induction a with
  | nil => simp [endings]
  | cons c a ih => simp only [List.cons_append, endings, ih, List.append_assoc, Nat.add_assoc]

theorem endings_eq_zero {a : List Char} (h : ∀ c ∈ a, isLineBreak c = false) (rest : List Char) :
    endings a rest = 0 := by
  induction a with
  | nil => rfl
  | cons c a ih =>
    rw [endings, ih fun d hd => h d (List.mem_cons_of_mem c hd)]
    simp [endsLine, h c List.mem_cons_self]

theorem countP_lineStartsFrom (pos : ℕ) (a b : List Char) :
    (lineStartsFrom pos (a ++ b)).countP (fun start => decide (start ≤ pos + byteLength a)) =
      endings a b := by
  induction a generalizing pos with
  | nil =>
    rw [List.countP_eq_zero.2]
    · rfl
    · intro n hn
      have := lt_of_mem_lineStartsFrom hn
      simpa using this
  | cons c a ih =>
    have hrest := ih (pos + c.utf8Size)
    simp only [byteLength_cons, ← Nat.add_assoc] at hrest ⊢
    rw [List.cons_append, lineStartsFrom_cons, endings]
    split
    · rw [List.countP_cons_of_pos (by simp), hrest, Nat.add_comm]
    · rw [hrest, Nat.zero_add]

/-- The number of the line in which a beginning of a text ends. -/
theorem LineMap.lineOf_append (a b : List Char) :
    (LineMap.ofText (a ++ b)).lineOf (byteLength a) = endings a b := by
  have h := countP_lineStartsFrom 0 a b
  rw [Nat.zero_add] at h
  rw [lineOf_eq_countP, starts_ofText, lineStarts, List.countP_cons_of_pos (by simp), h, Nat.add_sub_cancel]

/-! ### Lines put in front of lines -/

/-- A line with a line feed at its end and something in front of it. -/
structure IsWholeLine (line : List Char) : Prop where
  eq_append : ∃ body, line = body ++ ['\n'] ∧ body ≠ [] ∧ ∀ c ∈ body, isLineBreak c = false

theorem IsWholeLine.head?_ne {line : List Char} (h : IsWholeLine line) (rest : List Char) :
    (line ++ rest).head? ≠ some '\n' := by
  obtain ⟨body, rfl, hne, hbody⟩ := h.eq_append
  obtain ⟨c, cs, rfl⟩ := List.exists_cons_of_ne_nil hne
  have hc := hbody c List.mem_cons_self
  simp only [List.cons_append, List.head?_cons, ne_eq, Option.some.injEq]
  rintro rfl
  simp [isLineBreak] at hc

theorem splitLines_append_of_isLineBreak_eq_false {body : List Char}
    (h : ∀ c ∈ body, isLineBreak c = false) (rest : List Char) :
    splitLines (body ++ rest) = (splitLines rest).modifyHead (body ++ ·) := by
  induction body with
  | nil =>
    cases hsplit : splitLines rest with
    | nil => exact absurd hsplit (splitLines_ne_nil rest)
    | cons first others => simp [hsplit]
  | cons c body ih =>
    have hc : endsLine c (body ++ rest) = false := by simp [endsLine, h c List.mem_cons_self]
    rw [List.cons_append, splitLines, hc, ih fun d hd => h d (List.mem_cons_of_mem c hd)]
    cases hsplit : splitLines rest with
    | nil => exact absurd hsplit (splitLines_ne_nil rest)
    | cons first others => simp

theorem IsWholeLine.splitLines_append {line : List Char} (h : IsWholeLine line)
    (rest : List Char) : splitLines (line ++ rest) = line :: splitLines rest := by
  obtain ⟨body, rfl, -, hbody⟩ := h.eq_append
  have hend : endsLine '\n' rest = true := rfl
  rw [List.append_assoc, splitLines_append_of_isLineBreak_eq_false hbody, List.singleton_append,
    splitLines, if_pos hend]
  simp

theorem splitLines_flatten_append {lines : List (List Char)} (h : ∀ line ∈ lines, IsWholeLine line)
    (rest : List Char) : splitLines (lines.flatten ++ rest) = lines ++ splitLines rest := by
  induction lines with
  | nil => rfl
  | cons line lines ih =>
    rw [List.flatten_cons, List.append_assoc,
      (h line List.mem_cons_self).splitLines_append,
      ih fun other hother => h other (List.mem_cons_of_mem line hother), List.cons_append]

/-- Lines with others in front of each, by the offset at which it starts. -/
def linesBelow (words : ℕ → List (List Char)) (pos : ℕ) : List (List Char) → List (List Char)
  | [] => []
  | line :: lines => words pos ++ line :: linesBelow words (pos + byteLength line) lines

theorem interleave_eq_append_tail (words : ℕ → List Char) (pos : ℕ) (cs : List Char) :
    ∃ tail, Insertion.interleave words pos cs = words pos ++ tail ∧ tail.head? = cs.head? := by
  cases cs with
  | nil => exact ⟨[], by simp [Insertion.interleave], rfl⟩
  | cons c cs => exact ⟨c :: _, rfl, rfl⟩

/-- If whole lines are put in front of the lines of a text and nowhere else, the lines of the text
stay as they are, with the others above them. -/
theorem splitLines_interleave {words : ℕ → List (List Char)} {pos : ℕ} (cs : List Char)
    (hlines : ∀ n, ∀ line ∈ words n, IsWholeLine line)
    (hplaces : ∀ n, pos < n → words n ≠ [] → n ∈ lineStartsFrom pos cs) :
    splitLines (Insertion.interleave (fun n => (words n).flatten) pos cs) =
      linesBelow words pos (splitLines cs) := by
  induction cs generalizing pos with
  | nil =>
    have h := splitLines_flatten_append (hlines pos) []
    rw [List.append_nil] at h
    simp [Insertion.interleave, h, splitLines, linesBelow]
  | cons c cs ih =>
    have hc := c.utf8Size_pos
    obtain ⟨tail, htail, hhead⟩ :=
      interleave_eq_append_tail (fun n => (words n).flatten) (pos + c.utf8Size) cs
    rw [Insertion.interleave, splitLines_flatten_append (hlines pos), splitLines, splitLines]
    rw [lineStartsFrom_cons] at hplaces
    cases hend : endsLine c cs with
    | true =>
      have hrest := @ih (pos + c.utf8Size) fun n hn hne => by
        have := hplaces n (by omega) hne
        rw [hend, if_pos rfl, List.mem_cons] at this
        exact this.resolve_left (by omega)
      -- what is put in front of the next line begins with no line feed
      have hend' : endsLine c (Insertion.interleave (fun n => (words n).flatten)
          (pos + c.utf8Size) cs) = true := by
        rw [← hend]
        refine endsLine_congr fun hcr => ?_
        rw [htail]
        cases hwords : words (pos + c.utf8Size) with
        | nil => simp [hhead]
        | cons line lines =>
          have hline := (hlines _ line (hwords ▸ List.mem_cons_self)).head?_ne
            (lines.flatten ++ tail)
          have hcs : cs.head? ≠ some '\n' := by
            intro h
            simp [endsLine, hcr, h] at hend
          simp only [List.flatten_cons, List.append_assoc, hline, hcs]
      rw [hend', if_pos rfl, if_pos rfl, hrest]
      rfl
    | false =>
      rw [hend] at hplaces
      -- the line goes on, so nothing is put in front of the next character
      have hnone : words (pos + c.utf8Size) = [] := by
        by_contra hne
        exact absurd (lt_of_mem_lineStartsFrom (hplaces _ (by omega) hne)) (by omega)
      have hrest := @ih (pos + c.utf8Size) fun n hn hne => hplaces n (by omega) hne
      have hend' : endsLine c (Insertion.interleave (fun n => (words n).flatten)
          (pos + c.utf8Size) cs) = false := by
        rw [← hend]
        refine endsLine_congr fun _ => ?_
        rw [htail, hnone, List.flatten_nil, List.nil_append, hhead]
      rw [hend', hrest]
      cases hsplit : splitLines cs with
      | nil => exact absurd hsplit (splitLines_ne_nil cs)
      | cons first rest => simp [linesBelow, hnone, Nat.add_assoc]

/-! ### Lines by their numbers -/

/-- The offsets at which lines start that follow one another from `pos` on. -/
def startsOf (pos : ℕ) : List (List Char) → List ℕ
  | [] => []
  | line :: lines => pos :: startsOf (pos + byteLength line) lines

theorem startsOf_modifyHead (pos : ℕ) (c : Char) (lines : List (List Char)) :
    startsOf pos (lines.modifyHead (c :: ·)) =
      match startsOf (pos + c.utf8Size) lines with
      | [] => []
      | _ :: rest => pos :: rest := by
  cases lines with
  | nil => rfl
  | cons line lines => simp [startsOf, Nat.add_assoc]

theorem startsOf_splitLines (pos : ℕ) (cs : List Char) :
    startsOf pos (splitLines cs) = pos :: lineStartsFrom pos cs := by
  induction cs generalizing pos with
  | nil => rfl
  | cons c cs ih =>
    rw [splitLines, lineStartsFrom_cons]
    split
    · simp [startsOf, ih]
    · rw [startsOf_modifyHead, ih]

/-- Lines with others in front of each, by the number of the line. -/
theorem linesBelow_eq_flatMap {words : ℕ → List (List Char)} (pos number : ℕ)
    (lines : List (List Char)) (above : ℕ → List (List Char))
    (h : ∀ i start, (startsOf pos lines)[i]? = some start → words start = above (number + i)) :
    linesBelow words pos lines =
      (lines.zipIdx number).flatMap fun line => above line.2 ++ [line.1] := by
  induction lines generalizing pos number with
  | nil => rfl
  | cons line lines ih =>
    have hfirst : words pos = above number := h 0 pos rfl
    rw [linesBelow, ih (pos + byteLength line) (number + 1), hfirst]
    · simp
    · intro i start hstart
      have := h (i + 1) start (by simpa [startsOf] using hstart)
      rwa [Nat.add_comm i 1, ← Nat.add_assoc] at this

/-! ### A line in its text -/

theorem flatten_splitLines (cs : List Char) : (splitLines cs).flatten = cs := by
  induction cs with
  | nil => rfl
  | cons c cs ih =>
    rw [splitLines]
    split
    · simp [ih]
    · cases hsplit : splitLines cs with
      | nil => exact absurd hsplit (splitLines_ne_nil cs)
      | cons first rest =>
        rw [hsplit] at ih
        simpa using ih

/-- Every line but the last ends with a terminator. -/
theorem exists_isLineBreak_of_splitLines {cs line : List Char} {before after : List (List Char)}
    (h : splitLines cs = before ++ line :: after) (hafter : after ≠ []) :
    ∃ c ∈ line, isLineBreak c = true := by
  induction cs generalizing before line with
  | nil =>
    have hlength := congrArg List.length h
    have := List.length_pos_of_ne_nil hafter
    simp [splitLines] at hlength
    omega
  | cons c cs ih =>
    rw [splitLines] at h
    -- either `c` ends a line of its own, or it goes to the front of the first line of the rest
    split at h
    next hend =>
      cases before with
      | nil =>
        obtain ⟨rfl, -⟩ : [c] = line ∧ splitLines cs = after := by simpa using h
        exact ⟨c, List.mem_cons_self, (Bool.and_eq_true _ _ ▸ hend).1⟩
      | cons first before => exact ih (List.cons.inj h).2
    next =>
      cases hsplit : splitLines cs with
      | nil => exact absurd hsplit (splitLines_ne_nil cs)
      | cons first rest =>
        rw [hsplit, List.modifyHead_cons] at h
        cases before with
        | nil =>
          obtain ⟨rfl, rfl⟩ : c :: first = line ∧ rest = after := by simpa using h
          obtain ⟨d, hd, hbreak⟩ := @ih first [] hsplit
          exact ⟨d, List.mem_cons_of_mem c hd, hbreak⟩
        | cons other before =>
          obtain ⟨-, rfl⟩ := List.cons.inj h
          exact @ih line (first :: before) hsplit

theorem getElem?_startsOf {pos : ℕ} {before after : List (List Char)} {line : List Char} :
    (startsOf pos (before ++ line :: after))[before.length]? =
      some (pos + byteLength before.flatten) := by
  induction before generalizing pos with
  | nil => simp [startsOf]
  | cons first before ih => simp [startsOf, ih, Nat.add_assoc]

/-- Is this one of the characters that indent a line? -/
def isIndent (c : Char) : Bool :=
  c = ' ' || c = '\t'

theorem isIndent_eq_false {c : Char} (h : isLineBreak c = true) : isIndent c = false := by
  by_contra hne
  rw [Bool.not_eq_false, isIndent, Bool.or_eq_true, decide_eq_true_iff, decide_eq_true_iff] at hne
  rcases hne with rfl | rfl <;> simp [isLineBreak] at h

theorem LineMap.isIndent_of_mem_indentationOf {map : LineMap} {offset : ℕ} {c : Char}
    (h : c ∈ map.indentationOf offset) : isIndent c = true := by
  rw [indentationOf] at h
  split at h
  · exact List.mem_takeWhile_imp h
  · cases h

theorem LineMap.isLineBreak_of_mem_indentationOf {map : LineMap} {offset : ℕ} {c : Char}
    (h : c ∈ map.indentationOf offset) : isLineBreak c = false := by
  by_contra hne
  have hindent := isIndent_of_mem_indentationOf h
  rw [isIndent_eq_false (by simpa using hne)] at hindent
  cases hindent

theorem takeWhile_append_of_exists {α : Type} {p : α → Bool} {xs ys : List α}
    (h : ∃ x ∈ xs, p x = false) : (xs ++ ys).takeWhile p = xs.takeWhile p := by
  obtain ⟨x, hx, hp⟩ := h
  rw [List.takeWhile_append, if_neg]
  intro hlength
  have hself := (List.takeWhile_sublist p).eq_of_length hlength
  have hall := List.takeWhile_eq_self_iff.1 hself x hx
  simp [hp] at hall

/-- A line between the lines in front of it and those behind it. -/
theorem exists_of_getElem?_splitLines {text line : List Char} {number : ℕ}
    (h : (splitLines text)[number]? = some line) :
    ∃ before after, splitLines text = before ++ line :: after ∧ before.length = number ∧
      text = before.flatten ++ (line ++ after.flatten) := by
  obtain ⟨hlt, hline⟩ := List.getElem?_eq_some_iff.1 h
  have hsplit : splitLines text =
      (splitLines text).take number ++ line :: (splitLines text).drop (number + 1) := by
    rw [← hline, ← List.drop_eq_getElem_cons hlt, List.take_append_drop]
  refine ⟨_, _, hsplit, ?_, ?_⟩
  · rw [List.length_take]
    omega
  · conv_lhs => rw [← flatten_splitLines text, hsplit]
    simp

/-- The offset at which a line starts is the number of bytes of the lines in front of it. -/
theorem LineMap.getElem?_starts_of_splitLines {text line : List Char}
    {before after : List (List Char)} (h : splitLines text = before ++ line :: after) :
    (LineMap.ofText text).starts[before.length]? = some (byteLength before.flatten) := by
  rw [starts_ofText, lineStarts, ← startsOf_splitLines, h, getElem?_startsOf, Nat.zero_add]

/-- Line number `number` of a text: where it starts, and what its indentation is. -/
theorem LineMap.getElem?_starts {text line : List Char} {number : ℕ}
    (h : (LineMap.ofText text).lines[number]? = some line) :
    ∃ start, (lineStarts text)[number]? = some start ∧
      ∀ offset, (LineMap.ofText text).lineStartOf offset = start →
        (LineMap.ofText text).indentationOf offset = line.takeWhile isIndent := by
  rw [lines_eq_splitLines] at h
  obtain ⟨before, after, hsplit, rfl, htext⟩ := exists_of_getElem?_splitLines h
  have hstart := getElem?_starts_of_splitLines hsplit
  rw [starts_ofText] at hstart
  refine ⟨byteLength before.flatten, hstart, fun offset hoffset => ?_⟩
  have hparts : splitAtByte? (byteLength before.flatten) text =
      some (before.flatten, line ++ after.flatten) := by
    conv_lhs => rw [htext]
    exact splitAtByte?_append _ _
  have hindent : (LineMap.ofText text).indentationOf offset =
      (line ++ after.flatten).takeWhile isIndent := by
    rw [indentationOf, hoffset, show (LineMap.ofText text).text = text from rfl, hparts]
    rfl
  rw [hindent]
  by_cases hlast : after = []
  · simp [hlast]
  · obtain ⟨c, hc, hbreak⟩ := exists_isLineBreak_of_splitLines hsplit hlast
    exact takeWhile_append_of_exists ⟨c, hc, isIndent_eq_false hbreak⟩

/-- An offset is in the line whose start is the start of its line. -/
theorem LineMap.lineStartOf_eq_iff {text : List Char} {number start offset : ℕ}
    (h : (LineMap.ofText text).starts[number]? = some start) :
    (LineMap.ofText text).lineStartOf offset = start ↔
      (LineMap.ofText text).lineOf offset = number := by
  have hlt : (LineMap.ofText text).lineOf offset < (LineMap.ofText text).starts.length := by
    have hcount := List.countP_le_length (l := (LineMap.ofText text).starts)
      (p := fun start => decide (start ≤ offset))
    have hpos : 0 < (LineMap.ofText text).starts.length := by
      rw [starts_ofText]
      exact Nat.succ_pos _
    rw [lineOf_eq_countP]
    omega
  have hnodup : (LineMap.ofText text).starts.Nodup := by
    rw [starts_ofText]
    exact (pairwise_lineStarts text).imp Nat.ne_of_lt
  obtain ⟨hnumber, rfl⟩ := List.getElem?_eq_some_iff.1 h
  rw [lineStartOf, List.getD_eq_getElem?_getD, List.getElem?_eq_getElem hlt, Option.getD_some]
  exact hnodup.getElem_inj_iff

end ExpectError.Text
