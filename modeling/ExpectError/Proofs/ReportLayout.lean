import ExpectError.Proofs.Lines
import ExpectError.Proofs.ReportHeaders
import ExpectError.Proofs.TextFields

/-!
# The layout of a report

How the type checker writes down its diagnostics, line by line, and that reading a report gives back
what was written. A diagnostic takes up a block of lines: its header, more lines of its message, a
blank line and, if it is about a file, the lines of code from its start to its end, each with a row
of marks below it, and another blank line. What follows up to the next header is passed over. The
reader learns where a diagnostic ends from the marks below the last line of code only, so what it
knows behind a line of code and its marks is said once and carried from row to row.

* `Shows`: the rows of code of a stretch of text;
* `Written`: the lines of a diagnostic;
* `Pending.goes_shows`: reading the rows of code finds the end of the stretch;
* `ofReport_written`: reading a report gives back its diagnostics.
-/

namespace ExpectError

/-! ### Lines of a text -/

namespace Text

/-- Lines that end with line feeds are found again. -/
theorem lines_flatMap {texts : List (List Char)} (h : ∀ line ∈ texts, '\n' ∉ line ∧ '\r' ∉ line) :
    lines (texts.flatMap (· ++ ['\n'])) = texts := by
  have hfields : fields '\n' (texts.flatMap (· ++ ['\n'])) = texts ++ [[]] := by
    induction texts with
    | nil => rfl
    | cons line texts ih =>
      obtain ⟨hline, htexts⟩ := List.forall_mem_cons.1 h
      rw [List.flatMap_cons, List.append_assoc, List.singleton_append, fields_append hline.1,
        ih htexts]
      rfl
  have hends : texts.map (dropEnd '\r') = texts := by
    refine List.map_congr_left (g := id) (fun line hline => ?_) |>.trans (List.map_id _)
    rw [dropEnd, if_neg]
    · rfl
    · exact fun hlast => (h line hline).2 (List.mem_of_getLast? hlast)
  simp [lines, hfields, hends]

theorem trimLeft_spaces {c : Char} (h : isBlank c = false) (n : ℕ) (cs : List Char) :
    trimLeft (List.replicate n ' ' ++ c :: cs) = c :: cs := by
  have hspaces : ∀ d ∈ List.replicate n ' ', isBlank d = true := by
    intro d hd
    rw [List.eq_of_mem_replicate hd]
    decide
  rw [trimLeft, List.dropWhile_append_of_pos hspaces, List.dropWhile_cons_of_neg (by simp [h])]

end Text

namespace Reported

open Text

/-! ### The layout -/

/-- A line of code: its number, right-aligned in the gutter, and behind a space the code itself. -/
def IsCodeRow (gutter number : ℕ) (row : List Char) : Prop :=
  ∃ spaces code, row = List.replicate spaces ' ' ++ (Nat.toDigits 10 number ++ code) ∧
    spaces + (Nat.toDigits 10 number).length = gutter ∧ (code = [] ∨ code.head? = some ' ')

/-- A row of marks below a line of code; where nothing is marked, the row may be cut short. -/
structure IsMarkRow (gutter : ℕ) (marks row : List Char) : Prop where
  plain : ∀ c ∈ marks, c = ' ' ∨ c = '~'
  laid : row = List.replicate (gutter + 1) ' ' ++ marks ∨
    '~' ∉ marks ∧ ∃ n, row = List.replicate n ' '

/-- The marks below the last line reach to the end of the stretch. There are none if nothing of this
line belongs to it. -/
def MarksEnd (start stop : Position) (marks : List Char) : Prop :=
  if start = stop ∨ stop.character = 0 then '~' ∉ marks
  else ∃ front, marks = front ++ ['~'] ∧ marks.length = stop.character

/-- A row of dots in the place of lines that are left out. -/
def IsDotsRow (row : List Char) : Prop :=
  ∃ m n, row = List.replicate m ' ' ++ ('.' :: '.' :: '.' :: List.replicate n ' ')

/-- The rows from line `number` of a stretch of text to its end, lines counted from zero. -/
inductive Shows (gutter : ℕ) (start stop : Position) : ℕ → List (List Char) → Prop
  | last {code marks row} : IsCodeRow gutter (stop.line + 1) code → IsMarkRow gutter marks row →
      MarksEnd start stop marks → Shows gutter start stop stop.line [code, row]
  | next {number code marks row rows} : IsCodeRow gutter (number + 1) code →
      IsMarkRow gutter marks row → Shows gutter start stop (number + 1) rows →
      Shows gutter start stop number (code :: row :: rows)
  | leaveOut {number later code marks row dots rows} : IsCodeRow gutter (number + 1) code →
      IsMarkRow gutter marks row → IsDotsRow dots → number + 1 < later →
      Shows gutter start stop later rows →
      Shows gutter start stop number (code :: row :: dots :: rows)

theorem Shows.number_le {gutter number : ℕ} {start stop : Position} {rows : List (List Char)}
    (h : Shows gutter start stop number rows) : number ≤ stop.line := by
  induction h with
  | last => exact le_rfl
  | next _ _ _ ih => omega
  | leaveOut _ _ _ _ _ ih => omega

/-- The lines of a message, as one text. -/
def messageOf (first : List Char) (more : List (List Char)) : String :=
  String.ofList (first ++ more.flatMap ('\n' :: ·))

/-- The lines that a diagnostic takes up in a report. -/
inductive Written : Reported → List (List Char) → Prop
  | general {category code header first more blank further} :
      Title.Spells { category, code := Nat.toDigits 10 code, message := first } header →
      code ≤ Diagnostic.maxOffset →
      (∀ line ∈ more, allBlank line = false) → allBlank blank = true →
      (∀ line ∈ further, ¬ IsHeader line) →
      Written { category, code, message := messageOf first more }
        (header :: (more ++ blank :: further))
  | inFile {file start stop category code header first more blank gutter rows closing further} :
      OnlyReadsAs header file
        { line := Nat.toDigits 10 (start.line + 1)
          column := Nat.toDigits 10 (start.character + 1)
          title := { category, code := Nat.toDigits 10 code, message := first } } →
      start.character + 1 ≤ Diagnostic.maxOffset → code ≤ Diagnostic.maxOffset →
      stop.line + 1 ≤ Diagnostic.maxOffset → start.AtOrBefore stop →
      (∀ line ∈ more, allBlank line = false) → allBlank blank = true →
      Shows gutter start stop start.line rows → allBlank closing = true →
      (∀ line ∈ further, ¬ IsHeader line) →
      Written
        { file := some (String.ofList file), start := some start, stop := some stop, category, code
          message := messageOf first more }
        (header :: (more ++ blank :: (rows ++ closing :: further)))

/-! ### Rows of code -/

theorem isBlank_of_isDigit {c : Char} (h : c.isDigit = true) : isBlank c = false := by
  obtain ⟨hzero, hnine⟩ : 48 ≤ c.toNat ∧ c.toNat ≤ 57 := Char.isDigit_iff_toNat.1 h
  exact isBlank_of_visible (by omega) (by omega)

theorem allBlank_eq_false {c : Char} {row : List Char} (hmem : c ∈ row) (hc : isBlank c = false) :
    allBlank row = false := by
  rw [allBlank, List.all_eq_false]
  exact ⟨c, hmem, by simp [hc]⟩

/-- Digits in front of a space or of nothing. -/
theorem takeWhile_isDigit_append {digits code : List Char} (hdigits : ∀ c ∈ digits, c.isDigit = true)
    (hcode : code = [] ∨ code.head? = some ' ') :
    (digits ++ code).takeWhile Char.isDigit = digits ∧
      (digits ++ code).dropWhile Char.isDigit = code := by
  have hnone : code.takeWhile Char.isDigit = [] ∧ code.dropWhile Char.isDigit = code := by
    rcases hcode with rfl | hcode
    · exact ⟨rfl, rfl⟩
    · obtain ⟨rest, rfl⟩ : ∃ rest, code = ' ' :: rest := by
        cases code with
        | nil => cases hcode
        | cons c rest => cases hcode; exact ⟨rest, rfl⟩
      exact ⟨rfl, rfl⟩
  rw [List.takeWhile_append_of_pos hdigits, List.dropWhile_append_of_pos hdigits, hnone.1, hnone.2,
    List.append_nil]
  exact ⟨rfl, rfl⟩

/-- A number begins with a digit and consists of digits. -/
theorem exists_toDigits (number : ℕ) : ∃ first others, Nat.toDigits 10 number = first :: others ∧
    (∀ c ∈ first :: others, c.isDigit = true) ∧ isBlank first = false := by
  obtain ⟨first, others, heq⟩ :=
    List.exists_cons_of_ne_nil (Nat.toDigits_ne_nil (n := number) (b := 10))
  have hdigits : ∀ c ∈ first :: others, c.isDigit = true := fun c hc =>
    Nat.isDigit_of_mem_toDigits (by decide) (by decide) (heq ▸ hc)
  exact ⟨first, others, heq, hdigits, isBlank_of_isDigit (hdigits first List.mem_cons_self)⟩

/-- A line of code gives the width of the gutter and the number of the line. -/
theorem Pending.snippetLine?_codeRow (p : Pending) {gutter number : ℕ} {row : List Char}
    (h : IsCodeRow gutter number row) (hnumber : number ≤ Diagnostic.maxOffset) :
    p.snippetLine? row =
      some { p with gutter := some gutter, lineNumber := some number, awaitsRow := true } := by
  obtain ⟨spaces, code, rfl, rfl, hcode⟩ := h
  have hvalue := value?_toDigits hnumber
  obtain ⟨first, others, htoDigits, hdigits, hfirst⟩ := exists_toDigits number
  rw [htoDigits] at hvalue ⊢
  have htrim := trimLeft_spaces hfirst spaces (others ++ code)
  rw [← List.cons_append] at htrim
  obtain ⟨htake, hdrop⟩ := takeWhile_isDigit_append hdigits hcode
  have hwidth : byteLength (List.replicate spaces ' ' ++ ((first :: others) ++ code)) -
      byteLength ((first :: others) ++ code) = spaces := by
    rw [byteLength_append, byteLength_replicate_space, Nat.add_sub_cancel]
  have hbehind : (code.isEmpty || code.head? = some ' ') = true := by
    rcases hcode with rfl | hcode
    · rfl
    · simp [hcode]
  simp only [Pending.snippetLine?, htrim, htake, hdrop, hwidth, hvalue, hbehind, List.isEmpty_cons,
    Bool.not_false, Bool.and_self, if_true]

theorem IsCodeRow.allBlank_eq_false {gutter number : ℕ} {row : List Char}
    (h : IsCodeRow gutter number row) : allBlank row = false := by
  obtain ⟨spaces, code, rfl, -, -⟩ := h
  obtain ⟨first, others, htoDigits, -, hfirst⟩ := exists_toDigits number
  exact Reported.allBlank_eq_false (c := first) (by simp [htoDigits]) hfirst

/-! ### Rows of marks and of dots -/

theorem mem_of_mem_rowOf {gutter : ℕ} {row : List Char} {c : Char} (h : c ∈ rowOf gutter row) :
    c ∈ row := by
  rw [rowOf] at h
  cases hsplit : splitAtByte? (gutter + 1) row with
  | none => simp [hsplit] at h
  | some parts =>
    obtain ⟨front, rest⟩ := parts
    obtain ⟨rfl, -⟩ := splitAtByte?_eq_some_iff.1 hsplit
    simp only [hsplit, Option.map_some, Option.getD_some] at h
    exact List.mem_append_right front h

theorem lastTilde?_eq_none {row : List Char} (h : '~' ∉ row) : lastTilde? row = none := by
  have hall : row.reverse.takeWhile (· ≠ '~') = row.reverse := by
    refine List.takeWhile_eq_self_iff.2 fun c hc => ?_
    have hne : c ≠ '~' := by
      rintro rfl
      exact h (List.mem_reverse.1 hc)
    simpa using hne
  rw [lastTilde?]
  simp only [hall, List.length_reverse, if_true]

theorem lastTilde?_append (front : List Char) :
    lastTilde? (front ++ ['~']) = some (front.length + 1) := by
  simp [lastTilde?]

/-- Only the last tilde of a row counts. -/
theorem endOf_congr {start : Option Position} {number : ℕ} {row row' : List Char}
    (h : lastTilde? row = lastTilde? row') : endOf start number row = endOf start number row' := by
  simp only [endOf, h]

/-- What stands in a row of marks behind the gutter. -/
theorem IsMarkRow.rowOf_spec {gutter : ℕ} {marks row : List Char} (h : IsMarkRow gutter marks row) :
    (∀ c ∈ row, c = ' ' ∨ c = '~') ∧ lastTilde? (rowOf gutter row) = lastTilde? marks := by
  obtain ⟨hmarks, rfl | ⟨hnone, n, rfl⟩⟩ := h
  · have hrow : rowOf gutter (List.replicate (gutter + 1) ' ' ++ marks) = marks := by
      have hsplit := splitAtByte?_append (List.replicate (gutter + 1) ' ') marks
      rw [byteLength_replicate_space] at hsplit
      simp [rowOf, hsplit]
    refine ⟨fun c hc => ?_, by rw [hrow]⟩
    rcases List.mem_append.1 hc with hc | hc
    · exact Or.inl (List.eq_of_mem_replicate hc)
    · exact hmarks c hc
  · refine ⟨fun c hc => Or.inl (List.eq_of_mem_replicate hc), ?_⟩
    rw [lastTilde?_eq_none hnone, lastTilde?_eq_none]
    intro hmem
    have := List.eq_of_mem_replicate (mem_of_mem_rowOf hmem)
    simp at this

/-- A row of marks gives an end in the line above it. -/
theorem Pending.snippetLine?_markRow {p : Pending} {gutter number : ℕ} {marks row : List Char}
    (h : IsMarkRow gutter marks row) (hgutter : p.gutter = some gutter)
    (hnumber : p.lineNumber = some number) :
    p.snippetLine? row = some { p with
      awaitsRow := false
      reported := { p.reported with stop := endOf p.reported.start number marks } } := by
  obtain ⟨hrow, htilde⟩ := h.rowOf_spec
  have htrimmed : ∀ c ∈ trimLeft row, c = ' ' ∨ c = '~' := fun c hc =>
    hrow c (List.dropWhile_subset _ hc)
  have hdigits : (trimLeft row).takeWhile Char.isDigit = [] := by
    cases htrim : trimLeft row with
    | nil => rfl
    | cons c rest =>
      have hc : c.isDigit = false := by
        rcases htrimmed c (by simp [htrim]) with rfl | rfl <;> rfl
      simp [hc]
  have hdots : (trimLeft row).take 3 ≠ ['.', '.', '.'] := by
    intro heq
    have hmem : '.' ∈ (trimLeft row).take 3 := by simp [heq]
    rcases htrimmed '.' (List.mem_of_mem_take hmem) with h | h <;> simp at h
  have hall : (rowOf gutter row).all (fun c => c = ' ' || c = '~') = true := by
    rw [List.all_eq_true]
    intro c hc
    simpa using hrow c (mem_of_mem_rowOf hc)
  simp only [Pending.snippetLine?, hdigits, hgutter, hnumber, hall, List.isEmpty_nil, Bool.not_true,
    Bool.false_and, Bool.false_eq_true, if_false, if_neg hdots, if_true, endOf_congr htilde]

theorem Pending.snippetLine?_dotsRow {p : Pending} {row : List Char} (h : IsDotsRow row)
    (hgutter : p.gutter.isSome = true) :
    p.snippetLine? row = some { p with awaitsRow := false } := by
  obtain ⟨m, n, rfl⟩ := h
  obtain ⟨gutter, hgutter⟩ := Option.isSome_iff_exists.1 hgutter
  have htrim := trimLeft_spaces (c := '.') (by decide) m ('.' :: '.' :: List.replicate n ' ')
  have hdigits : ('.' :: '.' :: '.' :: List.replicate n ' ').takeWhile Char.isDigit = [] := rfl
  simp [Pending.snippetLine?, htrim, hdigits, hgutter]

theorem IsDotsRow.allBlank_eq_false {row : List Char} (h : IsDotsRow row) : allBlank row = false := by
  obtain ⟨m, n, rfl⟩ := h
  exact Reported.allBlank_eq_false (c := '.') (by simp) (by decide)

/-- The marks below the last line of code give the end of the stretch. -/
theorem MarksEnd.endOf_eq {start stop : Position} {marks : List Char} (h : MarksEnd start stop marks)
    (hle : start.AtOrBefore stop) : endOf (some start) (stop.line + 1) marks = some stop := by
  obtain ⟨line, character⟩ := stop
  unfold MarksEnd at h
  unfold Position.AtOrBefore at hle
  split_ifs at h with hnothing
  · rw [endOf, lastTilde?_eq_none h]
    by_cases hline : start.line = line
    · -- at column zero of its own line, nothing but the start can end
      have hstart : start = ⟨line, character⟩ := by
        rcases hnothing with heq | hzero
        · exact heq
        · obtain ⟨startLine, startCharacter⟩ := start
          simp only at hline hle hzero
          obtain rfl : startCharacter = character := by omega
          rw [hline]
      simp [hstart]
    · have hzero : character = 0 := by
        rcases hnothing with rfl | hzero
        · exact absurd rfl hline
        · exact hzero
      simp [hline, hzero]
  · obtain ⟨front, rfl, hlength⟩ := h
    rw [List.length_append, List.length_singleton] at hlength
    simp [endOf, lastTilde?_append, hlength]

/-! ### Lines one after another -/

namespace Pending

/-- Reading some lines leads from one diagnostic that is being read to another, whatever follows. -/
def Goes (p : Pending) (lines : List (List Char)) (q : Pending) : Prop :=
  ∀ rest, ofLines (some p) (lines ++ rest) = ofLines (some q) rest

variable {p q r : Pending}

theorem Goes.refl (p : Pending) : p.Goes [] p :=
  fun _ => rfl

theorem Goes.trans {lines lines' : List (List Char)} (hpq : p.Goes lines q) (hqr : q.Goes lines' r) :
    p.Goes (lines ++ lines') r := by
  intro rest
  rw [List.append_assoc, hpq, hqr]

theorem Goes.cons {line : List Char} {lines : List (List Char)} (h : p.step? line = some q)
    (hqr : q.Goes lines r) : p.Goes (line :: lines) r := by
  intro rest
  rw [List.cons_append, ofLines, h]
  exact hqr rest

theorem goes_message (hpart : p.part = .message) {more : List (List Char)}
    (h : ∀ line ∈ more, allBlank line = false) :
    p.Goes more { p with reported :=
      { p.reported with
        message := p.reported.message ++ String.ofList (more.flatMap ('\n' :: ·)) } } := by
  induction more generalizing p with
  | nil =>
    intro rest
    simp
  | cons line more ih =>
    obtain ⟨hline, hmore⟩ := List.forall_mem_cons.1 h
    have hstep : p.step? line = some { p with reported :=
        { p.reported with message := p.reported.message ++ "\n" ++ String.ofList line } } := by
      simp [Pending.step?, hpart, Pending.messageLine, hline]
    refine .cons hstep ?_
    have hrest := ih (p := { p with reported :=
      { p.reported with message := p.reported.message ++ "\n" ++ String.ofList line } }) hpart hmore
    have hmessage : p.reported.message ++ "\n" ++ String.ofList line ++
        String.ofList (more.flatMap ('\n' :: ·)) =
        p.reported.message ++ String.ofList ((line :: more).flatMap ('\n' :: ·)) := by
      refine String.toList_injective ?_
      simp
    simpa only [hmessage] using hrest

/-- A blank line ends the message. -/
theorem step?_blank (hpart : p.part = .message) {line : List Char} (h : allBlank line = true) :
    p.step? line =
      some { p with part := if p.reported.file.isSome then .snippet else .trailer } := by
  simp [Pending.step?, hpart, Pending.messageLine, h]

/-- A blank line ends the lines of code. -/
theorem step?_closing (hpart : p.part = .snippet) (hawaits : p.awaitsRow = false)
    (hgutter : p.gutter.isSome = true) {line : List Char} (h : allBlank line = true) :
    p.step? line = some { p with part := .trailer } := by
  simp [Pending.step?, hpart, hawaits, hgutter, h]

theorem step?_codeRow (hpart : p.part = .snippet) {gutter number : ℕ} {row : List Char}
    (h : IsCodeRow gutter number row) (hnumber : number ≤ Diagnostic.maxOffset) :
    p.step? row =
      some { p with gutter := some gutter, lineNumber := some number, awaitsRow := true } := by
  simp [Pending.step?, hpart, h.allBlank_eq_false, p.snippetLine?_codeRow h hnumber]

theorem step?_markRow (hpart : p.part = .snippet) (hawaits : p.awaitsRow = true)
    {gutter number : ℕ} {marks row : List Char} (h : IsMarkRow gutter marks row)
    (hgutter : p.gutter = some gutter) (hnumber : p.lineNumber = some number) :
    p.step? row = some { p with
      awaitsRow := false
      reported := { p.reported with stop := endOf p.reported.start number marks } } := by
  simp [Pending.step?, hpart, hawaits, snippetLine?_markRow h hgutter hnumber]

theorem step?_dotsRow (hpart : p.part = .snippet) {row : List Char} (h : IsDotsRow row)
    (hgutter : p.gutter.isSome = true) : p.step? row = some { p with awaitsRow := false } := by
  simp [Pending.step?, hpart, h.allBlank_eq_false, snippetLine?_dotsRow h hgutter]

/-- A line of code and the marks below it. -/
theorem goes_codeRow (hpart : p.part = .snippet) {gutter number : ℕ} {code marks row : List Char}
    (hcode : IsCodeRow gutter number code) (hnumber : number ≤ Diagnostic.maxOffset)
    (hmarks : IsMarkRow gutter marks row) :
    p.Goes [code, row] { p with
      gutter := some gutter
      lineNumber := some number
      awaitsRow := false
      reported := { p.reported with stop := endOf p.reported.start number marks } } := by
  have hsecond := step?_markRow
    (p := { p with gutter := some gutter, lineNumber := some number, awaitsRow := true })
    hpart rfl hmarks rfl rfl
  exact .cons (step?_codeRow hpart hcode hnumber) (.cons hsecond (.refl _))

/-- Behind the rows of code, the end of the stretch is known. Which lines the rows before the last
show, and what is marked there, makes no difference. -/
theorem goes_shows {gutter number : ℕ} {start stop : Position} {rows : List (List Char)}
    (h : Shows gutter start stop number rows) (hle : start.AtOrBefore stop)
    (hstop : stop.line + 1 ≤ Diagnostic.maxOffset) (hpart : p.part = .snippet)
    (hstart : p.reported.start = some start) :
    p.Goes rows { p with
      gutter := some gutter
      lineNumber := some (stop.line + 1)
      awaitsRow := false
      reported := { p.reported with stop := some stop } } := by
  induction h generalizing p with
  | last hcode hmarks hend =>
    have hgoes := goes_codeRow hpart hcode hstop hmarks
    rw [hstart, hend.endOf_eq hle] at hgoes
    exact hgoes
  | next hcode hmarks hrest ih =>
    have hnumber := hrest.number_le
    exact (goes_codeRow hpart hcode (by omega) hmarks).trans (ih hpart hstart)
  | leaveOut hcode hmarks hdots hlt hrest ih =>
    have hnumber := hrest.number_le
    have hgoes := goes_codeRow hpart hcode (by omega) hmarks
    exact hgoes.trans (.cons (step?_dotsRow (by exact hpart) hdots rfl) (ih hpart hstart))

/-- Lines that are no headers are passed over behind the lines of code. -/
theorem goes_further (hpart : p.part = .trailer) {further : List (List Char)}
    (h : ∀ line ∈ further, ¬ IsHeader line) : p.Goes further p := by
  induction further with
  | nil => exact .refl p
  | cons line further ih =>
    obtain ⟨hline, hfurther⟩ := List.forall_mem_cons.1 h
    intro rest
    have hstep : p.step? line = none := by simp [Pending.step?, hpart]
    have hsame : { p with part := .trailer } = p := by
      rw [← hpart]
    rw [List.cons_append, ofLines, hstep, ofHeader?_eq_none hline]
    simp only [hsame]
    exact ih hfurther rest

variable {reported : Reported} {more further : List (List Char)} {blank closing : List Char}

/-- Below the header of a diagnostic about no file. -/
theorem goes_general (hfile : reported.file = none) (hmore : ∀ line ∈ more, allBlank line = false)
    (hblank : allBlank blank = true) (hfurther : ∀ line ∈ further, ¬ IsHeader line) :
    Goes { reported } (more ++ blank :: further)
      { reported := { reported with
          message := reported.message ++ String.ofList (more.flatMap ('\n' :: ·)) }
        part := .trailer } := by
  have hmessage := goes_message (p := { reported }) rfl hmore
  refine hmessage.trans (.cons (step?_blank rfl hblank) ?_)
  simp only [hfile]
  exact goes_further rfl hfurther

/-- Below the header of a diagnostic in a file. -/
theorem goes_inFile {gutter : ℕ} {start stop : Position} {rows : List (List Char)}
    (hfile : reported.file.isSome = true) (hstart : reported.start = some start)
    (hmore : ∀ line ∈ more, allBlank line = false) (hblank : allBlank blank = true)
    (hshows : Shows gutter start stop start.line rows) (hle : start.AtOrBefore stop)
    (hstop : stop.line + 1 ≤ Diagnostic.maxOffset) (hclosing : allBlank closing = true)
    (hfurther : ∀ line ∈ further, ¬ IsHeader line) :
    Goes { reported } (more ++ blank :: (rows ++ closing :: further))
      { reported := { reported with
          stop := some stop
          message := reported.message ++ String.ofList (more.flatMap ('\n' :: ·)) }
        part := .trailer
        gutter := some gutter
        lineNumber := some (stop.line + 1) } := by
  have hmessage := goes_message (p := { reported }) rfl hmore
  refine hmessage.trans (.cons (step?_blank rfl hblank) ?_)
  simp only [hfile, if_true]
  refine (goes_shows hshows hle hstop rfl hstart).trans (.cons (step?_closing rfl rfl rfl hclosing) ?_)
  exact goes_further rfl hfurther

end Pending

/-! ### Whole reports -/

/-- A header ends the report of the diagnostic in front of it, and its own is read on from there. -/
theorem ofLines_header {pending : Option Pending}
    (hpending : ∀ p, pending = some p → p.part = .trailer) {header : List Char} {reported : Reported}
    (hread : ofHeader? header = some reported) {lines : List (List Char)} {q : Pending}
    (hgoes : Pending.Goes { reported } lines q) (rest : List (List Char)) :
    ofLines pending (header :: lines ++ rest) =
      (pending.map Pending.finish).toList ++ ofLines (some q) rest := by
  rw [List.cons_append, ← hgoes rest]
  cases pending with
  | none => simp [ofLines, hread]
  | some p => simp [ofLines, Pending.step?, hpending p rfl, hread]

/-- Reading the lines of a diagnostic, whatever has been read before. -/
theorem Written.ofLines {reported : Reported} {block : List (List Char)} (h : Written reported block)
    {pending : Option Pending} (hpending : ∀ p, pending = some p → p.part = .trailer) :
    ∃ q : Pending, q.part = .trailer ∧ q.finish = reported ∧
      ∀ rest, ofLines pending (block ++ rest) =
        (pending.map Pending.finish).toList ++ Reported.ofLines (some q) rest := by
  cases h with
  | general hheader hcode hmore hblank hfurther =>
    have hread := ofHeader?_of_title hheader (value?_toDigits hcode)
    refine ⟨_, ?_, ?_,
      ofLines_header hpending hread (Pending.goes_general rfl hmore hblank hfurther)⟩
    · rfl
    · simp [Pending.finish, messageOf, String.ofList_append]
  | inFile hheader hcolumn hcode hstop hle hmore hblank hshows hclosing hfurther =>
    have hline := hshows.number_le
    have hread := (ofHeader?_of_onlyReads hheader).trans
      (ofPlace?_toDigits (by omega) hcolumn hcode)
    refine ⟨_, ?_, ?_, ofLines_header hpending hread
      (Pending.goes_inFile rfl rfl hmore hblank hshows hle hstop hclosing hfurther)⟩
    · rfl
    · simp [Pending.finish, messageOf, String.ofList_append]

theorem ofLines_written {reported : List Reported} {blocks : List (List (List Char))}
    (h : List.Forall₂ Written reported blocks) {pending : Option Pending}
    (hpending : ∀ p, pending = some p → p.part = .trailer) :
    ofLines pending blocks.flatten = (pending.map Pending.finish).toList ++ reported := by
  induction h generalizing pending with
  | nil => simp [ofLines]
  | @cons first block reported blocks hfirst hrest ih =>
    obtain ⟨q, hpart, hfinish, hread⟩ := hfirst.ofLines hpending
    rw [List.flatten_cons, hread, ih fun p hp => by cases hp; exact hpart]
    simp [hfinish]

/-- Reading a report that is laid out well gives back its diagnostics, all of them and in their
order. -/
theorem ofReport_written {reported : List Reported} {blocks : List (List (List Char))}
    (h : List.Forall₂ Written reported blocks)
    (hplain : ∀ line ∈ blocks.flatten, '\n' ∉ line ∧ '\r' ∉ line) :
    ofReport (blocks.flatten.flatMap (· ++ ['\n'])) = reported := by
  rw [ofReport, lines_flatMap hplain, ofLines_written h (by simp)]
  rfl

/-- A diagnostic over twelve lines, ten of which are left out, and one about no file. -/
theorem ofReport_written_leftOut :
    ofReport (["a.ts:1:7 - error TS2322: Type 'A' is not assignable.".toList,
        "  It has no 'b'.".toList, [], "  1 const x = [".toList, "          ~~~~~".toList,
        "... ".toList, " 12 ];".toList, "    ~".toList, [],
        "error TS5023: Unknown option.".toList, [], "Found 2 errors.".toList].flatMap
          (· ++ ['\n'])) =
      [{ file := some "a.ts", start := some ⟨0, 6⟩, stop := some ⟨11, 1⟩, category := .error
         code := 2322, message := "Type 'A' is not assignable.\n  It has no 'b'." },
       { category := .error, code := 5023, message := "Unknown option." }] := by
  have hheader : OnlyReadsAs "a.ts:1:7 - error TS2322: Type 'A' is not assignable.".toList
      "a.ts".toList
      { line := Nat.toDigits 10 1
        column := Nat.toDigits 10 7
        title :=
          { category := .error, code := Nat.toDigits 10 2322
            message := "Type 'A' is not assignable.".toList } } :=
    onlyReadsAs_of_drop (n := 4) (by decide) (by decide) (by decide) rfl (by decide)
  have hrows : Shows 3 ⟨0, 6⟩ ⟨11, 1⟩ 0 ["  1 const x = [".toList, "          ~~~~~".toList,
      "... ".toList, " 12 ];".toList, "    ~".toList] :=
    .leaveOut ⟨2, " const x = [".toList, by decide, by decide, by decide⟩
      ⟨(by simp : ∀ c ∈ "      ~~~~~".toList, c = ' ' ∨ c = '~'), Or.inl (by decide)⟩
      ⟨0, 1, by decide⟩ (by decide : 1 < 11)
      (.last ⟨1, " ];".toList, by decide, by decide, by decide⟩
        ⟨(by simp : ∀ c ∈ ['~'], c = ' ' ∨ c = '~'), Or.inl (by decide)⟩ ⟨[], rfl, rfl⟩)
  have hfirst := @Written.inFile _ ⟨0, 6⟩ ⟨11, 1⟩ .error 2322 _ _ ["  It has no 'b'.".toList] [] 3 _
    [] [] hheader (by decide) (by decide) (by decide) (Or.inl (by decide)) (by decide) (by decide)
    hrows (by decide) (by simp)
  have htitle : Title.Spells
      { category := .error, code := Nat.toDigits 10 5023, message := "Unknown option.".toList }
      "error TS5023: Unknown option.".toList :=
    title?_eq_some.1 rfl
  have hfound : ¬ IsHeader "Found 2 errors.".toList := not_isHeader (by decide) (by decide)
  have hsecond := @Written.general .error 5023 _ _ [] [] ["Found 2 errors.".toList] htitle (by decide)
    (by decide) (by decide) (by simpa using hfound)
  exact ofReport_written (.cons hfirst (.cons hsecond .nil)) (by decide)

end Reported

end ExpectError
