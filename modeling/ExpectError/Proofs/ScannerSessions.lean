import ExpectError.Proofs.Alignment

/-!
# Scanners in use

A scanner is moved on, has its token read anew, is saved, and is put back to a state that was saved
before, in any order. Whatever has been done with it, its trivia, its token and the place behind the
token are stretches of the text: no offset is inside a character or beyond the end, so the
characters of the token can always be taken out.

* `Use`, `Session`: what can be done with a scanner, and the states that have been saved;
* `Scanner.InText`: the offsets of a scanner in its text;
* `Settled`: what every use of a scanner keeps;
* `Session.inText_run`: so a scanner stays in its text.
-/

namespace ExpectError.Scanner

open Text Grammar

/-- What can be done with a scanner. Saved states are counted from zero, and a state that was never
saved cannot be restored. -/
inductive Use where
  /-- To the next token. -/
  | scan (scan : Scan)
  /-- The token at hand is read anew. -/
  | rescan (scan : Rescan)
  | save
  | restore (place : ℕ)
  deriving DecidableEq, Repr

/-- A scanner and the states of it that have been saved, the first one first. -/
structure Session where
  scanner : Scanner
  saved : List Scanner := []

/-- A session with a scanner that has not been used. -/
def Session.ofText (text : List Char) : Session :=
  { scanner := Scanner.ofText text }

/-- One use of the scanner of a session. -/
def Session.step (session : Session) : Use → Session
  | .scan scan => { session with scanner := scan.apply session.scanner }
  | .rescan scan => { session with scanner := scan.apply session.scanner }
  | .save => { session with saved := session.saved ++ [session.scanner] }
  | .restore place => { session with scanner := session.saved[place]?.getD session.scanner }

/-- A number of uses, one after the other. -/
def Session.run (session : Session) (uses : List Use) : Session :=
  uses.foldl Session.step session

/-- The trivia in front of the token, the token and the place behind it are in this order in the
text, between characters of it, and the characters of the token stand there. -/
structure InText (text : List Char) (s : Scanner) : Prop where
  fullStart_le : s.fullStart ≤ s.start.pos
  start_le : s.start.pos ≤ s.stop.pos
  stop_le : s.stop.pos ≤ byteLength text
  isBoundary_fullStart : IsBoundary text s.fullStart
  isBoundary_start : IsBoundary text s.start.pos
  isBoundary_stop : IsBoundary text s.stop.pos
  slice?_eq : slice? s.start.pos s.stop.pos text = some s.tokenText

/-- A scanner has not been used, or it stands on a token of its text, behind trivia that start
between two characters. -/
structure Settled (text : List Char) (s : Scanner) : Prop where
  sound_or_eq : s.Sound text ∨ s = ofText text
  fullStart_le : s.fullStart ≤ s.start.pos
  isBoundary_fullStart : IsBoundary text s.fullStart

variable {text : List Char} {s : Scanner} {session : Session}

theorem settled_ofText (text : List Char) : (ofText text).Settled text :=
  ⟨Or.inr rfl, le_rfl, isBoundary_zero text⟩

namespace Settled

theorem reached (h : s.Settled text) : (Cursor.ofText text).Ahead s.start := by
  rcases h.sound_or_eq with hsound | rfl
  · exact hsound.reached
  · exact .refl _

theorem ahead (h : s.Settled text) : s.start.Ahead s.stop := by
  rcases h.sound_or_eq with hsound | rfl
  · exact hsound.ahead
  · exact .refl _

theorem reached_stop (h : s.Settled text) : (Cursor.ofText text).Ahead s.stop :=
  h.reached.trans h.ahead

theorem slice?_eq (h : s.Settled text) : slice? s.start.pos s.stop.pos text = some s.tokenText := by
  rcases h.sound_or_eq with hsound | rfl
  · exact hsound.slice?_eq
  · simp [ofText, tokenText, Cursor.ofText, Cursor.upTo, slice?, splitAtByte?]

theorem inText (h : s.Settled text) : s.InText text where
  fullStart_le := h.fullStart_le
  start_le := h.ahead.pos_le
  stop_le := h.reached_stop.isBoundary.le
  isBoundary_fullStart := h.isBoundary_fullStart
  isBoundary_start := h.reached.isBoundary
  isBoundary_stop := h.reached_stop.isBoundary
  slice?_eq := h.slice?_eq

end Settled

/-! ### Uses of a scanner -/

@[simp] theorem fullStart_scan (scan : Scan) (s : Scanner) :
    (scan.apply s).fullStart = s.stop.pos := by
  cases scan <;> rfl

@[simp] theorem fullStart_rescan (scan : Rescan) (s : Scanner) :
    (scan.apply s).fullStart = s.fullStart := by
  cases scan with
  | greater =>
    simp only [Rescan.apply, rescanGreater]
    split
    · split <;> rfl
    · rfl
  | slash =>
    simp only [Rescan.apply, rescanSlash]
    split <;> rfl
  | template =>
    simp only [Rescan.apply, rescanTemplate]
    split <;> rfl
  | markupName =>
    simp only [Rescan.apply, extendMarkupName]
    split
    · split <;> rfl
    · rfl

/-- A scanner that has not been used has no token that could be read anew. -/
theorem rescan_ofText (scan : Rescan) (text : List Char) :
    scan.apply (ofText text) = ofText text := by
  cases scan <;> rfl

theorem Settled.scan (h : s.Settled text) (scan : Scan) : (scan.apply s).Settled text where
  sound_or_eq := Or.inl (State.sound_scan_of_ahead scan h.reached_stop)
  fullStart_le := by
    rw [fullStart_scan]
    exact State.stop_le_start_scan scan s
  isBoundary_fullStart := by
    rw [fullStart_scan]
    exact h.reached_stop.isBoundary

theorem Settled.rescan (h : s.Settled text) (scan : Rescan) : (scan.apply s).Settled text := by
  rcases h.sound_or_eq with hsound | rfl
  · have hsame := State.sameStart_rescan scan hsound
    refine ⟨Or.inl (hsound.of_sameStart hsame), ?_, ?_⟩
    · rw [fullStart_rescan, hsame.start_eq]
      exact h.fullStart_le
    · rw [fullStart_rescan]
      exact h.isBoundary_fullStart
  · rw [rescan_ofText]
    exact h

/-- The scanner of a session is settled, and so are the states of it that have been saved. -/
structure Session.Settled (text : List Char) (session : Session) : Prop where
  scanner : session.scanner.Settled text
  saved : ∀ state ∈ session.saved, state.Settled text

theorem Session.Settled.step (h : session.Settled text) (use : Use) :
    (session.step use).Settled text := by
  cases use with
  | scan scan => exact ⟨h.scanner.scan scan, h.saved⟩
  | rescan scan => exact ⟨h.scanner.rescan scan, h.saved⟩
  | save =>
    refine ⟨h.scanner, List.forall_mem_append.2 ⟨h.saved, ?_⟩⟩
    simpa using h.scanner
  | restore place =>
    refine ⟨?_, h.saved⟩
    change ((session.saved[place]?).getD session.scanner).Settled text
    cases hplace : session.saved[place]? with
    | none => exact h.scanner
    | some state => exact h.saved state (List.mem_of_getElem? hplace)

theorem Session.Settled.run (h : session.Settled text) (uses : List Use) :
    (session.run uses).Settled text := by
  induction uses generalizing session with
  | nil => exact h
  | cons use uses ih => exact ih (h.step use)

/-- Whatever is done with a scanner, in whatever order, its offsets stay in order and between
characters of the text. -/
theorem Session.inText_run (text : List Char) (uses : List Use) :
    ((Session.ofText text).run uses).scanner.InText text :=
  (Session.Settled.run ⟨settled_ofText text, by simp [Session.ofText]⟩ uses).scanner.inText

end ExpectError.Scanner
