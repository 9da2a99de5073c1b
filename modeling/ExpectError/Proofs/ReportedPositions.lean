import ExpectError.Checker.Offsets
import ExpectError.Proofs.Issues
import ExpectError.Proofs.SplitLines

/-!
# From reported positions to issues

A report gives lines and columns. They become byte offsets of the text, and the offsets become lines
and columns again when the diagnostics are grouped as issues. A position that lies in the text comes
back as it was: the offset that is found for it is a boundary of the text in the reported line, and
there are as many code units in front of it as reported. Whatever is reported, the offsets that are
found are boundaries.

* `Position.InText`: the positions of a text;
* `LineMap.offsetOf?_of_inText`: a position of a text has an offset, whose position it is;
* `Reported.resolve_eq_map`: every diagnostic of a report is put into offsets by itself;
* `Reported.issuesIn_resolve`: the issue of a reported diagnostic.
-/

namespace ExpectError

namespace Text

/-! ### Columns -/

theorem isBoundary_columnBytes (units : ℕ) (line : List Char) :
    IsBoundary line (LineMap.columnBytes units line) := by
  induction line generalizing units with
  | nil => exact isBoundary_zero []
  | cons c line ih =>
    rw [LineMap.columnBytes]
    split
    · exact isBoundary_zero _
    · exact isBoundary_cons.2 (Or.inr ⟨_, ih _, rfl⟩)

/-- As many bytes as the beginning of the line has that the column counts. -/
theorem columnBytes_append {front : List Char} (h : ∀ c ∈ front, isLineBreak c = false)
    (rest : List Char) :
    LineMap.columnBytes (unitLength front) (front ++ rest) = byteLength front := by
  induction front with
  | nil => cases rest <;> simp [unitLength, LineMap.columnBytes]
  | cons c front ih =>
    have hc := unitSize_pos c
    have hunits : unitLength (c :: front) = unitSize c + unitLength front := by
      simp [unitLength]
    have hfront := ih fun d hd => h d (List.mem_cons_of_mem c hd)
    rw [List.cons_append, LineMap.columnBytes, if_neg, hunits, Nat.add_sub_cancel_left, hfront,
      byteLength_cons]
    simp [hunits, h c List.mem_cons_self]
    omega

theorem IsBoundary.append {a b : List Char} {n : ℕ} (h : IsBoundary b n) :
    IsBoundary (a ++ b) (byteLength a + n) := by
  obtain ⟨before, after, rfl, rfl⟩ := h
  exact ⟨a ++ before, after, by simp, by simp⟩

theorem IsBoundary.append_right {a b : List Char} {n : ℕ} (h : IsBoundary a n) :
    IsBoundary (a ++ b) n := by
  obtain ⟨before, after, rfl, rfl⟩ := h
  exact ⟨before, after ++ b, by simp, rfl⟩

/-! ### Positions of a text -/

/-- The position is one of the text: there is such a line, and the column is the number of code units
of a beginning of the line in front of its terminator. -/
def Position.InText (text : List Char) (position : Position) : Prop :=
  ∃ front rest, (splitLines text)[position.line]? = some (front ++ rest) ∧
    (∀ c ∈ front, isLineBreak c = false) ∧ unitLength front = position.character

namespace LineMap

theorem lineStartOf_of_mem {text : List Char} {n : ℕ} (h : n ∈ lineStarts text) :
    (ofText text).lineStartOf n = n := by
  obtain ⟨-, hle, hgreatest⟩ := lineStartOf_spec text n
  exact Nat.le_antisymm hle (hgreatest n h le_rfl)

theorem length_starts (text : List Char) :
    (ofText text).starts.length = (splitLines text).length := by
  have hlength (pos : ℕ) (lines : List (List Char)) : (startsOf pos lines).length = lines.length := by
    induction lines generalizing pos with
    | nil => rfl
    | cons line lines ih => simp [startsOf, ih]
  rw [starts_ofText, lineStarts, ← startsOf_splitLines, hlength]

/-- A line stops where the next one starts, and the last one where the text stops. -/
theorem getD_starts {text line : List Char} {before after : List (List Char)}
    (h : splitLines text = before ++ line :: after) :
    (ofText text).starts.getD (before.length + 1) (byteLength text) =
      byteLength before.flatten + byteLength line := by
  cases after with
  | nil =>
    have hlength : (ofText text).starts.length ≤ before.length + 1 := by
      rw [length_starts, h]
      simp
    rw [List.getD_eq_getElem?_getD, List.getElem?_eq_none hlength, Option.getD_none]
    conv_lhs => rw [← flatten_splitLines text, h]
    simp
  | cons next after =>
    have hnext : splitLines text = (before ++ [line]) ++ next :: after := by simp [h]
    have hstart := getElem?_starts_of_splitLines hnext
    rw [List.length_append, List.length_singleton] at hstart
    rw [List.getD_eq_getElem?_getD, hstart]
    simp

/-- The offset of a position is found in the line of that number. -/
theorem offsetOf?_eq {text line : List Char} {before after : List (List Char)} {position : Position}
    (h : splitLines text = before ++ line :: after) (hline : before.length = position.line) :
    (ofText text).offsetOf? position =
      some (byteLength before.flatten + columnBytes position.character line) := by
  have hstart := getElem?_starts_of_splitLines h
  have hstop := getD_starts h
  have htext : text = before.flatten ++ (line ++ after.flatten) := by
    conv_lhs => rw [← flatten_splitLines text, h]
    simp
  have hslice : slice? (byteLength before.flatten) (byteLength before.flatten + byteLength line)
      text = some line := by
    conv_lhs => rw [htext]
    exact slice?_append _ _ _
  rw [hline] at hstart hstop
  rw [offsetOf?, hstart]
  show some (byteLength before.flatten + columnBytes position.character
    ((slice? _ ((ofText text).starts.getD (position.line + 1) (byteLength text)) text).getD [])) = _
  rw [hstop, hslice, Option.getD_some]

/-- The offset that is found for a position, if any, is a boundary. -/
theorem isBoundary_of_offsetOf? {text : List Char} {position : Position} {n : ℕ}
    (h : (ofText text).offsetOf? position = some n) : IsBoundary text n := by
  obtain ⟨start, hstart, -⟩ := Option.bind_eq_some_iff.1 h
  obtain ⟨hlt, -⟩ := List.getElem?_eq_some_iff.1 hstart
  rw [length_starts] at hlt
  obtain ⟨line, hline⟩ : ∃ line, (splitLines text)[position.line]? = some line :=
    ⟨_, List.getElem?_eq_getElem hlt⟩
  obtain ⟨before, after, hsplit, hnumber, htext⟩ := exists_of_getElem?_splitLines hline
  rw [offsetOf?_eq hsplit hnumber] at h
  cases h
  rw [htext]
  exact (isBoundary_columnBytes _ _).append_right.append

/-- A position of a text has an offset, and it is the position of that offset. -/
theorem offsetOf?_of_inText {text : List Char} {position : Position} (h : position.InText text) :
    ∃ n, (ofText text).offsetOf? position = some n ∧ IsBoundary text n ∧
      (ofText text).positionOf n = position := by
  obtain ⟨front, rest, hline, hfront, hcolumn⟩ := h
  obtain ⟨before, after, hsplit, hnumber, htext⟩ := exists_of_getElem?_splitLines hline
  have hoffset := offsetOf?_eq hsplit hnumber
  rw [← hcolumn, columnBytes_append hfront, ← byteLength_append] at hoffset
  have hboundary := isBoundary_of_offsetOf? hoffset
  refine ⟨_, hoffset, hboundary, ?_⟩
  -- the offset is in the line, since nothing in front of it in the line ends the line
  have hstart := getElem?_starts_of_splitLines hsplit
  have hmem : byteLength before.flatten ∈ lineStarts text := by
    rw [← starts_ofText]
    exact List.mem_of_getElem? hstart
  have hfirst : (ofText text).lineOf (byteLength before.flatten) = before.length :=
    (lineStartOf_eq_iff hstart).1 (lineStartOf_of_mem hmem)
  have hlineOf : (ofText text).lineOf (byteLength (before.flatten ++ front)) = before.length := by
    rw [htext, lineOf_append] at hfirst
    have htext' : text = (before.flatten ++ front) ++ (rest ++ after.flatten) := by
      rw [htext]
      simp
    rw [htext', lineOf_append, endings_append, endings_eq_zero hfront, ← hfirst]
    simp
  obtain ⟨before', line', after', htext', hbefore', hboth, hposition⟩ := exists_positionOf hboundary
  rw [(lineStartOf_eq_iff hstart).2 hlineOf] at hbefore'
  obtain ⟨rfl, hrest⟩ := append_inj_of_byteLength (htext'.symm.trans htext) hbefore'
  rw [byteLength_append, byteLength_append, Nat.add_left_cancel_iff] at hboth
  obtain ⟨rfl, -⟩ := append_inj_of_byteLength (hrest.trans (List.append_assoc ..)) hboth
  rw [hposition, hlineOf, hnumber, hcolumn]

/-- Offsets of positions of a text are in the order of the positions. -/
theorem le_of_atOrBefore {text : List Char} {m n : ℕ} (hm : IsBoundary text m)
    (hn : IsBoundary text n)
    (h : ((ofText text).positionOf m).AtOrBefore ((ofText text).positionOf n)) : m ≤ n := by
  by_contra hlt
  have hpositions := positionOf_lt hn hm (by omega)
  unfold Position.AtOrBefore at h
  omega

end LineMap

end Text

namespace Reported

open Text

/-! ### One diagnostic of a report -/

/-- The line map of a file that can be read. -/
def mapOf (read : Pathname → Option String) (path : Pathname) : Option LineMap :=
  (read path).map fun text => LineMap.ofText text.toList

/-- A diagnostic of a report, put into offsets. -/
def diagnosticOf (read : Pathname → Option String) (root : Pathname) (reported : Reported) :
    Diagnostic :=
  match reported.file with
  | none => { message := reported.message, category := reported.category, code := reported.code }
  | some file => reported.diagnosticIn (pathOf root file) (mapOf read (pathOf root file))

/-- What is remembered of the texts is what reading them gives. -/
def Faithful (read : Pathname → Option String) (sources : List (Pathname × Option LineMap)) : Prop :=
  ∀ path map, sources.lookup path = some map → map = mapOf read path

theorem resolveNext_spec {read : Pathname → Option String}
    {sources : List (Pathname × Option LineMap)} (h : Faithful read sources) (root : Pathname)
    (reported : Reported) :
    (resolveNext read root sources reported).1 = diagnosticOf read root reported ∧
      Faithful read (resolveNext read root sources reported).2 := by
  rw [resolveNext, diagnosticOf]
  cases reported.file with
  | none => exact ⟨rfl, h⟩
  | some file =>
    dsimp only
    cases hlookup : sources.lookup (pathOf root file) with
    | some map =>
      rw [h _ _ hlookup]
      exact ⟨rfl, h⟩
    | none =>
      refine ⟨rfl, fun path map hpath => ?_⟩
      rw [List.lookup_append] at hpath
      cases hold : sources.lookup path with
      | some old =>
        rw [hold, Option.some_or] at hpath
        exact h path map (hold.trans hpath)
      | none =>
        -- the only text that is new is the one that has just been asked for
        rw [hold, Option.none_or, List.lookup_cons] at hpath
        split at hpath
        next heq =>
          cases hpath
          rw [beq_iff_eq.1 heq]
          rfl
        next => cases hpath

theorem resolveFrom_eq_map {read : Pathname → Option String} {root : Pathname}
    {sources : List (Pathname × Option LineMap)} (h : Faithful read sources)
    (reported : List Reported) :
    (resolveFrom read root sources reported).1 = reported.map (diagnosticOf read root) := by
  induction reported generalizing sources with
  | nil => rfl
  | cons first rest ih =>
    obtain ⟨hfirst, hfaithful⟩ := resolveNext_spec h root first
    rw [resolveFrom, List.map_cons, ← hfirst, ← ih hfaithful]

/-- Every diagnostic of a report is put into offsets by itself. -/
theorem resolve_eq_map (read : Pathname → Option String) (root : Pathname)
    (reported : List Reported) :
    resolve read root reported = reported.map (diagnosticOf read root) :=
  resolveFrom_eq_map (fun path map h => by cases h) reported

/-- The start and the end that are found for a diagnostic are boundaries of the text. -/
theorem isBoundary_of_span? {text : List Char} {reported : Reported} {start length : ℕ}
    (h : reported.span? (LineMap.ofText text) = some (start, length)) :
    IsBoundary text start ∧ IsBoundary text (start + length) := by
  obtain ⟨first, -, h⟩ := Option.bind_eq_some_iff.1 h
  obtain ⟨offset, hstart, h⟩ := Option.bind_eq_some_iff.1 h
  cases h
  have hfirst := LineMap.isBoundary_of_offsetOf? hstart
  refine ⟨hfirst, ?_⟩
  rw [Nat.add_sub_cancel' (Nat.le_max_right _ _)]
  rcases Nat.le_total ((reported.stop.bind (LineMap.ofText text).offsetOf?).getD start) start with
    hle | hle
  · rw [Nat.max_eq_right hle]
    exact hfirst
  · rw [Nat.max_eq_left hle]
    cases hstop : reported.stop.bind (LineMap.ofText text).offsetOf? with
    | none => exact hfirst
    | some stop =>
      obtain ⟨last, -, hlast⟩ := Option.bind_eq_some_iff.1 hstop
      exact LineMap.isBoundary_of_offsetOf? hlast

/-- Positions of the text that are in order give a stretch of text between them. -/
theorem span?_of_inText {text : List Char} {reported : Reported} {first last : Position}
    (hstart : reported.start = some first) (hstop : reported.stop = some last)
    (hfirst : first.InText text) (hlast : last.InText text) (hle : first.AtOrBefore last) :
    ∃ m n, reported.span? (LineMap.ofText text) = some (m, n - m) ∧ m ≤ n ∧ IsBoundary text n ∧
      (LineMap.ofText text).positionOf m = first ∧ (LineMap.ofText text).positionOf n = last := by
  obtain ⟨m, hm, hboundary, hposition⟩ := LineMap.offsetOf?_of_inText hfirst
  obtain ⟨n, hn, hboundary', hposition'⟩ := LineMap.offsetOf?_of_inText hlast
  have hmn : m ≤ n :=
    LineMap.le_of_atOrBefore hboundary hboundary' (by rwa [hposition, hposition'])
  refine ⟨m, n, ?_, hmn, hboundary', hposition, hposition'⟩
  simp [span?, hstart, hstop, hm, hn, Nat.max_eq_left hmn]

/-! ### The issues of a report -/

/-- The issues that a report leaves for a file, the texts of the files being asked for once more. -/
def issuesIn (read : Pathname → Option String) (texts : String → Option String) (root : Pathname)
    (file : String) (reported : List Reported) : List Issue :=
  ((Reduced.ofDiagnostics texts (resolve read root reported)).issues.get?
    (pathOf root file).display).getD []

/-- What is put into offsets lies in the text: if a diagnostic has a start, then its file has been
read, and it starts and stops at boundaries of the text, within the range of offsets. -/
def LiesInText (read : Pathname → Option String) (root : Pathname) (reported : Reported)
    (d : Diagnostic) : Prop :=
  ∀ start, d.start = some start → ∃ file text length, reported.file = some file ∧
    read (pathOf root file) = some text ∧ d.length = some length ∧
    IsBoundary text.toList start ∧ IsBoundary text.toList (start + length) ∧
    start + length < 2 ^ 32 ∧ d.stop? = some (start + length)

theorem liesInText_diagnosticOf {read : Pathname → Option String}
    (hsize : ∀ path text, read path = some text → byteLength text.toList < 2 ^ 32)
    (root : Pathname) (reported : Reported) :
    LiesInText read root reported (diagnosticOf read root reported) := by
  intro start hstart
  rw [diagnosticOf] at hstart ⊢
  cases hfile : reported.file with
  | none =>
    rw [hfile] at hstart
    cases hstart
  | some file =>
    rw [hfile] at hstart
    dsimp only at hstart ⊢
    cases hread : read (pathOf root file) with
    | none =>
      rw [mapOf, hread] at hstart
      cases hstart
    | some text =>
      have hmap : mapOf read (pathOf root file) = some (LineMap.ofText text.toList) := by
        rw [mapOf, hread, Option.map_some]
      rw [hmap] at hstart ⊢
      simp only [diagnosticIn, Option.bind_some, Option.map_eq_some_iff] at hstart
      obtain ⟨⟨_, length⟩, hspan, rfl⟩ := hstart
      obtain ⟨hboundary, hboundary'⟩ := isBoundary_of_span? hspan
      have hlt := hboundary'.le.trans_lt (hsize _ _ hread)
      refine ⟨file, text, length, rfl, hread, ?_, hboundary, hboundary', hlt, ?_⟩
      · simp [diagnosticIn, hspan]
      · simp [diagnosticIn, hspan, Diagnostic.stop?, Diagnostic.maxOffset]
        omega

/-- A diagnostic whose positions lie in the text gives an issue with these very positions, counted
from one. -/
theorem issueIn?_diagnosticOf {read : Pathname → Option String} {texts : String → Option String}
    {root : Pathname} {reported : Reported} {file text : String} {first last : Position}
    (hsize : byteLength text.toList < 2 ^ 32) (hfile : reported.file = some file)
    (hread : read (pathOf root file) = some text)
    (htexts : texts (pathOf root file).display = some text) (hstart : reported.start = some first)
    (hstop : reported.stop = some last) (hfirst : first.InText text.toList)
    (hlast : last.InText text.toList) (hle : first.AtOrBefore last) :
    Reduced.issueIn? texts (pathOf root file).display (diagnosticOf read root reported) =
      some { range := ⟨first.line + 1, first.character + 1, last.line + 1, last.character + 1⟩
             code := reported.code
             message := reported.message } := by
  obtain ⟨m, n, hspan, hmn, hboundary, hposition, hposition'⟩ :=
    span?_of_inText hstart hstop hfirst hlast hle
  have hd : diagnosticOf read root reported =
      { file := some (pathOf root file).display
        start := some m
        length := some (n - m)
        message := reported.message
        category := reported.category
        code := reported.code } := by
    simp [diagnosticOf, hfile, diagnosticIn, mapOf, hread, hspan]
  have hn : n ≤ Diagnostic.maxOffset := by
    have := hboundary.le
    unfold Diagnostic.maxOffset
    omega
  have hend : min (m + (n - m)) Diagnostic.maxOffset = n := by omega
  rw [hd]
  simp [Reduced.issueIn?, Diagnostic.location?, Reduced.sourceOf, htexts, Reduced.issueOf,
    Diagnostic.stop?, hend, LineMap.rangeOf, hposition, hposition']

/-- A reported diagnostic whose positions lie in its text becomes an issue with exactly these
positions, counted from one, between the issues of the diagnostics in front of it and behind it; and
whatever is reported, the start and the end that are found for it are boundaries of the text. -/
theorem issuesIn_resolve (read : Pathname → Option String) (root : Pathname)
    (hsize : ∀ path text, read path = some text → byteLength text.toList < 2 ^ 32) :
    (∀ (texts : String → Option String) (before after : List Reported) (reported : Reported)
      (file text : String) (first last : Position),
      reported.file = some file → read (pathOf root file) = some text →
      texts (pathOf root file).display = some text →
      reported.start = some first → reported.stop = some last →
      first.InText text.toList → last.InText text.toList → first.AtOrBefore last →
      issuesIn read texts root file (before ++ reported :: after) =
        issuesIn read texts root file before ++
          { range := ⟨first.line + 1, first.character + 1, last.line + 1, last.character + 1⟩
            code := reported.code
            message := reported.message } :: issuesIn read texts root file after) ∧
      ∀ reported : List Reported,
        List.Forall₂ (LiesInText read root) reported (resolve read root reported) := by
  constructor
  · intro texts before after reported file text first last hfile hread htexts hstart hstop hfirst
      hlast hle
    have hissue := issueIn?_diagnosticOf (hsize _ _ hread) hfile hread htexts hstart hstop hfirst
      hlast hle
    simp only [issuesIn, Reduced.getD_get?_ofDiagnostics, resolve_eq_map]
    rw [List.map_append, List.map_cons, List.filterMap_append, List.filterMap_cons_some hissue]
  · intro reported
    rw [resolve_eq_map, List.forall₂_map_right_iff]
    exact List.forall₂_same.2 fun r _ => liesInText_diagnosticOf hsize root r

/-- A letter of two code units in the second line of a text, the first line of which ends with a
carriage return and a line feed. -/
theorem issuesIn_resolve_letter :
    Position.InText "a\r\nb𝒳c\n".toList ⟨1, 1⟩ ∧ Position.InText "a\r\nb𝒳c\n".toList ⟨1, 3⟩ ∧
      issuesIn (fun _ => some "a\r\nb𝒳c\n") (fun _ => some "a\r\nb𝒳c\n") (.ofString "/p") "a.ts"
        [{ file := some "a.ts", start := some ⟨1, 1⟩, stop := some ⟨1, 3⟩, category := .error
           code := 2304, message := "Cannot find name." }] =
        [{ range := ⟨2, 2, 2, 4⟩, code := 2304, message := "Cannot find name." }] ∧
      List.Forall₂ (LiesInText (fun _ => some "a\r\nb𝒳c\n") (.ofString "/p"))
        [{ file := some "a.ts", start := some ⟨0, 9⟩, category := .error, code := 1, message := "" }]
        (resolve (fun _ => some "a\r\nb𝒳c\n") (.ofString "/p")
          [{ file := some "a.ts", start := some ⟨0, 9⟩, category := .error, code := 1
             message := "" }]) := by
  have hfirst : Position.InText "a\r\nb𝒳c\n".toList ⟨1, 1⟩ :=
    ⟨['b'], ['𝒳', 'c', '\n'], by decide, by simp [isLineBreak], by decide⟩
  have hlast : Position.InText "a\r\nb𝒳c\n".toList ⟨1, 3⟩ :=
    ⟨['b', '𝒳'], ['c', '\n'], by decide, by simp [isLineBreak], by decide⟩
  obtain ⟨hexact, hlies⟩ := issuesIn_resolve (fun _ => some "a\r\nb𝒳c\n") (.ofString "/p")
    (fun _ text htext => by cases htext; decide)
  refine ⟨hfirst, hlast, ?_, hlies _⟩
  exact hexact (fun _ => some "a\r\nb𝒳c\n") [] [] _ "a.ts" _ _ _ rfl rfl rfl rfl rfl hfirst hlast
    (Or.inr ⟨rfl, by decide⟩)

end Reported

end ExpectError
