import ExpectError.Proofs.FixedWords
import ExpectError.Shell.Interpreter
import Mathlib.Data.Bool.AllAny

/-!
# Command lines

A line that names a program and its arguments, each written in some way and with blanks between them,
is read as one command with one word for each of them. The command has no redirections, and nothing of
the line is left behind it. Running the line is running that command, and the program is called by
exactly the texts that the words stand for.

* `Words`, `IsCall`: lines of words, and lines that begin with the name of a program;
* `Words.exists_read`: what is read of words behind the first one, wherever in a command they stand;
* `IsCall.runsCommand`: what a whole line does.
-/

namespace ExpectError.Shell

/-- Does a character only separate words? -/
def IsBlank (c : Char) : Prop :=
  c = ' ' ∨ c = '\t'

/-- A part of a line that writes some texts as words, with a blank in front of each. -/
inductive Words : List Char → List (List Char) → Prop
  | nil : Words [] []
  | blank {c : Char} {line : List Char} {texts : List (List Char)} (blank : IsBlank c)
      (behind : Words line texts) : Words (c :: line) texts
  | word {c : Char} {script text line : List Char} {texts : List (List Char)} (blank : IsBlank c)
      (ne : script ≠ []) (standsFor : StandsFor script text) (behind : Words line texts) :
      Words (c :: (script ++ line)) (text :: texts)

/-- A line that writes the name of a program and its arguments. A word of the shell's language is no
program, unless a part of it is quoted. -/
inductive IsCall : List Char → List (List Char) → Prop
  | intro {gap script text line : List Char} {texts : List (List Char)}
      (blank : ∀ c ∈ gap, IsBlank c) (ne : script ≠ [])
      (notReserved : ∀ word ∈ Reads.reserved, script ≠ word.toList)
      (standsFor : StandsFor script text) (behind : Words line texts) :
      IsCall (gap ++ (script ++ line)) (text :: texts)

/-- A word is one field, which is the text, in every state of a shell, and changes nothing. -/
def IsField (word : Word) (text : Octets) : Prop :=
  ∀ (interpret : Interpreter) (s : State), s.leaving = none →
    expandFields interpret word s = ([text], s)

/-- Running the script is running one command, without redirections, and nothing else. What the command
calls are some texts, the first of which can be assignments instead, and behind them the arguments. -/
def RunsCommand (script : Octets) (texts arguments : List Octets) : Prop :=
  ∃ words,
    (∀ n tested line s, interpret (n + 3) tested script line s =
      execute (n + 1) tested (.simple line words [])
        (if s.has 'v' then s.write 2 script else s)) ∧
    (splitAssignments words).1.length ≤ texts.length ∧
    ∀ interpret s, s.leaving = none →
      expandCommand interpret (splitAssignments words).2 s =
        (texts.drop (splitAssignments words).1.length ++ arguments, s)

/-- Is a character at the front passed over, or does it begin something that is no word? -/
def BeginsNoWord (c : Char) : Prop :=
  c ∈ [' ', '\t', '\n', '#', ';', '&', '|', '<', '>', '(', ')']

instance (c : Char) : Decidable (BeginsNoWord c) :=
  inferInstanceAs (Decidable (_ ∈ _))

/-- At the front is the end of the script, or something that begins a word: nothing is passed over,
and no operator begins here. -/
structure AtWord (rest : List Char) : Prop where
  begins : ∀ c ∈ rest.head?, ¬BeginsNoWord c
  notJoined : ∀ more, rest ≠ '\\' :: '\n' :: more
  notChannel : ∀ c more, rest = c :: more → c.isDigit → ∀ d ∈ more.head?, d ≠ '<' ∧ d ≠ '>'

variable {n line : ℕ} {s : Source} {t : Source} {c : Char} {script text front rest : List Char}
  {texts : List (List Char)} {word : Word} {words : List Word} {redirections : List Redirection}

theorem AtWord.nil : AtWord [] where
  begins := by simp
  notJoined := by simp
  notChannel := by simp

/-! ### Parts of lines -/

namespace Words

theorem append {other : List Char} {more : List (List Char)} (h : Words rest texts)
    (hother : Words other more) : Words (rest ++ other) (texts ++ more) := by
  induction h with
  | nil => exact hother
  | blank hc _ ih => exact .blank hc ih
  | word hc hne hscript _ ih =>
    rw [List.cons_append, List.append_assoc]
    exact .word hc hne hscript ih

theorem isBlank_head? (h : Words rest texts) : ∀ c ∈ rest.head?, IsBlank c := by
  cases h with
  | nil => simp
  | blank hc _ => simpa using hc
  | word hc _ _ _ => simpa using hc

/-- Scripts with a blank in front of each. -/
theorem flatMap {scripts : List (List Char)}
    (h : List.Forall₂ (fun script text => script ≠ [] ∧ StandsFor script text) scripts texts) :
    Words (scripts.flatMap (' ' :: ·)) texts := by
  induction h with
  | nil => exact .nil
  | cons hscript _ ih => exact .word (Or.inl rfl) hscript.1 hscript.2 ih

end Words

theorem IsCall.append {other : List Char} {more : List (List Char)} (h : IsCall rest texts)
    (hother : Words other more) : IsCall (rest ++ other) (texts ++ more) := by
  obtain ⟨hgap, hne, hreserved, hscript, hbehind⟩ := h
  rw [List.append_assoc, List.append_assoc]
  exact .intro hgap hne hreserved hscript (hbehind.append hother)

theorem IsBlank.endsWord (h : IsBlank c) : Reads.endsWord c = true := by
  obtain rfl | rfl := h <;> rfl

/-! ### The front of a word -/

theorem IsPlain.not_beginsNoWord (h : IsPlain c) : ¬BeginsNoWord c := by
  simp only [IsPlain, List.mem_cons, List.not_mem_nil, or_false, not_or] at h
  simp [BeginsNoWord, h]

theorem StandsFor.begins (h : StandsFor script text) : ∀ c ∈ script.head?, ¬BeginsNoWord c := by
  rintro c hc
  cases h with
  | nil => cases hc
  | plain hplain _ =>
    cases hc
    exact hplain.not_beginsNoWord
  | escaped => cases hc; decide
  | quoted => cases hc; decide
  | doubled => cases hc; decide

/-- Whatever is written as a word begins one, if a blank is behind it. -/
theorem StandsFor.atWord (h : StandsFor script text) (hne : script ≠ [])
    (hrest : ∀ c ∈ rest.head?, IsBlank c) : AtWord (script ++ rest) where
  begins := by
    intro c hc
    rw [List.head?_append_of_ne_nil _ hne] at hc
    exact h.begins c hc
  notJoined := by
    intro more heq
    cases h with
    | nil => exact hne rfl
    | plain hc _ =>
      obtain ⟨rfl, -⟩ := List.cons.inj heq
      exact absurd hc (by decide)
    | escaped hc _ => exact hc (List.cons.inj (List.cons.inj heq).2).1
    | quoted => cases heq
    | doubled => cases heq
  notChannel := by
    intro c more heq hdigit d hd
    cases h with
    | nil => exact absurd rfl hne
    -- only plain characters can be digits, and what is behind them begins no redirection
    | plain hc hbehind =>
      rw [List.cons_append] at heq
      obtain ⟨rfl, rfl⟩ := List.cons.inj heq
      rw [List.head?_append] at hd
      obtain hd | ⟨-, hd⟩ := Option.or_eq_some_iff.1 hd
      · have hnot := hbehind.begins d hd
        constructor <;> rintro rfl <;> exact hnot (by decide)
      · obtain rfl | rfl := hrest d hd <;> decide
    | escaped => cases heq; cases hdigit
    | quoted => cases heq; cases hdigit
    | doubled => cases heq; cases hdigit

namespace Reads

/-- A blank is passed over. -/
theorem blanks_blank (hc : IsBlank c) (s : Source) (front rest : List Char) :
    blanks.run (s.past front (c :: rest)) = blanks.run (s.past (front ++ [c]) rest) := by
  obtain rfl | rfl := hc
  · exact run_skip_bind (fun _ => skipBlanks (rest.length + 1)) s front [' '] rest
  · exact run_skip_bind (fun _ => skipBlanks (rest.length + 1)) s front ['\t'] rest

theorem blanks_blanks {gap : List Char} (hgap : ∀ c ∈ gap, IsBlank c) (s : Source)
    (front rest : List Char) :
    blanks.run (s.past front (gap ++ rest)) = blanks.run (s.past (front ++ gap) rest) := by
  induction gap generalizing front with
  | nil => rw [List.nil_append, List.append_nil]
  | cons c gap ih =>
    obtain ⟨hc, hgap⟩ := List.forall_mem_cons.1 hgap
    rw [List.cons_append, blanks_blank hc, ih hgap, List.append_assoc, List.singleton_append]

/-- Nothing is passed over in front of a word. -/
theorem blanks_atWord (h : AtWord rest) (s : Source) (front : List Char) :
    blanks.run (s.past front rest) = .ok ((), s.past front rest) := by
  have hskip : (skipBlanks (rest.length + 1)).run (s.past front rest) =
      .ok ((), s.past front rest) := by
    rw [skipBlanks, run_rest_bind]
    split
    next => exact absurd (by decide) (h.begins ' ' rfl)
    next => exact absurd (by decide) (h.begins '\t' rfl)
    next more => exact absurd rfl (h.notJoined more)
    next => exact absurd (by decide) (h.begins '#' rfl)
    next => rfl
  exact hskip

theorem isAt_run (text : String) (s : Source) (front rest : List Char) :
    (isAt text).run (s.past front rest) = .ok (text.toList.isPrefixOf rest, s.past front rest) := rfl

/-- No operator is at the front of a word. -/
theorem isAt_atWord (h : AtWord rest) {text : String} {more : List Char}
    (htext : text.toList = c :: more)
    (hc : BeginsNoWord c) (s : Source) (front : List Char) :
    (isAt text).run (s.past front rest) = .ok (false, s.past front rest) := by
  have hprefix : text.toList.isPrefixOf rest = false := by
    rw [htext]
    cases rest with
    | nil => rfl
    | cons d rest =>
      have hne : c ≠ d := fun heq => h.begins d rfl (heq ▸ hc)
      rw [List.isPrefixOf_cons_cons, beq_eq_false_iff_ne.2 hne, Bool.false_and]
  rw [isAt_run, hprefix]

/-- No redirection is at the front of a word. -/
theorem readRedirection?_atWord (h : AtWord rest) (s : Source) (front : List Char) :
    (readRedirection? (n + 1)).run (s.past front rest) = .ok (none, s.past front rest) := by
  rw [readRedirection?]
  refine (run_bind_of_ok (blanks_atWord h s front) _).trans ?_
  rw [run_rest_bind]
  split
  next => exact absurd (by decide) (h.begins '<' rfl)
  next => exact absurd (by decide) (h.begins '>' rfl)
  next c more _ _ =>
    split
    next hdigit => exact absurd rfl (h.notChannel c ('<' :: more) rfl hdigit '<' rfl).1
    next => rfl
  next c more _ _ =>
    split
    next hdigit => exact absurd rfl (h.notChannel c ('>' :: more) rfl hdigit '>' rfl).2
    next => rfl
  next => rfl

/-- Blanks in front of a redirection, or of a word, are passed over. -/
theorem readRedirection?_blank (hc : IsBlank c) (s : Source) (front rest : List Char) :
    (readRedirection? (n + 1)).run (s.past front (c :: rest)) =
      (readRedirection? (n + 1)).run (s.past (front ++ [c]) rest) := by
  rw [readRedirection?, StateT.run_bind, StateT.run_bind, blanks_blank hc]

/-! ### Words of a command -/

theorem readSimple_blank (hc : IsBlank c) (s : Source) (front rest : List Char) :
    (readSimple (n + 2) line words redirections).run (s.past front (c :: rest)) =
      (readSimple (n + 2) line words redirections).run (s.past (front ++ [c]) rest) := by
  rw [readSimple, StateT.run_bind, StateT.run_bind, readRedirection?_blank hc]

/-- A word of a command, wherever in the command it stands. -/
theorem readSimple_word (h : AtWord (script ++ rest)) (hread : IsRead script word)
    (hne : word ≠ []) (hn : script.length < n)
    (hrest : ∀ c ∈ rest.head?, IsBlank c) (s : Source) (front : List Char) :
    (readSimple (n + 1) line words redirections).run (s.past front (script ++ rest)) =
      (readSimple n line (words ++ [word]) redirections).run (s.past (front ++ script) rest) := by
  have hnonempty : (!word.isEmpty) = true := by
    simpa using hne
  have hend : ∀ c ∈ rest.head?, endsWord c = true := fun c hc => (hrest c hc).endsWord
  rw [readSimple]
  obtain ⟨n, rfl⟩ := Nat.exists_eq_add_one.2 (Nat.zero_lt_of_lt hn)
  refine (run_bind_of_ok (readRedirection?_atWord h s front) _).trans ?_
  refine (run_bind_of_ok (hread hn hend) _).trans ?_
  rw [if_pos hnonempty]

/-- At the end of the script the command is complete. -/
theorem readSimple_nil (hwords : words ≠ [] ∨ redirections ≠ []) (s : Source)
    (front : List Char) :
    (readSimple (n + 2) line words redirections).run (s.past front []) =
      .ok (.simple line words redirections, s.past front []) := by
  have hsome : (words.isEmpty && redirections.isEmpty) = false := by
    simpa [← not_and_or] using hwords
  rw [readSimple]
  refine (run_bind_of_ok (readRedirection?_atWord .nil s front) _).trans ?_
  refine (run_bind_of_ok (readPieces_end (by simp)) _).trans ?_
  rw [List.isEmpty_nil, Bool.not_true, if_neg Bool.false_ne_true, hsome,
    if_neg Bool.false_ne_true]
  refine (run_bind_of_ok (isAt_atWord .nil rfl (by decide) s front) _).trans ?_
  rw [Bool.and_false]
  split
  next heq => cases heq
  next => rfl

end Reads

/-- Wherever in a command the part of a line stands, it is read as further words of the command, and
the command ends where the part of the line ends. -/
def IsReadAs (rest : List Char) (read : List Word) : Prop :=
  ∀ ⦃n line : ℕ⦄ ⦃words : List Word⦄ ⦃redirections : List Redirection⦄ ⦃s : Source⦄
    ⦃front : List Char⦄, rest.length + 2 ≤ n → words ≠ [] ∨ redirections ≠ [] →
    (Reads.readSimple n line words redirections).run (s.past front rest) =
      .ok (.simple line (words ++ read) redirections, s.past (front ++ rest) [])

/-- Words behind the first one are read one after another. -/
theorem Words.exists_read (h : Words rest texts) :
    ∃ read, List.Forall₂ IsWord read texts ∧ IsReadAs rest read := by
  induction h with
  | nil =>
    refine ⟨[], .nil, ?_⟩
    intro n line words redirections s front hn hwords
    obtain ⟨n, rfl⟩ := Nat.exists_eq_add_of_le' hn
    rw [List.append_nil, List.append_nil]
    exact Reads.readSimple_nil hwords s front
  | @blank c rest texts hc _ ih =>
    obtain ⟨read, hread, hrun⟩ := ih
    refine ⟨read, hread, ?_⟩
    intro n line words redirections s front hn hwords
    rw [List.length_cons] at hn
    obtain ⟨n, rfl⟩ : ∃ m, n = m + 2 := ⟨n - 2, by omega⟩
    rw [Reads.readSimple_blank hc, hrun (by omega) hwords, List.append_assoc,
      List.singleton_append]
  | @word c script text rest texts hc hne hscript hbehind ih =>
    obtain ⟨read, hread, hrun⟩ := ih
    obtain ⟨word, hisRead, hdenotes, hempty⟩ := hscript.exists_word
    have hword : word ≠ [] := fun heq => hne (hempty heq)
    refine ⟨word :: read, .cons ⟨hword, hdenotes⟩ hread, ?_⟩
    intro n line words redirections s front hn hwords
    rw [List.length_cons, List.length_append] at hn
    obtain ⟨n, rfl⟩ : ∃ m, n = m + 2 := ⟨n - 2, by omega⟩
    have hatWord := hscript.atWord hne hbehind.isBlank_head?
    rw [Reads.readSimple_blank hc, Reads.readSimple_word hatWord hisRead hword (by omega)
      hbehind.isBlank_head?, hrun (by omega) (Or.inl (by simp))]
    simp only [List.append_assoc, List.cons_append, List.nil_append]

/-! ### Reserved words -/

namespace Reads

/-- Can a character be in a word that has a meaning in the shell's language? -/
def isBare (c : Char) : Bool :=
  !endsWord c && !(['\'', '"', '\\', '$', '\x60'].contains c)

theorem bareWord_run {bare behind : List Char} (hbare : ∀ c ∈ bare, isBare c = true)
    (hbehind : ∀ c ∈ behind.head?, isBare c = false) (s : Source) (front : List Char) :
    bareWord.run (s.past front (bare ++ behind)) = .ok (bare, s.past front (bare ++ behind)) := by
  have htake : (bare ++ behind).takeWhile isBare = bare := by
    rw [List.takeWhile_append_of_pos hbare]
    cases behind with
    | nil => exact List.append_nil bare
    | cons c behind =>
      rw [List.takeWhile_cons, hbehind c rfl, if_neg Bool.false_ne_true, List.append_nil]
  have hrun : bareWord.run (s.past front (bare ++ behind)) =
      .ok ((bare ++ behind).takeWhile isBare, s.past front (bare ++ behind)) := rfl
  rw [hrun, htake]

end Reads

/-- What is in front of quotes and backslashes in a word that is written. -/
theorem StandsFor.split_bare (h : StandsFor script text) :
    (∀ c ∈ script, Reads.isBare c = true) ∨
      ∃ bare c behind, script = bare ++ c :: behind ∧ (∀ c ∈ bare, Reads.isBare c = true) ∧
        c ∈ ['\'', '"', '\\'] := by
  induction h with
  | nil => exact Or.inl (by simp)
  | @plain c script text hc _ ih =>
    have hbare : Reads.isBare c = true := by
      simp only [IsPlain, List.mem_cons, List.not_mem_nil, or_false, not_or] at hc
      simp [Reads.isBare, Reads.endsWord, hc]
    obtain ih | ⟨bare, d, behind, rfl, ih, hd⟩ := ih
    · exact Or.inl (List.forall_mem_cons.2 ⟨hbare, ih⟩)
    · exact Or.inr ⟨c :: bare, d, behind, rfl, List.forall_mem_cons.2 ⟨hbare, ih⟩, hd⟩
  | escaped => exact Or.inr ⟨[], _, _, rfl, by simp, by decide⟩
  | quoted => exact Or.inr ⟨[], _, _, rfl, by simp, by decide⟩
  | doubled => exact Or.inr ⟨[], _, _, rfl, by simp, by decide⟩

/-- A word that is not written like a reserved one is not reserved. -/
theorem StandsFor.reserved?_eq_none (h : StandsFor script text)
    (hscript : ∀ word ∈ Reads.reserved, script ≠ word.toList)
    (hrest : ∀ c ∈ rest.head?, IsBlank c) (s : Source) (front : List Char) :
    Reads.reserved?.run (s.past front (script ++ rest)) =
      .ok (none, s.past front (script ++ rest)) := by
  rw [Reads.reserved?]
  obtain hbare | ⟨bare, c, behind, rfl, hbare, hc⟩ := h.split_bare
  · have hfind : Reads.reserved.find? (· = String.ofList script) = none := by
      rw [List.find?_eq_none]
      intro word hword heq
      exact hscript word hword (by rw [of_decide_eq_true heq, String.toList_ofList])
    have hstop : ∀ c ∈ rest.head?, Reads.isBare c = false := by
      intro c hc
      rw [Reads.isBare, (hrest c hc).endsWord, Bool.not_true, Bool.false_and]
    refine (Reads.run_bind_of_ok (Reads.bareWord_run hbare hstop s front) _).trans ?_
    rw [Reads.run_rest_bind, List.drop_left, hfind]
    split
    next => rfl
    next => split <;> rfl
  · have hquotes : ∀ c ∈ ['\'', '"', '\\'], Reads.isBare c = false ∧ Reads.endsWord c = false :=
      List.all_iff_forall_prop.1 (by decide)
    have hstop : ∀ d ∈ (c :: (behind ++ rest)).head?, Reads.isBare d = false := by
      rintro d ⟨⟩
      exact (hquotes c hc).1
    rw [List.append_assoc, List.cons_append]
    refine (Reads.run_bind_of_ok (Reads.bareWord_run hbare hstop s front) _).trans ?_
    rw [Reads.run_rest_bind, List.drop_left]
    dsimp only
    rw [(hquotes c hc).2, if_neg Bool.false_ne_true]
    rfl

/-! ### Whole lines -/

namespace Reads

variable {command : Command} {done : List Char}

/-- The name of a program begins a command. -/
theorem readCommand_atWord (h : AtWord rest)
    (hreserved : reserved?.run (s.past front rest) = .ok (none, s.past front rest)) :
    (readCommand (n + 1)).run (s.past front rest) =
      (readSimple n (s.past front rest).line [] []).run (s.past front rest) := by
  have hget : (get : Reads Source).run (s.past front rest) =
    .ok (s.past front rest, s.past front rest) := rfl
  rw [readCommand]
  refine (run_bind_of_ok (blanks_atWord h s front) _).trans ?_
  refine (run_bind_of_ok hget _).trans ?_
  refine (run_bind_of_ok (isAt_atWord h rfl (by decide) s front) _).trans ?_
  rw [if_neg Bool.false_ne_true]
  exact run_bind_of_ok hreserved _

/-- Nothing is behind a command at the end of the script, so it is the only one of its pipeline. -/
theorem readStages_of_readCommand
    (h : (readCommand n).run (s.past front rest) = .ok (command, s.past done [])) :
    (readStages (n + 1)).run (s.past front rest) = .ok ([command], s.past done []) := by
  rw [readStages]
  refine (run_bind_of_ok h _).trans ?_
  refine (run_bind_of_ok (blanks_atWord .nil s done) _).trans ?_
  refine (run_bind_of_ok (isAt_atWord .nil rfl (by decide) s done) _).trans ?_
  refine (run_bind_of_ok (isAt_atWord .nil rfl (by decide) s done) _).trans ?_
  rfl

theorem readPipeline_of_readCommand (hatWord : AtWord rest)
    (hreserved : reserved?.run (s.past front rest) = .ok (none, s.past front rest))
    (h : (readCommand n).run (s.past front rest) = .ok (command, s.past done [])) :
    (readPipeline (n + 2)).run (s.past front rest) = .ok (command, s.past done []) := by
  rw [readPipeline]
  refine (run_bind_of_ok (blanks_atWord hatWord s front) _).trans ?_
  refine (run_bind_of_ok hreserved _).trans ?_
  rw [if_neg (by simp)]
  exact run_bind_of_ok (readStages_of_readCommand h) _

theorem readJoined_nil (command : Command) (s : Source) (done : List Char) :
    (readJoined (n + 1) command).run (s.past done []) = .ok (command, s.past done []) := by
  rw [readJoined]
  refine (run_bind_of_ok (blanks_atWord .nil s done) _).trans ?_
  refine (run_bind_of_ok (isAt_atWord .nil rfl (by decide) s done) _).trans ?_
  rw [if_neg Bool.false_ne_true]
  refine (run_bind_of_ok (isAt_atWord .nil rfl (by decide) s done) _).trans ?_
  rfl

theorem readEntry_of_readPipeline
    (h : (readPipeline (n + 1)).run (s.past front rest) = .ok (command, s.past done [])) :
    (readEntry (n + 2)).run (s.past front rest) = .ok ((command, false), s.past done []) := by
  rw [readEntry]
  refine (run_bind_of_ok h _).trans ?_
  refine (run_bind_of_ok (readJoined_nil command s done) _).trans ?_
  refine (run_bind_of_ok (blanks_atWord .nil s done) _).trans ?_
  refine (run_bind_of_ok (isAt_atWord .nil rfl (by decide) s done) _).trans ?_
  rw [if_neg Bool.false_ne_true]
  refine (run_bind_of_ok (isAt_atWord .nil rfl (by decide) s done) _).trans ?_
  refine (run_bind_of_ok (isAt_atWord .nil rfl (by decide) s done) _).trans ?_
  rw [Bool.false_and, if_neg Bool.false_ne_true]
  exact run_bind_of_ok (isAt_atWord .nil rfl (by decide) s done) _

theorem readRow_of_readEntry (hs : s.awaited = [])
    (h : (readEntry n).run (s.past front rest) = .ok ((command, false), s.past done [])) :
    (readRow (n + 1)).run (s.past front rest) = .ok (command, s.past done []) := by
  have hget : (get : Reads Source).run (s.past done []) = .ok (s.past done [], s.past done []) := rfl
  have hdocuments : (readDocuments n (s.past done []).awaited).run (s.past done []) =
      .ok ((), s.past done []) := by
    have hawaited : (s.past done []).awaited = [] := hs
    have hmodify : (readDocuments n []).run (s.past done []) =
        .ok ((), { s.past done [] with awaited := [] }) := by
      rw [readDocuments]
      rfl
    rw [hawaited, hmodify, ← hawaited]
  rw [readRow]
  refine (run_bind_of_ok h _).trans ?_
  refine (run_bind_of_ok (blanks_atWord .nil s done) _).trans ?_
  rw [run_rest_bind, List.isEmpty_nil, if_pos rfl]
  refine (run_bind_of_ok hget _).trans ?_
  exact run_bind_of_ok hdocuments _

/-- Only blanks are in front of the first word of a line. -/
theorem readLineEnds_atWord {gap : List Char} (hgap : ∀ c ∈ gap, IsBlank c) (h : AtWord rest)
    (s : Source) (front : List Char) :
    (readLineEnds (n + 1)).run (s.past front (gap ++ rest)) =
      .ok ((), s.past (front ++ gap) rest) := by
  rw [readLineEnds]
  refine (run_bind_of_ok ((blanks_blanks hgap s front rest).trans
    (blanks_atWord h s (front ++ gap))) _).trans ?_
  exact run_bind_of_ok (isAt_atWord h rfl (by decide) s (front ++ gap)) _

end Reads

/-- A whole line is read as one command, and nothing is left of it. -/
theorem IsCall.exists_words (h : IsCall rest texts) :
    ∃ words, List.Forall₂ IsWord words texts ∧
      ∀ (s : Source) (front : List Char), s.awaited = [] →
        Reads.readLine.run (s.past front rest) =
          .ok (some (.simple (s.past front rest).line words []), s.past (front ++ rest) []) := by
  obtain @⟨gap, script, text, line, texts, hgap, hne, hreserved, hscript, hbehind⟩ := h
  obtain ⟨word, hisRead, hdenotes, hempty⟩ := hscript.exists_word
  obtain ⟨read, hread, hrun⟩ := hbehind.exists_read
  have hword : word ≠ [] := fun heq => hne (hempty heq)
  refine ⟨word :: read, .cons ⟨hword, hdenotes⟩ hread, ?_⟩
  intro s front hs
  have hatWord := hscript.atWord hne hbehind.isBlank_head?
  have hnone := hscript.reserved?_eq_none hreserved hbehind.isBlank_head? s (front ++ gap)
  -- blanks do not change the line number
  have hline : (s.past (front ++ gap) (script ++ line)).line =
      (s.past front (gap ++ (script ++ line))).line := by
    have hcount : gap.count '\n' = 0 := by
      rw [List.count_eq_zero]
      intro hmem
      obtain heq | heq := hgap _ hmem <;> cases heq
    simp only [Source.past, List.count_append, hcount, Nat.add_zero]
  obtain ⟨n, hn⟩ : ∃ n, 12 * (gap ++ (script ++ line)).length + 100 = n + 6 :=
    ⟨12 * (gap ++ (script ++ line)).length + 94, rfl⟩
  have hlength : (gap ++ (script ++ line)).length = gap.length + (script.length + line.length) := by
    simp
  have hcommand : (Reads.readCommand (n + 2)).run (s.past (front ++ gap) (script ++ line)) =
      .ok (.simple (s.past front (gap ++ (script ++ line))).line (word :: read) [],
        s.past (front ++ gap ++ script ++ line) []) := by
    rw [Reads.readCommand_atWord hatWord hnone, Reads.readSimple_word hatWord hisRead hword
      (by omega) hbehind.isBlank_head?, hline, hrun (by omega) (Or.inl (by simp))]
    rfl
  -- each level of the reader passes the one command on
  have hrow := Reads.readRow_of_readEntry hs (Reads.readEntry_of_readPipeline
    (Reads.readPipeline_of_readCommand hatWord hnone hcommand))
  have hnonempty : (script ++ line).isEmpty = false := by
    simp [hne]
  rw [Reads.readLine, Reads.run_rest_bind, hn]
  refine (Reads.run_bind_of_ok (Reads.readLineEnds_atWord hgap hatWord s front) _).trans ?_
  rw [Reads.run_rest_bind, hnonempty, if_neg Bool.false_ne_true]
  refine (Reads.run_bind_of_ok hrow _).trans ?_
  simp only [List.append_assoc]
  rfl

/-! ### Running -/

/-- At the end of the script there is no command any more. -/
theorem Reads.readLine_nil (hs : s.rest = []) : readLine.run s = .ok (none, s) := by
  have hpast : s.past [] [] = s := by
    cases s
    cases hs
    rfl
  rw [← hpast, readLine, run_rest_bind]
  refine (run_bind_of_ok (readLineEnds_atWord (List.forall_mem_nil _) .nil s []) _).trans ?_
  rfl

theorem interpretLines_nil (hs : s.rest = []) (n : ℕ) (tested : Bool) (started : State) :
    interpretLines (n + 1) tested true s started = started := by
  rw [interpretLines, Reads.readLine_nil hs]
  rfl

/-- The command of the last line is run, and then the script ends. -/
theorem interpretLines_last {command : Command} {started : State}
    (h : Reads.readLine.run s = .ok (some command, t)) (hrest : t.rest = [])
    (hdocuments : t.documents = []) (hnext : t.next = started.nextDocument) (n : ℕ)
    (tested hasRun : Bool) :
    interpretLines (n + 2) tested hasRun s started =
      execute (n + 1) tested command
        (if started.has 'v' then started.write 2 s.rest else started) := by
  have hstarted : { started with
      documents := t.documents ++ started.documents, nextDocument := t.next } = started := by
    rw [hdocuments, hnext, List.nil_append]
  have htext : s.rest.take (s.rest.length - t.rest.length) = s.rest := by
    rw [hrest, List.length_nil, Nat.sub_zero, List.take_length]
  rw [interpretLines, h]
  dsimp only
  rw [hstarted, htext]
  generalize execute (n + 1) tested command _ = after
  rw [interpretLines_nil, ite_self]
  exact hrest

/-- Running the line is running the one command, with a word for each text. -/
theorem IsCall.exists_run (h : IsCall script texts) :
    ∃ words, List.Forall₂ IsWord words texts ∧
      ∀ (n : ℕ) (tested : Bool) (line : ℕ) (s : State),
        interpret (n + 3) tested script line s =
          execute (n + 1) tested (.simple line words [])
            (if s.has 'v' then s.write 2 script else s) := by
  obtain ⟨words, hwords, hread⟩ := h.exists_words
  refine ⟨words, hwords, ?_⟩
  intro n tested line s
  have hrun := hread { rest := script, line, next := s.nextDocument } [] rfl
  rw [interpret]
  exact interpretLines_last hrun rfl rfl rfl n tested false

/-! ### The words of a command -/

/-- Assignments are the first words of a command, and no word behind them is lost. -/
theorem splitAssignments_snd (words : List Word) :
    (splitAssignments words).2 = words.drop (splitAssignments words).1.length := by
  fun_induction splitAssignments words with
  | case1 => rfl
  | case2 => rfl
  | case3 word rest assignment hword assignments words hrest ih =>
    rw [hrest] at ih
    exact ih

/-- A word that does not begin like a name is no assignment. -/
theorem IsWord.assignment?_eq_none (h : IsWord word text)
    (htext : ∀ c ∈ text.head?, isNameStart c = false) : word.assignment? = none := by
  rw [Option.eq_none_iff_forall_not_mem]
  rintro ⟨name, value⟩ hassignment
  obtain ⟨hname, behind, -, rfl⟩ := h.denotes.assignment? hassignment
  cases name with
  | nil => exact Bool.false_ne_true hname
  | cons c name =>
    rw [isName, htext c rfl, Bool.false_and] at hname
    exact Bool.false_ne_true hname

theorem length_splitAssignments_le {more : List (List Char)}
    (h : List.Forall₂ IsWord words (texts ++ text :: more))
    (htext : ∀ c ∈ text.head?, isNameStart c = false) :
    (splitAssignments words).1.length ≤ texts.length := by
  induction texts generalizing words with
  | nil =>
    obtain _ | ⟨hword, -⟩ := h
    rw [splitAssignments, hword.assignment?_eq_none htext]
    rfl
  | cons first texts ih =>
    obtain _ | @⟨word, _, words, _, -, hwords⟩ := h
    rw [splitAssignments]
    split
    next => exact Nat.zero_le _
    next => exact Nat.succ_le_succ (ih hwords)

/-- What is called is the texts of the words behind the assignments. -/
theorem expandCommand_splitAssignments {started : State} {interpret : Interpreter}
    (h : List.Forall₂ IsWord words texts) (hs : started.leaving = none) :
    expandCommand interpret (splitAssignments words).2 started =
      (texts.drop (splitAssignments words).1.length, started) := by
  rw [splitAssignments_snd]
  exact expandCommand_of_isWord (List.forall₂_drop _ h) hs

/-- A line that calls a program is one command. What does not begin like a name, and what is behind it,
are arguments of the program. -/
theorem IsCall.runsCommand {argument : List Char} {more : List (List Char)}
    (h : IsCall script (texts ++ argument :: more))
    (hargument : ∀ c ∈ argument.head?, isNameStart c = false) :
    RunsCommand script texts (argument :: more) := by
  obtain ⟨words, hwords, hrun⟩ := h.exists_run
  have hle := length_splitAssignments_le hwords hargument
  refine ⟨words, hrun, hle, ?_⟩
  intro interpret s hs
  rw [expandCommand_splitAssignments hwords hs, List.drop_append_of_le_length hle]

end ExpectError.Shell
