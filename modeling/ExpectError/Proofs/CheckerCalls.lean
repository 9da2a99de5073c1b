import ExpectError.Checker.Command
import ExpectError.Proofs.CommandLines
import ExpectError.Proofs.EncodedTexts
import ExpectError.Proofs.TextFields

/-!
# Checkers that a shell calls

The shell that runs a checker with arguments gets the bytes of a line that has been put together from
texts. Every byte of a character that is not an ASCII one stands for itself in a script, so the bytes
of what writes a text write the bytes of the text. The path of the configuration, quoted, is one word
for the shell, whatever it holds, and so it adds one argument to the command and nothing else.

* `StandsFor.ofText`, `IsCall.ofText`: written words and lines as bytes;
* `Checker.shellLine_adds_path`: the words of the line, and the command that is run.
-/

namespace ExpectError

namespace Shell

variable {c d : Char} {script other text more line : List Char} {texts : List (List Char)}

/-! ### The bytes of texts -/

namespace Octets

theorem ofText_eq (text : List Char) :
    ofText text = ofBytes (text.flatMap String.utf8EncodeChar) := by
  rw [ofText, Text.toList_toUTF8_ofList]

@[simp] theorem ofText_nil : ofText [] = [] := by
  rw [ofText_eq]
  rfl

@[simp] theorem ofText_append (text more : List Char) :
    ofText (text ++ more) = ofText text ++ ofText more := by
  rw [ofText_eq, ofText_eq, ofText_eq, List.flatMap_append, ofBytes, List.map_append]
  rfl

theorem ofText_cons (c : Char) (text : List Char) :
    ofText (c :: text) = ofText [c] ++ ofText text :=
  ofText_append [c] text

/-- The bytes of a character of ASCII are the character. -/
theorem ofText_of_lt (hc : c.toNat < 128) : ofText [c] = [c] := by
  have hascii : c.val.toNat ≤ 0x7f := Nat.le_of_lt_succ hc
  have hencode : String.utf8EncodeChar c = [UInt8.ofNat c.toNat] := by
    rw [String.utf8EncodeChar, if_pos hascii]
    rfl
  have hbyte : (UInt8.ofNat c.toNat).toNat = c.toNat := by
    rw [UInt8.toNat_ofNat']
    omega
  rw [ofText_eq, List.flatMap_singleton, hencode]
  show [Char.ofNat (UInt8.ofNat c.toNat).toNat] = [c]
  rw [hbyte, Char.ofNat_toNat]

theorem ofText_cons_of_lt (hc : c.toNat < 128) (text : List Char) :
    ofText (c :: text) = c :: ofText text := by
  rw [ofText_cons, ofText_of_lt hc, List.singleton_append]

/-- Every byte of another character is none of ASCII. -/
theorem le_of_mem_utf8EncodeChar (hc : ¬c.toNat < 128) :
    ∀ byte ∈ String.utf8EncodeChar c, 128 ≤ byte.toNat := by
  have hascii : ¬c.val.toNat ≤ 0x7f := fun h => hc (Nat.lt_succ_of_le h)
  unfold String.utf8EncodeChar
  generalize c.val.toNat = n at hascii ⊢
  dsimp only
  rw [if_neg hascii]
  split_ifs <;>
    simp only [List.mem_cons, List.not_mem_nil, or_false, forall_eq_or_imp, forall_eq,
      UInt8.toNat_ofNat'] <;> omega

theorem le_of_mem_ofText_singleton (hc : ¬c.toNat < 128) : ∀ d ∈ ofText [c], 128 ≤ d.toNat := by
  intro d hd
  rw [ofText_eq, List.flatMap_singleton] at hd
  obtain ⟨byte, hbyte, rfl⟩ := List.mem_map.1 hd
  have hlt := byte.toNat_lt
  have hvalid : byte.toNat.isValidChar := Or.inl (by omega)
  rw [Char.ofNat, dif_pos hvalid]
  exact le_of_mem_utf8EncodeChar hc byte hbyte

theorem ofText_singleton (c : Char) : ofText [c] = [c] ∨ ∀ d ∈ ofText [c], 128 ≤ d.toNat := by
  by_cases hc : c.toNat < 128
  · exact Or.inl (ofText_of_lt hc)
  · exact Or.inr (le_of_mem_ofText_singleton hc)

/-- No character of ASCII comes from another one. -/
theorem mem_or_le_of_mem_ofText (hd : d ∈ ofText text) : d ∈ text ∨ 128 ≤ d.toNat := by
  induction text with
  | nil => simp at hd
  | cons c text ih =>
    rw [ofText_cons, List.mem_append] at hd
    obtain hd | hd := hd
    · obtain hc | hc := ofText_singleton c
      · rw [hc, List.mem_singleton] at hd
        exact Or.inl (hd ▸ List.mem_cons_self)
      · exact Or.inr (hc d hd)
    · exact (ih hd).imp_left (List.mem_cons_of_mem c)

theorem notMem_ofText (hc : c.toNat < 128) (h : c ∉ text) : c ∉ ofText text := fun hmem =>
  (mem_or_le_of_mem_ofText hmem).elim h (Nat.not_le.2 hc)

theorem ofText_ne_nil (h : text ≠ []) : ofText text ≠ [] := by
  obtain ⟨c, text, rfl⟩ := List.exists_cons_of_ne_nil h
  rw [ofText_eq, List.flatMap_cons, ofBytes, List.map_append]
  intro heq
  exact String.utf8EncodeChar_ne_nil (List.map_eq_nil_iff.1 (List.append_eq_nil_iff.1 heq).1)

theorem ofText_eq_self (h : ∀ c ∈ text, c.toNat < 128) : ofText text = text := by
  induction text with
  | nil => exact ofText_nil
  | cons c text ih =>
    obtain ⟨hc, htext⟩ := List.forall_mem_cons.1 h
    rw [ofText_cons_of_lt hc, ih htext]

/-- Bytes of ASCII are those of themselves alone. -/
theorem eq_of_ofText_eq (h : ofText text = more) (hmore : ∀ d ∈ more, d.toNat < 128) :
    text = more := by
  have hascii : ∀ c ∈ text, c.toNat < 128 := by
    intro c hc
    by_contra hlt
    obtain ⟨front, behind, rfl⟩ := List.append_of_mem hc
    obtain ⟨d, hd⟩ := List.exists_mem_of_ne_nil _ (ofText_ne_nil (List.cons_ne_nil c []))
    have hmem : d ∈ more := by
      rw [← h, ofText_append, ofText_cons]
      exact List.mem_append_right _ (List.mem_append_left _ hd)
    exact absurd (hmore d hmem) (Nat.not_lt.2 (le_of_mem_ofText_singleton hlt d hd))
  rw [← h, ofText_eq_self hascii]

end Octets

/-! ### Written words as bytes -/

theorem isPlain_of_le (hc : 128 ≤ c.toNat) : IsPlain c := by
  intro hmem
  have hascii : ∀ d ∈ [' ', '\t', '\n', ';', '&', '|', '<', '>', '(', ')', '\'', '"', '\\', '$',
      '\x60', '*', '?', '[', '#', '~'], d.toNat < 128 :=
    List.all_iff_forall_prop.1 (by decide)
  exact absurd (hascii c hmem) (Nat.not_lt.2 hc)

theorem StandsFor.append (h : StandsFor script text) (hother : StandsFor other more) :
    StandsFor (script ++ other) (text ++ more) := by
  induction h with
  | nil => exact hother
  | plain hc _ ih => exact .plain hc ih
  | escaped hc _ ih => exact .escaped hc ih
  | quoted hinner _ ih =>
    rw [List.append_assoc, List.cons_append, List.append_assoc, List.cons_append]
    exact .quoted hinner ih
  | doubled hinner _ ih =>
    rw [List.append_assoc, List.cons_append, List.append_assoc, List.cons_append]
    exact .doubled hinner ih

theorem standsFor_self (h : ∀ c ∈ text, IsPlain c) : StandsFor text text := by
  induction text with
  | nil => exact .nil
  | cons c text ih =>
    obtain ⟨hc, htext⟩ := List.forall_mem_cons.1 h
    exact .plain hc (ih htext)

theorem standsFor_ofText_singleton (hc : IsPlain c) :
    StandsFor (Octets.ofText [c]) (Octets.ofText [c]) := by
  apply standsFor_self
  intro d hd
  obtain hd | hd := Octets.mem_or_le_of_mem_ofText hd
  · rw [List.mem_singleton.1 hd]
    exact hc
  · exact isPlain_of_le hd

/-- The bytes of what stands for a text stand for the bytes of the text. -/
theorem StandsFor.ofText (h : StandsFor script text) :
    StandsFor (Octets.ofText script) (Octets.ofText text) := by
  induction h with
  | nil =>
    rw [Octets.ofText_nil]
    exact .nil
  | @plain c script text hc _ ih =>
    rw [Octets.ofText_cons c script, Octets.ofText_cons c text]
    exact (standsFor_ofText_singleton hc).append ih
  | @escaped c script text hc _ ih =>
    rw [Octets.ofText_cons_of_lt (by decide), Octets.ofText_cons c script,
      Octets.ofText_cons c text]
    obtain heq | hle := Octets.ofText_singleton c
    · rw [heq]
      exact .escaped hc ih
    · -- the backslash is in front of the first byte, and the others are plain
      obtain ⟨d, bytes, heq⟩ := List.exists_cons_of_ne_nil
        (Octets.ofText_ne_nil (List.cons_ne_nil c []))
      rw [heq] at hle ⊢
      obtain ⟨hd, hbytes⟩ := List.forall_mem_cons.1 hle
      have hne : d ≠ '\n' := by
        rintro rfl
        exact absurd hd (by decide)
      exact .escaped hne ((standsFor_self fun e he => isPlain_of_le (hbytes e he)).append ih)
  | @quoted inner script text hinner _ ih =>
    rw [Octets.ofText_cons_of_lt (by decide), Octets.ofText_append,
      Octets.ofText_cons_of_lt (by decide), Octets.ofText_append]
    exact .quoted (Octets.notMem_ofText (by decide) hinner) ih
  | @doubled inner script text hinner _ ih =>
    rw [Octets.ofText_cons_of_lt (by decide), Octets.ofText_append,
      Octets.ofText_cons_of_lt (by decide), Octets.ofText_append]
    refine .doubled ?_ ih
    intro d hd hmem
    have hascii : ∀ c ∈ ['"', '\\', '$', '\x60'], c.toNat < 128 :=
      List.all_iff_forall_prop.1 (by decide)
    obtain hd | hd := Octets.mem_or_le_of_mem_ofText hd
    · exact hinner d hd hmem
    · exact absurd (hascii d hmem) (Nat.not_lt.2 hd)

theorem IsBlank.lt (h : IsBlank c) : c.toNat < 128 := by
  obtain rfl | rfl := h <;> decide

theorem Words.ofText (h : Words line texts) :
    Words (Octets.ofText line) (texts.map Octets.ofText) := by
  induction h with
  | nil =>
    rw [Octets.ofText_nil]
    exact .nil
  | blank hc _ ih =>
    rw [Octets.ofText_cons_of_lt hc.lt]
    exact .blank hc ih
  | word hc hne hscript _ ih =>
    rw [Octets.ofText_cons_of_lt hc.lt, Octets.ofText_append]
    exact .word hc (Octets.ofText_ne_nil hne) hscript.ofText ih

/-- The bytes of a call are a call, by the bytes of the texts. -/
theorem IsCall.ofText (h : IsCall line texts) :
    IsCall (Octets.ofText line) (texts.map Octets.ofText) := by
  obtain ⟨hgap, hne, hreserved, hscript, hbehind⟩ := h
  rw [Octets.ofText_append, Octets.ofText_append]
  refine .intro ?_ (Octets.ofText_ne_nil hne) ?_ hscript.ofText hbehind.ofText
  · rw [Octets.ofText_eq_self fun c hc => (hgap c hc).lt]
    exact hgap
  · have hascii : ∀ word ∈ Reads.reserved, word.toList.all (·.toNat < 128) := by decide
    intro word hword heq
    have hlt := List.all_iff_forall_prop.1 (hascii word hword)
    exact hreserved word hword (Octets.eq_of_ofText_eq heq hlt)

theorem IsWord.isField {word : Word} (h : IsWord word text) : IsField word text :=
  fun _ _ hs => h.denotes.expandFields_eq h.ne_nil hs

end Shell

namespace Checker

open Shell

theorem shellLine_eq (command : List Char) (config : Pathname) :
    shellLine command config =
      command ++ (options.flatMap (' ' :: ·) ++ [quote config.text].flatMap (' ' :: ·)) := by
  have hline := Text.flatMap_eq_cons_intercalate ' '
    (List.cons_ne_nil command (options ++ [quote config.text]))
  rw [List.flatMap_cons, List.cons_append, List.flatMap_append] at hline
  exact (List.cons.inj hline).2.symm

/-- Behind the command the line writes the options and the path. -/
theorem words_arguments (config : Pathname) :
    Words (options.flatMap (' ' :: ·) ++ [quote config.text].flatMap (' ' :: ·))
      (options ++ [config.text]) := by
  have hplain : ∀ option ∈ options, option ≠ [] ∧ option.all (IsPlain ·) := by decide
  have hoptions : ∀ option ∈ options, option ≠ [] ∧ StandsFor option option := by
    intro option hoption
    obtain ⟨hne, hall⟩ := hplain option hoption
    exact ⟨hne, standsFor_self (List.all_iff_forall_prop.1 hall)⟩
  apply Words.append
  · exact .flatMap (List.forall₂_same.2 hoptions)
  · exact .flatMap (.cons ⟨List.cons_ne_nil _ _, standsFor_quote config.text⟩ .nil)

/-- The path of the configuration is one argument, whatever it holds. Its quotation stands for the
path and for no other text, and is read as one word, which is one field in every state of a shell.
What the line has behind the command is read as the options and the path, wherever in a command it
stands. So a line that calls a program is run as one command, which the options and the path are
arguments of. -/
theorem shellLine_adds_path (config : Pathname) :
    (∀ text, StandsFor (quote config.text) text ↔ text = config.text) ∧
    (∃ word, IsRead (Octets.ofText (quote config.text)) word ∧
      IsField word (Octets.ofText config.text)) ∧
    (∃ behind words, (∀ command, shellLine command config = command ++ behind) ∧
      IsReadAs (Octets.ofText behind) words ∧
      List.Forall₂ IsField words ((options ++ [config.text]).map Octets.ofText)) ∧
    ∀ (command : String) (folder : Pathname) (texts : List (List Char)),
      ' ' ∈ Text.trim command.toList → IsCall command.toList texts →
      invocation command folder config =
        { program := "sh".toList
          arguments := ["-c".toList, shellLine command.toList config]
          folder } ∧
      RunsCommand (Octets.ofText (shellLine command.toList config)) (texts.map Octets.ofText)
        ((options ++ [config.text]).map Octets.ofText) := by
  have harguments := words_arguments config
  refine ⟨?_, ?_, ?_, ?_⟩
  · intro text
    constructor
    · intro h
      exact h.unique (standsFor_quote config.text)
    · rintro rfl
      exact standsFor_quote config.text
  · obtain ⟨word, hread, hdenotes, hempty⟩ := (standsFor_quote config.text).ofText.exists_word
    have hword : IsWord word (Octets.ofText config.text) :=
      ⟨fun heq => Octets.ofText_ne_nil (List.cons_ne_nil _ _) (hempty heq), hdenotes⟩
    exact ⟨word, hread, hword.isField⟩
  · obtain ⟨words, hwords, hread⟩ := harguments.ofText.exists_read
    exact ⟨_, words, fun command => shellLine_eq command config, hread,
      hwords.imp fun _ _ hword => hword.isField⟩
  · intro command folder texts hblank hcall
    have hline := (hcall.append harguments).ofText
    -- the options begin with a hyphen, so none of them can be taken for an assignment
    have hoption : ∀ c ∈ (Octets.ofText "--noEmit".toList).head?, isNameStart c = false := by
      rw [Octets.ofText_eq_self (List.all_iff_forall_prop.1 (by decide))]
      rintro c ⟨⟩
      rfl
    rw [← shellLine_eq, List.map_append] at hline
    refine ⟨?_, hline.runsCommand hoption⟩
    rw [invocation, if_pos (List.contains_iff_mem.2 hblank)]

/-- A path that is full of what has a meaning for a shell. -/
theorem shellLine_adds_path_of_npx :
    ' ' ∈ Text.trim "npx tsc".toList ∧ IsCall "npx tsc".toList ["npx".toList, "tsc".toList] ∧
    invocation "npx tsc" ⟨['/']⟩ ⟨"/it's; $(a) \x60b\x60\n".toList⟩ =
      { program := "sh".toList
        arguments := ["-c".toList,
          "npx tsc --noEmit --pretty true -p '/it'\\''s; $(a) \x60b\x60\n'".toList]
        folder := ⟨['/']⟩ } ∧
    RunsCommand
      (Octets.ofText "npx tsc --noEmit --pretty true -p '/it'\\''s; $(a) \x60b\x60\n'".toList)
      (["npx".toList, "tsc".toList].map Octets.ofText)
      ((options ++ ["/it's; $(a) \x60b\x60\n".toList]).map Octets.ofText) := by
  have hblank : ' ' ∈ Text.trim "npx tsc".toList := by decide
  have hcall : IsCall "npx tsc".toList ["npx".toList, "tsc".toList] := by
    have hnpx : StandsFor "npx".toList "npx".toList :=
      standsFor_self (List.all_iff_forall_prop.1 (by decide))
    have htsc : StandsFor "tsc".toList "tsc".toList :=
      standsFor_self (List.all_iff_forall_prop.1 (by decide))
    show IsCall ([] ++ ("npx".toList ++ (' ' :: ("tsc".toList ++ [])))) _
    exact .intro (List.forall_mem_nil _) (by decide) (by decide) hnpx
      (.word (Or.inl rfl) (by decide) htsc .nil)
  obtain ⟨-, -, -, h⟩ := shellLine_adds_path ⟨"/it's; $(a) \x60b\x60\n".toList⟩
  obtain ⟨hinvocation, hruns⟩ := h "npx tsc" ⟨['/']⟩ _ hblank hcall
  exact ⟨hblank, hcall, hinvocation, hruns⟩

end Checker

end ExpectError
