import ExpectError.Proofs.ParsedArena
import ExpectError.Proofs.Trivia

/-!
# Tokens cover the text

No part of a text is lost, however it is read: from its start to its end there are the consumed tokens
and what separates them, and nothing else. A token is recorded when it is consumed, the next one is
found behind what separates the two, and reading it anew does not move its start. What has been read in
vain is dropped with its tokens. So the tokens are in the order of the text, and halving finds among
them what looking at one after the other would find.

* `Covered`: a part of a text is made up of tokens and of what separates them;
* `CoversSoFar`: the text up to the token at hand has been covered, a property that every move keeps;
* `partitionPoint_eq_countP`: what halving finds;
* `Parser.Reads.tokens_cover`: the tokens of a text that has been read.
-/

namespace ExpectError.Grammar

open Text

variable {α : Type} {rules : Rules} {context : Context} {s t : State} {dialect : Dialect}
  {text : List Char} {parsed : Parsed} {start stop : ℕ} {token : Token} {tokens : List Token}

/-! ### Tokens and what separates them -/

/-- From one offset of a text to another there are the tokens of a list, in their order, each with at
least one byte, and what separates them. -/
def Covered (text : List Char) (start stop : ℕ) : List Token → Prop
  | [] => Separated text start stop
  | token :: tokens =>
    Separated text start token.start ∧ token.start < token.stop ∧ Covered text token.stop stop tokens

namespace Covered

theorem le (h : Covered text start stop tokens) : start ≤ stop := by
  induction tokens generalizing start with
  | nil => exact Separated.le h
  | cons token tokens ih =>
    obtain ⟨hseparated, hlt, htokens⟩ := h
    exact (hseparated.le.trans hlt.le).trans (ih htokens)

theorem isBoundary_start (h : Covered text start stop tokens) : IsBoundary text start := by
  cases tokens with
  | nil => exact Separated.isBoundary_start h
  | cons token tokens => exact h.1.isBoundary_start

/-- One more token, and what separates it from the next one. -/
theorem concat (h : Covered text start token.start tokens) (hlt : token.start < token.stop)
    (hnext : Separated text token.stop stop) : Covered text start stop (tokens ++ [token]) := by
  induction tokens generalizing start with
  | nil => exact ⟨h, hlt, hnext⟩
  | cons first tokens ih => exact ⟨h.1, h.2.1, ih h.2.2⟩

theorem of_mem (h : Covered text start stop tokens) (htoken : token ∈ tokens) :
    start ≤ token.start ∧ token.start < token.stop ∧ token.stop ≤ stop ∧
      IsBoundary text token.start ∧ IsBoundary text token.stop := by
  induction tokens generalizing start with
  | nil => cases htoken
  | cons first tokens ih =>
    obtain ⟨hseparated, hlt, htokens⟩ := h
    rcases List.mem_cons.1 htoken with rfl | htoken
    · exact ⟨hseparated.le, hlt, htokens.le, hseparated.isBoundary_stop, htokens.isBoundary_start⟩
    · obtain ⟨hle, hrest⟩ := ih htokens htoken
      exact ⟨(hseparated.le.trans hlt.le).trans hle, hrest⟩

theorem pairwise (h : Covered text start stop tokens) :
    tokens.Pairwise fun token later => token.stop ≤ later.start := by
  induction tokens generalizing start with
  | nil => exact .nil
  | cons token tokens ih =>
    obtain ⟨-, -, htokens⟩ := h
    exact .cons (fun later hlater => (htokens.of_mem hlater).1) (ih htokens)

end Covered

/-! ### Along a run -/

/-- The text up to the token at hand has been covered; the tokens are those consumed, the last one
first. -/
structure CoversSoFar (text : List Char) (scanner : Scanner) (tokens : List Token) : Prop where
  sound : scanner.Sound text
  full : scanner.Full
  closed : scanner.Closed
  covered : Covered text 0 scanner.start.pos tokens.reverse

theorem CoversSoFar.advance (h : CoversSoFar text s.scanner s.tokens) (scan : Scan) :
    CoversSoFar text (s.advance scan).scanner (s.advance scan).tokens where
  sound := State.sound_scan scan h.sound
  full := scan.full_apply s.scanner
  closed := scan.closed_apply s.scanner
  covered := by
    simp only [State.advance, State.consume]
    split
    next hlt =>
      rw [List.reverse_cons]
      exact Covered.concat h.covered hlt (scan.separated_apply h.sound)
    next hnone =>
      rw [scan.start_apply_of_full h.sound h.full hnone]
      exact h.covered

theorem CoversSoFar.rescan (h : CoversSoFar text s.scanner s.tokens) (scan : Rescan) :
    CoversSoFar text (s.rescan scan).scanner (s.rescan scan).tokens := by
  have hsame := State.sameStart_rescan scan h.sound
  have hstart : (scan.apply s.scanner).start = s.scanner.start := hsame.start_eq
  exact ⟨h.sound.of_sameStart hsame, scan.full_apply h.sound h.full, scan.closed_apply h.sound h.closed,
    hstart ▸ h.covered⟩

theorem coversSoFar_first (text : List Char) :
    CoversSoFar text (Scanner.ofText text).next [] where
  sound := Scanner.sound_next (.refl _)
  full := Scan.full_apply .code _
  closed := Scan.closed_apply .code _
  covered := separated_toToken (.refl _)

theorem exists_of_iterate {step : Action (Option α)} {n : ℕ} {a : α}
    (hrun : iterate step n context s = some (a, t)) : ∃ u, step context u = some (some a, t) := by
  induction n generalizing s with
  | zero => cases hrun
  | succ n ih =>
    simp only [iterate] at hrun
    split at hrun
    next => cases hrun
    next hstep => cases hrun; exact ⟨s, hstep⟩
    next => exact ih hrun

/-- Items are read until there is one of the tokens up to which they are read. -/
theorem kind_mem_of_itemsUntil {stops : List TokenKind} {problem : SyntaxProblem} {item : Reader Unit}
    (hrun : (itemsUntil stops problem item).run rules context s = some ((), t)) :
    t.scanner.kind ∈ stops := by
  obtain ⟨u, hstep⟩ := exists_of_iterate hrun
  obtain ⟨again, v, hagain, hstop⟩ := run_bind_eq_some.1 hstep
  obtain ⟨found, w, hfound, hrest⟩ := run_bind_eq_some.1 hagain
  obtain ⟨kind, _, hkind, hcontains⟩ := run_bind_eq_some.1 hfound
  cases hkind
  cases hcontains
  cases again with
  | true => cases hstop
  | false =>
    cases hstop
    split at hrest
    next hmem =>
      cases hrest
      exact List.contains_iff_mem.1 hmem
    next =>
      -- an item that was read, or a token that was skipped, is not the last step
      obtain ⟨kept, _, -, hkept⟩ := run_bind_eq_some.1 hrest
      cases kept with
      | true => cases hkept
      | false => cases hkept

/-- When the readers have come to the end of a text, they have covered it. -/
theorem covered_of_run {rounds levels : ℕ}
    (hrun : wholeText.run (rulesWithin levels) (.whole rounds dialect)
      { scanner := Scanner.ofText text } = some ((), s)) :
    Covered text 0 (byteLength text) s.tokens.reverse := by
  obtain ⟨_, first, hfirst, hitems⟩ := run_bind_eq_some.1 hrun
  cases hfirst
  have hend : s.scanner.kind = .endOfFile := List.mem_singleton.1 (kind_mem_of_itemsUntil hitems)
  have hsofar : CoversSoFar text s.scanner s.tokens :=
    invariant_run (fun _ scan h => h.advance scan) (fun _ scan h => h.rescan scan)
      (coversSoFar_first text) hitems
  obtain ⟨passed, hpassed, hpos⟩ := hsofar.sound.reached
  have hstart : s.scanner.start.pos = byteLength text := by
    rw [hsofar.closed hend, List.append_nil] at hpassed
    simpa [Cursor.ofText, ← hpassed] using hpos
  exact hstart ▸ hsofar.covered

/-! ### Looking up tokens -/

/-- Among places of which the first `n` have a property, halving finds the last one of these. -/
theorem searchFrom_eq {p : ℕ → Bool} {n base size : ℕ} (hp : ∀ place, p place = true ↔ place < n)
    (hbase : base ≤ n - 1) (hn : n ≤ base + size) : searchFrom p base size = n - 1 := by
  fun_induction searchFrom p base size with
  | case1 base size hsize => omega
  | case2 base size hsize half ih =>
    have hhalf : half = size / 2 := rfl
    simp only [dite_eq_ite] at ih
    refine ih ?_ ?_
    · split_ifs with hplace
      · have := (hp _).1 hplace
        omega
      · exact hbase
    · split_ifs with hplace
      · omega
      · have := (hp _).not.1 hplace
        omega

section

variable {p : α → Bool} {values : List α}

/-- The values with a property stand in front of those without, if it holds in front of any value for
which it holds. -/
theorem filter_append_filter_not (h : values.Pairwise fun a b => p b = true → p a = true) :
    values.filter p ++ values.filter (fun a => !p a) = values := by
  induction values with
  | nil => rfl
  | cons a values ih =>
    obtain ⟨ha, hvalues⟩ := List.pairwise_cons.1 h
    cases hpa : p a with
    | true => simp [hpa, ih hvalues]
    | false =>
      have hnone : ∀ b ∈ values, p b = false := fun b hb => by
        have := ha b hb
        simp_all
      have hfront : values.filter p = [] := by simpa [List.filter_eq_nil_iff] using hnone
      have hback : values.filter (fun a => !p a) = values := by
        simpa [List.filter_eq_self] using hnone
      simp [hpa, hfront, hback]

theorem takeWhile_eq_filter (h : values.Pairwise fun a b => p b = true → p a = true) :
    values.takeWhile p = values.filter p := by
  have hback : (values.filter fun a => !p a).takeWhile p = [] := by
    cases hnot : values.filter fun a => !p a with
    | nil => rfl
    | cons a rest =>
      have ha : a ∈ values.filter fun a => !p a := hnot ▸ List.mem_cons_self
      have hpa : ¬ p a = true := by simpa using (List.mem_filter.1 ha).2
      exact List.takeWhile_cons_of_neg hpa
  conv_lhs => rw [← filter_append_filter_not h]
  rw [List.takeWhile_append_of_pos fun a ha => (List.mem_filter.1 ha).2, hback, List.append_nil]

theorem any_getElem?_append {front back : List α} (hfront : ∀ a ∈ front, p a = true)
    (hback : ∀ a ∈ back, p a = false) (place : ℕ) :
    (front ++ back)[place]?.any p = true ↔ place < front.length := by
  by_cases hlt : place < front.length
  · rw [List.getElem?_append_left hlt, List.getElem?_eq_getElem hlt]
    exact iff_of_true (hfront _ (List.getElem_mem hlt)) hlt
  · rw [List.getElem?_append_right (Nat.le_of_not_lt hlt)]
    refine iff_of_false ?_ hlt
    cases hplace : back[place - front.length]? with
    | none => simp
    | some a => simpa using hback a (List.mem_of_getElem? hplace)

/-- Halving finds the number of values with a property. -/
theorem partitionPoint_eq_length (h : values.Pairwise fun a b => p b = true → p a = true) :
    partitionPoint p values = (values.filter p).length := by
  have hplaces : ∀ place, values[place]?.any p = true ↔ place < (values.filter p).length := by
    have hany : ∀ place, (values.filter p ++ values.filter fun a => !p a)[place]?.any p = true ↔
        place < (values.filter p).length :=
      any_getElem?_append (by simp) (by simp)
    rwa [filter_append_filter_not h] at hany
  have hle : (values.filter p).length ≤ 0 + values.length := by
    rw [Nat.zero_add]
    exact List.length_filter_le p values
  have hsearch := searchFrom_eq hplaces (Nat.zero_le _) hle
  unfold partitionPoint
  cases hempty : values.isEmpty with
  | true => simp [List.isEmpty_iff.1 hempty]
  | false =>
    simp only [hsearch, hplaces, Bool.false_eq_true, if_false]
    split_ifs <;> omega

/-- The first value without a property, by halving. -/
theorem getElem?_partitionPoint (h : values.Pairwise fun a b => p b = true → p a = true) :
    values[partitionPoint p values]? = values.find? fun a => !p a := by
  have hsplit := filter_append_filter_not h
  have hback : values[(values.filter p).length]? = (values.filter fun a => !p a)[0]? := by
    conv_lhs => arg 1; rw [← hsplit]
    rw [List.getElem?_append_right le_rfl, Nat.sub_self]
  rw [partitionPoint_eq_length h, hback, ← List.head?_filter, List.head?_eq_getElem?]

/-- The last value with a property, by halving. -/
theorem getElem?_partitionPoint_pred (h : values.Pairwise fun a b => p b = true → p a = true) :
    (match partitionPoint p values with
      | 0 => none
      | place + 1 => values[place]?) = values.reverse.find? p := by
  have hsplit := filter_append_filter_not h
  rw [partitionPoint_eq_length h, ← List.getLast?_filter, List.getLast?_eq_getElem?]
  cases hlength : (values.filter p).length with
  | zero => simp [List.length_eq_zero_iff.1 hlength]
  | succ place =>
    have hlt : place < (values.filter p).length := by omega
    conv_lhs => simp only; arg 1; rw [← hsplit]
    rw [List.getElem?_append_left hlt, Nat.add_sub_cancel]

end

/-! ### Texts that have been read -/

/-- Tokens that stop up to an offset are in front of those that stop behind it. -/
theorem Covered.sorted (h : Covered text start stop tokens) (offset : ℕ) :
    tokens.Pairwise fun token later =>
      decide (later.stop ≤ offset) = true → decide (token.stop ≤ offset) = true := by
  refine h.pairwise.imp_of_mem fun {token later} _ hlater hle hstop => ?_
  have := (h.of_mem hlater).2.1
  have := of_decide_eq_true hstop
  exact decide_eq_true (by omega)

theorem Parser.Reads.covered_tokens (h : Parser.Reads dialect text parsed) :
    Covered text 0 (byteLength text) parsed.tokens := by
  obtain ⟨rounds, levels, hparse⟩ := h
  obtain ⟨frame, p, arena, hrun, -, rfl⟩ := parseWithin_eq_some.1 hparse
  obtain ⟨s, hs, hmatches⟩ := exists_state_of_perform hrun
  exact hmatches.tokens ▸ covered_of_run hs

theorem Parsed.tokenAt?_eq_find? (h : Covered text start stop parsed.tokens) (offset : ℕ) :
    parsed.tokenAt? offset = parsed.tokens.find? fun token => offset < token.stop := by
  have hnot : (fun token : Token => decide (offset < token.stop)) =
      fun token => !decide (token.stop ≤ offset) := by
    funext token
    rw [← decide_not]
    exact decide_eq_decide.2 Nat.not_le.symm
  rw [hnot]
  exact getElem?_partitionPoint (h.sorted offset)

theorem Parsed.tokenBefore?_eq_find? (h : Covered text start stop parsed.tokens) (offset : ℕ) :
    parsed.tokenBefore? offset =
      parsed.tokens.reverse.find? fun token => token.stop ≤ offset :=
  getElem?_partitionPoint_pred (h.sorted offset)

/-- Whatever the text, when it has been read, with or without errors, its tokens have at least one byte
and lie between characters of the text, in their order and apart from one another, and nothing else is
in the text but what separates tokens. So halving finds the token at an offset and the one in front of
it. -/
theorem Parser.Reads.tokens_cover (h : Parser.Reads dialect text parsed) :
    (∀ token ∈ parsed.tokens, token.start < token.stop ∧ token.stop ≤ byteLength text ∧
        IsBoundary text token.start ∧ IsBoundary text token.stop) ∧
      (parsed.tokens.Pairwise fun token later => token.stop ≤ later.start) ∧
      Covered text 0 (byteLength text) parsed.tokens ∧
      ∀ offset,
        parsed.tokenAt? offset = (parsed.tokens.find? fun token => offset < token.stop) ∧
        parsed.tokenBefore? offset =
          (parsed.tokens.reverse.find? fun token => token.stop ≤ offset) := by
  have hcovered := h.covered_tokens
  exact ⟨fun token htoken => (hcovered.of_mem htoken).2, hcovered.pairwise, hcovered,
    fun offset => ⟨Parsed.tokenAt?_eq_find? hcovered offset,
      Parsed.tokenBefore?_eq_find? hcovered offset⟩⟩

/-- A text with a line in front of the first token, comments, and an error at its end. -/
theorem Parser.Reads.tokens_cover_comments :
    ∃ parsed, Parser.Reads .standard "#!x\na /* b */ = // c".toList parsed ∧
      parsed.tokens = [⟨.identifier, 4, 5⟩, ⟨.equals, 14, 15⟩] ∧ parsed.errors ≠ [] ∧
      Covered "#!x\na /* b */ = // c".toList 0 20 parsed.tokens ∧
      parsed.tokenAt? 5 = some ⟨.equals, 14, 15⟩ ∧
      parsed.tokenBefore? 14 = some ⟨.identifier, 4, 5⟩ := by
  have htokens : (parseWithin 8 16 .standard "#!x\na /* b */ = // c".toList).map
      (fun parsed => (parsed.tokens, parsed.errors.length)) =
        some ([⟨.identifier, 4, 5⟩, ⟨.equals, 14, 15⟩], 1) := by
    decide +kernel
  obtain ⟨parsed, hparse, heq⟩ := Option.map_eq_some_iff.1 htokens
  obtain ⟨heq, hlength⟩ := Prod.mk.inj heq
  have hreads : Parser.Reads .standard "#!x\na /* b */ = // c".toList parsed := ⟨8, 16, hparse⟩
  obtain ⟨-, -, hcovered, hlookup⟩ := Parser.Reads.tokens_cover hreads
  refine ⟨parsed, hreads, heq, List.ne_nil_of_length_pos (by omega), hcovered, ?_, ?_⟩
  · rw [(hlookup 5).1, heq]
    rfl
  · rw [(hlookup 14).2, heq]
    rfl

/-- Where the readers get through a text, halving finds the tokens that they find one after the
other. -/
theorem Parser.Reads.lookup_eq {file : SourceFile} (h : Parser.Reads dialect text parsed)
    (hread : SourceFile.read? dialect text = some file) (offset : ℕ) :
    parsed.tokenAt? offset = file.tokenAt? offset ∧
      parsed.tokenBefore? offset = file.tokenBefore? offset := by
  have hcovered := h.covered_tokens
  obtain ⟨htokens, -⟩ := h.agrees hread
  rw [Parsed.tokenAt?_eq_find? hcovered, Parsed.tokenBefore?_eq_find? hcovered, htokens]
  rw [htokens] at hcovered
  refine ⟨rfl, ?_⟩
  rw [SourceFile.tokenBefore?, takeWhile_eq_filter (hcovered.sorted offset), List.getLast?_filter]

end ExpectError.Grammar
