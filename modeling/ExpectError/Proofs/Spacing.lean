import ExpectError.Proofs.CommentedTokens

/-!
# Words between tokens

How far a token goes is decided by its own characters and by what stops it, and a blank stops it too.
So blanks that are put behind a token change nothing about it, nor do words further on, as long as
each of them begins with a blank or a brace.

* `Parted`: a text with such words put into it, at its end excepted;
* `Spaced`: the same, with nothing but blanks in front;
* `Cursor.IsLocal`: a move that ends at the same place if blanks are put behind that place.
-/

namespace ExpectError

open Text

/-- The characters that are put between tokens. -/
def isSpacing (c : Char) : Bool :=
  c = ' ' || c = '\t' || c = '\n'

/-- The characters that words between tokens begin with. -/
def isParting (c : Char) : Bool :=
  isSpacing c || c = '{'

/-- The second text is the first one with words put into it, at its end excepted, that begin with a
blank or a brace. -/
inductive Parted : List Char → List Char → Prop
  | nil : Parted [] []
  | char {c : Char} {xs ys : List Char} : Parted xs ys → Parted (c :: xs) (c :: ys)
  | word {c : Char} (word : List Char) {xs ys : List Char} :
    isParting c = true → xs ≠ [] → Parted xs ys → Parted xs (c :: (word ++ ys))

/-- The second text is the first one with words put into it; what is in front of it begins with a
blank. -/
inductive Spaced : List Char → List Char → Prop
  | nil : Spaced [] []
  | char {c : Char} {xs ys : List Char} : Parted xs ys → Spaced (c :: xs) (c :: ys)
  | blank {c : Char} (word : List Char) {xs ys : List Char} :
    isSpacing c = true → xs ≠ [] → Parted xs ys → Spaced xs (c :: (word ++ ys))

theorem isParting_of_isSpacing {c : Char} (h : isSpacing c = true) : isParting c = true := by
  rw [isParting, h, Bool.true_or]

theorem Spaced.parted {xs ys : List Char} (h : Spaced xs ys) : Parted xs ys := by
  cases h with
  | nil => exact .nil
  | char h => exact .char h
  | blank word hc hne h => exact .word word (isParting_of_isSpacing hc) hne h

theorem Parted.refl (xs : List Char) : Parted xs xs := by
  induction xs with
  | nil => exact .nil
  | cons c xs ih => exact .char ih

theorem Spaced.refl (xs : List Char) : Spaced xs xs := by
  cases xs with
  | nil => exact .nil
  | cons c xs => exact .char (.refl xs)

theorem Parted.append_left {xs ys : List Char} (h : Parted xs ys) (before : List Char) :
    Parted (before ++ xs) (before ++ ys) := by
  induction before with
  | nil => exact h
  | cons c before ih => exact .char ih

theorem Spaced.append_left {xs ys : List Char} (h : Spaced xs ys) (before : List Char) :
    Spaced (before ++ xs) (before ++ ys) := by
  cases before with
  | nil => exact h
  | cons c before => exact .char (h.parted.append_left before)

theorem Parted.eq_nil {ys : List Char} (h : Parted [] ys) : ys = [] := by
  cases h with
  | nil => rfl
  | word _ _ hne _ => exact absurd rfl hne

theorem Spaced.eq_nil {ys : List Char} (h : Spaced [] ys) : ys = [] :=
  h.parted.eq_nil

/-- Blanks in front of a text. -/
theorem Spaced.append_blanks {xs ys blanks : List Char} (h : Spaced xs ys)
    (hblanks : ∀ c ∈ blanks, isSpacing c = true) (hne : xs ≠ []) : Spaced xs (blanks ++ ys) := by
  cases blanks with
  | nil => exact h
  | cons c blanks => exact .blank blanks (hblanks c List.mem_cons_self) hne h.parted

/-- What no blank passes is not passed with blanks in front either. -/
theorem Spaced.head?_any {xs ys : List Char} (h : Spaced xs ys) {p : Char → Bool}
    (hp : ∀ c, isSpacing c = true → p c = false) (hxs : xs.head?.any p = false) :
    ys.head?.any p = false := by
  cases h with
  | nil => rfl
  | char => exact hxs
  | blank _ hc => exact hp _ hc

theorem Parted.head?_ne {xs ys : List Char} (h : Parted xs ys) {c : Char}
    (hc : isParting c = false) (hxs : xs.head? ≠ some c) : ys.head? ≠ some c := by
  cases h with
  | nil => simp
  | char => exact hxs
  | word _ hd =>
    rintro heq
    obtain rfl := Option.some.inj heq
    simp [hc] at hd

theorem Spaced.head?_ne {xs ys : List Char} (h : Spaced xs ys) {c : Char}
    (hc : isSpacing c = false) (hxs : xs.head? ≠ some c) : ys.head? ≠ some c := by
  cases h with
  | nil => simp
  | char => exact hxs
  | blank _ hd =>
    rintro heq
    obtain rfl := Option.some.inj heq
    simp [hc] at hd

/-- A word without blanks and braces at the beginning of the parted text is at the beginning of the
other. -/
theorem Parted.isPrefixOf {xs ys word : List Char} (h : Parted xs ys)
    (hword : ∀ c ∈ word, isParting c = false) (hys : word.isPrefixOf ys = true) :
    word.isPrefixOf xs = true := by
  induction word generalizing xs ys with
  | nil => rw [List.isPrefixOf_nil_left]
  | cons c word ih =>
    obtain ⟨hc, hword⟩ := List.forall_mem_cons.1 hword
    cases h with
    | nil => exact hys
    | char h =>
      rw [List.isPrefixOf, Bool.and_eq_true] at hys ⊢
      exact ⟨hys.1, ih h hword hys.2⟩
    | word _ hd =>
      rw [List.isPrefixOf, Bool.and_eq_true, beq_iff_eq] at hys
      rw [hys.1] at hc
      simp [hc] at hd

/-- The same, if only the first character may be a brace. -/
theorem Spaced.isPrefixOf {xs ys : List Char} (h : Spaced xs ys) {c : Char} {word : List Char}
    (hc : isSpacing c = false) (hword : ∀ d ∈ word, isParting d = false)
    (hys : (c :: word).isPrefixOf ys = true) : (c :: word).isPrefixOf xs = true := by
  cases h with
  | nil => exact hys
  | char h =>
    rw [List.isPrefixOf, Bool.and_eq_true] at hys ⊢
    exact ⟨hys.1, h.isPrefixOf hword hys.2⟩
  | blank _ hd =>
    rw [List.isPrefixOf, Bool.and_eq_true, beq_iff_eq] at hys
    rw [hys.1] at hc
    simp [hc] at hd

namespace Cursor

/-- A move over some characters that is the same whatever blanks are put behind them. -/
def IsLocal (move : Cursor → Cursor) (c : Cursor) : Prop :=
  ∃ passed, c.rest = passed ++ (move c).rest ∧ (move c).pos = c.pos + byteLength passed ∧
    ∀ pos rest, Spaced (move c).rest rest →
      move { pos, rest := passed ++ rest } = { pos := pos + byteLength passed, rest }

theorem isLocal_comp {first second : Cursor → Cursor} {c : Cursor} (h : IsLocal first c)
    (h' : IsLocal second (first c)) : IsLocal (fun c => second (first c)) c := by
  obtain ⟨x, hx, px, hfirst⟩ := h
  obtain ⟨y, hy, py, hsecond⟩ := h'
  refine ⟨x ++ y, ?_, ?_, fun pos rest hrest => ?_⟩
  · rw [hx, hy, List.append_assoc]
  · rw [py, px, byteLength_append, Nat.add_assoc]
  · show second (first _) = _
    rw [List.append_assoc, hfirst pos (y ++ rest) (hy ▸ hrest.append_left y), hsecond _ _ hrest,
      byteLength_append, Nat.add_assoc]

theorem skipWhile_eq_self {p : Char → Bool} {pos : ℕ} {cs : List Char}
    (h : cs.head?.any p = false) : skipWhile p { pos, rest := cs } = { pos, rest := cs } := by
  cases cs with
  | nil => rfl
  | cons c cs =>
    have hc : p c = false := by simpa using h
    simp [skipWhile, skipRun, hc]

theorem isLocal_skipRun {p : Char → Bool} (hp : ∀ c, isSpacing c = true → p c = false) (pos : ℕ)
    (cs : List Char) : IsLocal (skipWhile p) { pos, rest := cs } := by
  induction cs generalizing pos with
  | nil => exact ⟨[], rfl, rfl, fun _ rest h => by rw [h.eq_nil]; rfl⟩
  | cons c cs ih =>
    by_cases hc : p c = true
    · obtain ⟨passed, hpassed, hpos, hmove⟩ := ih (pos + c.utf8Size)
      have hstep : ∀ pos cs, skipWhile p { pos, rest := c :: cs } =
          skipWhile p { pos := pos + c.utf8Size, rest := cs } := fun pos cs => by
        simp [skipWhile, skipRun, hc]
      refine ⟨c :: passed, ?_, ?_, fun pos' rest hrest => ?_⟩
      · rw [hstep, List.cons_append, ← hpassed]
      · rw [hstep, hpos, byteLength_cons, Nat.add_assoc]
      · rw [hstep] at hrest
        rw [List.cons_append, hstep, hmove _ _ hrest, byteLength_cons, Nat.add_assoc]
    · have hhead : (c :: cs).head?.any p = false := by simpa using hc
      have hstop : skipWhile p { pos, rest := c :: cs } = { pos, rest := c :: cs } :=
        skipWhile_eq_self hhead
      refine ⟨[], by rw [hstop]; rfl, by rw [hstop]; rfl, fun pos' rest hrest => ?_⟩
      rw [hstop] at hrest
      exact skipWhile_eq_self (hrest.head?_any hp hhead)

/-! ### Moves that look at a few characters -/

/-- Do the first characters of a text pass some tests, one each? -/
def headsPass : List (Char → Bool) → List Char → Bool
  | [], _ => true
  | _ :: _, [] => false
  | p :: tests, c :: cs => p c && headsPass tests cs

theorem headsPass_of_parted {tests : List (Char → Bool)} {xs ys : List Char} (h : Parted xs ys)
    (htests : ∀ p ∈ tests, ∀ c, isParting c = true → p c = false)
    (hys : headsPass tests ys = true) : headsPass tests xs = true := by
  induction tests generalizing xs ys with
  | nil => rfl
  | cons p tests ih =>
    obtain ⟨hp, htests⟩ := List.forall_mem_cons.1 htests
    cases h with
    | nil => exact hys
    | char h =>
      rw [headsPass, Bool.and_eq_true] at hys ⊢
      exact ⟨hys.1, ih h htests hys.2⟩
    | word _ hc => simp [headsPass, hp _ hc] at hys

/-- The characters that pass some tests, and a cursor behind them. -/
theorem exists_of_headsPass {tests : List (Char → Bool)} {c : Cursor}
    (h : headsPass tests c.rest = true) :
    ∃ word, c.rest = word ++ (c.skip tests.length).rest ∧
      (c.skip tests.length).pos = c.pos + byteLength word ∧
      ∀ pos rest, headsPass tests (word ++ rest) = true ∧
        skip tests.length { pos, rest := word ++ rest } =
          { pos := pos + byteLength word, rest } := by
  induction tests generalizing c with
  | nil => exact ⟨[], rfl, rfl, fun _ _ => ⟨rfl, rfl⟩⟩
  | cons p tests ih =>
    obtain ⟨pos, cs⟩ := c
    cases cs with
    | nil => cases h
    | cons x cs =>
      rw [headsPass, Bool.and_eq_true] at h
      obtain ⟨word, hword, hpos, hskip⟩ := ih (c := { pos := pos + x.utf8Size, rest := cs }) h.2
      refine ⟨x :: word, congrArg (x :: ·) hword, ?_, fun pos' rest => ⟨?_, ?_⟩⟩
      · rw [byteLength_cons, ← Nat.add_assoc]
        exact hpos
      · rw [List.cons_append, headsPass, h.1, Bool.true_and]
        exact (hskip 0 rest).1
      · rw [byteLength_cons, ← Nat.add_assoc]
        exact (hskip (pos' + x.utf8Size) rest).2

/-- Over characters that pass some tests, and on from there; or another move if they do not pass. -/
theorem isLocal_branch {tests : List (Char → Bool)}
    (htests : ∀ p ∈ tests, ∀ c, isParting c = true → p c = false) {next other : Cursor → Cursor}
    {c : Cursor} (hnext : headsPass tests c.rest = true → IsLocal next (c.skip tests.length))
    (hother : headsPass tests c.rest = false → IsLocal other c) :
    IsLocal (fun c => if headsPass tests c.rest then next (c.skip tests.length) else other c) c := by
  cases h : headsPass tests c.rest with
  | true =>
    obtain ⟨word, hword, hpos, hskip⟩ := exists_of_headsPass h
    obtain ⟨passed, hpassed, hpos', hmove⟩ := hnext h
    refine ⟨word ++ passed, ?_, ?_, fun pos rest hrest => ?_⟩
    · simp only [h, if_true]
      rw [List.append_assoc, ← hpassed, ← hword]
    · simp only [h, if_true]
      rw [hpos', hpos, byteLength_append, Nat.add_assoc]
    · simp only [h, if_true] at hrest
      simp only [List.append_assoc, (hskip pos (passed ++ rest)).1, (hskip pos (passed ++ rest)).2,
        if_true]
      rw [hmove _ _ hrest, byteLength_append, Nat.add_assoc]
  | false =>
    obtain ⟨passed, hpassed, hpos, hmove⟩ := hother h
    refine ⟨passed, by simpa [h] using hpassed, by simpa [h] using hpos, fun pos rest hrest => ?_⟩
    simp only [h] at hrest
    have hnot : headsPass tests (passed ++ rest) = false := by
      by_contra hne
      have hparted : Parted c.rest (passed ++ rest) := by
        rw [hpassed]
        exact hrest.parted.append_left passed
      have := headsPass_of_parted hparted htests (by simpa using hne)
      simp [h] at this
    simp only [hnot]
    exact hmove _ _ hrest

theorem isLocal_id (c : Cursor) : IsLocal id c :=
  ⟨[], rfl, rfl, fun _ _ _ => rfl⟩

/-! ### Literals with a closing mark -/

variable {β : Type}

/-- A reader goes over some characters and looks at nothing behind them. -/
def Closes (read : ℕ → List Char → Cursor × β) (pos : ℕ) (cs : List Char) : Prop :=
  ∃ passed, passed ≠ [] ∧ cs = passed ++ (read pos cs).1.rest ∧
    (read pos cs).1.pos = pos + byteLength passed ∧
    ∀ pos' rest, read pos' (passed ++ rest) =
      ({ pos := pos' + byteLength passed, rest }, (read pos cs).2)

theorem Closes.over {read read' : ℕ → List Char → Cursor × β} {pos : ℕ} {cs : List Char}
    (word : List Char) (hstep : ∀ pos' cs', cs'.head? = cs.head? →
      read pos' (word ++ cs') = read' (pos' + byteLength word) cs')
    (h : Closes read' (pos + byteLength word) cs) : Closes read pos (word ++ cs) := by
  obtain ⟨passed, hne, hpassed, hpos, hread⟩ := h
  obtain ⟨x, passed, rfl⟩ := List.exists_cons_of_ne_nil hne
  rw [Closes, hstep pos cs rfl]
  refine ⟨word ++ x :: passed, by simp, ?_, ?_, fun pos' rest => ?_⟩
  · rw [List.append_assoc, ← hpassed]
  · rw [hpos, byteLength_append, Nat.add_assoc]
  · rw [List.append_assoc, hstep _ _ (by rw [hpassed]; rfl), hread, byteLength_append, Nat.add_assoc]

theorem closes_of_eq {read : ℕ → List Char → Cursor × β} {pos : ℕ} {cs : List Char} {b : β}
    (word : List Char) (hword : word ≠ [])
    (h : ∀ pos' rest, read pos' (word ++ rest) = ({ pos := pos' + byteLength word, rest }, b)) :
    Closes read pos (word ++ cs) := by
  rw [Closes, h pos cs]
  exact ⟨word, hword, rfl, rfl, h⟩

theorem closes_stringEnd {quote : Char} (hquote : quote ≠ '\\') {pos : ℕ} {cs : List Char}
    (h : (stringEnd quote pos cs).2 = false) : Closes (stringEnd quote) pos cs := by
  match cs with
  | [] => cases h
  | c :: cs =>
    by_cases hc : c = '\\'
    · subst hc
      match cs with
      | [] => simp [stringEnd, hquote.symm] at h
      | d :: cs =>
        have hstep : ∀ pos' cs', stringEnd quote pos' (['\\', d] ++ cs') =
            stringEnd quote (pos' + byteLength ['\\', d]) cs' := fun pos' cs' => by
          rw [List.cons_append, stringEnd.eq_def]
          simp [hquote.symm, Nat.add_assoc]
          rfl
        refine Closes.over ['\\', d] (fun pos' cs' _ => hstep pos' cs') (closes_stringEnd hquote ?_)
        rwa [← hstep]
    · rw [stringEnd_of_ne _ _ _ hc] at h
      split_ifs at h with hq hn
      · subst hq
        exact closes_of_eq [c] (by simp) fun pos' rest => by
          rw [List.singleton_append, stringEnd_of_ne _ _ _ hc, if_pos rfl]
          rfl
      · refine Closes.over [c] (fun pos' cs' _ => ?_) (closes_stringEnd hquote h)
        rw [List.singleton_append, stringEnd_of_ne _ _ _ hc, if_neg hq, if_neg hn]
        rfl

theorem closes_attributeStringEnd {quote : Char} {pos : ℕ} {cs : List Char}
    (h : (attributeStringEnd quote pos cs).2 = false) :
    Closes (attributeStringEnd quote) pos cs := by
  induction cs generalizing pos with
  | nil => cases h
  | cons c cs ih =>
    rw [attributeStringEnd] at h
    split_ifs at h with hq
    · exact closes_of_eq [c] (by simp) fun pos' rest => by
        rw [List.singleton_append, attributeStringEnd, if_pos hq]
        rfl
    · refine Closes.over [c] (fun pos' cs' _ => ?_) (ih h)
      rw [List.singleton_append, attributeStringEnd, if_neg hq]
      rfl

theorem closes_templateEnd {pos : ℕ} {cs : List Char}
    (h : (templateEnd pos cs).2 ≠ .endOfText) : Closes templateEnd pos cs := by
  match cs with
  | [] => exact absurd rfl h
  | c :: cs =>
    by_cases hc : c = '\\'
    · subst hc
      match cs with
      | [] => exact absurd rfl h
      | d :: cs =>
        have hstep : ∀ pos' cs', templateEnd pos' (['\\', d] ++ cs') =
            templateEnd (pos' + byteLength ['\\', d]) cs' := fun pos' cs' => by
          rw [List.cons_append, List.cons_append, templateEnd]
          simp [Nat.add_assoc]
          rfl
        refine Closes.over ['\\', d] (fun pos' cs' _ => hstep pos' cs') (closes_templateEnd ?_)
        rwa [← hstep]
    · rw [templateEnd_of_ne _ _ hc] at h
      split_ifs at h with hq hbrace
      · subst hq
        exact closes_of_eq ['\x60'] (by simp) fun pos' rest => by
          rw [List.singleton_append, templateEnd]
          rfl
      · obtain ⟨rfl, hbrace⟩ := hbrace
        obtain ⟨cs, rfl⟩ := List.head?_eq_some_iff.1 hbrace
        exact closes_of_eq ['$', '{'] (by simp) fun pos' rest => by
          rw [List.cons_append, List.singleton_append, templateEnd]
          rfl
      · refine Closes.over [c] (fun pos' cs' hhead => ?_) (closes_templateEnd h)
        rw [List.singleton_append, templateEnd_of_ne _ _ hc, if_neg hq, if_neg (by rwa [hhead])]
        rfl

theorem closes_regexEnd {inClass : Bool} {pos : ℕ} {cs : List Char}
    (h : (regexEnd inClass pos cs).2 = false) : Closes (regexEnd inClass) pos cs := by
  match cs with
  | [] => cases h
  | c :: cs =>
    by_cases hc : c = '\\'
    · subst hc
      match cs with
      | [] => cases h
      | d :: cs =>
        have hstep : ∀ pos' cs', regexEnd inClass pos' (['\\', d] ++ cs') =
            regexEnd inClass (pos' + byteLength ['\\', d]) cs' := fun pos' cs' => by
          rw [List.cons_append, List.cons_append, regexEnd.eq_def]
          simp [isLineBreak, Nat.add_assoc]
          rfl
        refine Closes.over ['\\', d] (fun pos' cs' _ => hstep pos' cs') (closes_regexEnd ?_)
        rwa [← hstep]
    · rw [regexEnd_of_ne _ _ _ hc] at h
      split_ifs at h with hbreak hslash
      · exact closes_of_eq [c] (by simp) fun pos' rest => by
          rw [List.singleton_append, regexEnd_of_ne _ _ _ hc, if_neg hbreak, if_pos hslash]
          rw [show c = '/' by simp_all]
          rfl
      · refine Closes.over [c] (fun pos' cs' _ => ?_) (closes_regexEnd h)
        rw [List.singleton_append, regexEnd_of_ne _ _ _ hc, if_neg hbreak, if_neg hslash]
        rfl

/-! ### Identifiers -/

theorem isIdentifierPart_of_isSpacing {c : Char} (h : isSpacing c = true) :
    isIdentifierPart c = false := by
  simp only [isSpacing, Bool.or_eq_true, decide_eq_true_eq] at h
  rcases h with (rfl | rfl) | rfl <;> decide

/-- Over some characters, and on from there. -/
theorem IsLocal.over {move move' : Cursor → Cursor} {pos : ℕ} {cs : List Char} (word : List Char)
    (hstep : ∀ pos' cs', Spaced cs cs' →
      move { pos := pos', rest := word ++ cs' } =
        move' { pos := pos' + byteLength word, rest := cs' })
    (h : IsLocal move' { pos := pos + byteLength word, rest := cs }) :
    IsLocal move { pos, rest := word ++ cs } := by
  obtain ⟨passed, hpassed, hpos, hmove⟩ := h
  have hfirst := hstep pos cs (.refl cs)
  refine ⟨word ++ passed, ?_, ?_, fun pos' rest hrest => ?_⟩
  · rw [hfirst, List.append_assoc, ← hpassed]
  · rw [hfirst, hpos, byteLength_append, Nat.add_assoc]
  · rw [hfirst] at hrest
    have hspaced : Spaced cs (passed ++ rest) := by
      rw [show cs = passed ++ _ from hpassed]
      exact hrest.append_left passed
    rw [List.append_assoc, hstep _ _ hspaced, hmove _ _ hrest, byteLength_append, Nat.add_assoc]

theorem isLocal_identifierEnd (escape : Escape) (pos : ℕ) (cs : List Char) :
    IsLocal (fun c => identifierEnd escape c.pos c.rest) { pos, rest := cs } := by
  match escape, cs with
  | escape, [] =>
    refine ⟨[], ?_, ?_, fun pos' rest hrest => ?_⟩
    · cases escape <;> rfl
    · cases escape <;> rfl
    · obtain rfl : rest = [] := by
        cases escape <;> exact Spaced.eq_nil hrest
      cases escape <;> rfl
  | .braced, c :: cs =>
    exact IsLocal.over [c] (fun pos' cs' _ => by
      rw [List.singleton_append, identifierEnd]; rfl) (isLocal_identifierEnd _ _ cs)
  | .outside, c :: cs =>
    by_cases hu : c = '\\' ∧ cs.head? = some 'u'
    · obtain ⟨rfl, hu⟩ := hu
      obtain ⟨cs, rfl⟩ := List.head?_eq_some_iff.1 hu
      by_cases hbrace : cs.head? = some '{'
      · obtain ⟨cs, rfl⟩ := List.head?_eq_some_iff.1 hbrace
        exact IsLocal.over ['\\', 'u', '{'] (fun pos' cs' _ => by
          simp only [List.cons_append, List.nil_append]
          rw [identifierEnd]; rfl) (isLocal_identifierEnd .braced _ cs)
      · refine IsLocal.over ['\\', 'u'] (fun pos' cs' hcs => ?_) (isLocal_identifierEnd .outside _ cs)
        -- blanks do not bring a brace behind the `u`
        simp only [List.cons_append, List.nil_append]
        rw [identifierEnd_outside_cons, if_pos ⟨rfl, rfl⟩, List.tail_cons,
          if_neg (hcs.head?_ne (by decide) hbrace)]
        rfl
    · by_cases hpart : isIdentifierPart c = true
      · have hc : c ≠ '\\' := by
          rintro rfl
          revert hpart
          decide
        refine IsLocal.over [c] (fun pos' cs' _ => ?_) (isLocal_identifierEnd .outside _ cs)
        simp only [List.singleton_append]
        rw [identifierEnd_outside_cons, if_neg fun h => hc h.1, if_pos hpart]
        rfl
      · -- the name has ended, and blanks in front of `c` are no part of it either
        have hstop : identifierEnd .outside pos (c :: cs) = { pos, rest := c :: cs } := by
          rw [identifierEnd_outside_cons, if_neg hu, if_neg hpart]
        refine ⟨[], by simp only [hstop]; rfl, by simp only [hstop]; rfl, fun pos' rest hrest => ?_⟩
        simp only [hstop] at hrest
        cases hrest with
        | char hrest =>
          simp only [List.nil_append]
          rw [identifierEnd_outside_cons, if_neg, if_neg hpart]
          · rfl
          · rintro ⟨rfl, hhead⟩
            exact hrest.head?_ne (by decide) (fun h => hu ⟨rfl, h⟩) hhead
        | blank _ hd =>
          simp only [List.nil_append]
          rw [identifierEnd_outside_cons, if_neg, if_neg]
          · rfl
          · simp [isIdentifierPart_of_isSpacing hd]
          · rintro ⟨rfl, -⟩
            cases hd

/-! ### Trivia -/

/-- What is put between tokens is trivia. -/
theorem isGap_of_isSpacing {c : Char} (h : isSpacing c = true) (hbreak : isLineBreak c = false) :
    isGap c = true := by
  simp only [isSpacing, Bool.or_eq_true, decide_eq_true_eq] at h
  rcases h with (rfl | rfl) | rfl
  · decide
  · decide
  · cases hbreak

theorem skipTrivia_blanks (broken : Bool) (pos : ℕ) {blanks : List Char}
    (hblanks : ∀ c ∈ blanks, isSpacing c = true) (rest : List Char) :
    skipTrivia .blank broken pos (blanks ++ rest) =
      skipTrivia .blank (broken || blanks.any isLineBreak) (pos + byteLength blanks) rest := by
  induction blanks generalizing broken pos with
  | nil => simp
  | cons c blanks ih =>
    obtain ⟨hc, hblanks⟩ := List.forall_mem_cons.1 hblanks
    have hstep : skipTrivia .blank broken pos (c :: (blanks ++ rest)) =
        skipTrivia .blank (broken || isLineBreak c) (pos + c.utf8Size) (blanks ++ rest) := by
      have hslash : c ≠ '/' := by
        rintro rfl
        cases hc
      rw [skipTrivia_blank_cons, if_neg fun h => hslash h.1, if_neg fun h => hslash h.1]
      cases hbreak : isLineBreak c with
      | true => simp
      | false => simp [isGap_of_isSpacing hc hbreak]
    rw [List.cons_append, hstep, ih _ _ hblanks, List.any_cons, Bool.or_assoc, byteLength_cons,
      Nat.add_assoc]

/-- Trivia with blanks put between them and the next token. -/
def SkipsAlike (trivia : Trivia) (broken : Bool) (pos : ℕ) (cs : List Char) : Prop :=
  ∃ passed, cs = passed ++ (skipTrivia trivia broken pos cs).1.rest ∧
    (skipTrivia trivia broken pos cs).1.pos = pos + byteLength passed ∧
    ∀ pos' blanks rest, (∀ c ∈ blanks, isSpacing c = true) →
      ((skipTrivia trivia broken pos cs).1.rest = [] → blanks = []) →
      Spaced (skipTrivia trivia broken pos cs).1.rest rest →
      rest.head? = (skipTrivia trivia broken pos cs).1.rest.head? →
      skipTrivia trivia broken pos' (passed ++ (blanks ++ rest)) =
        ({ pos := pos' + byteLength passed + byteLength blanks, rest },
          (skipTrivia trivia broken pos cs).2 || blanks.any isLineBreak)

theorem SkipsAlike.over {trivia trivia' : Trivia} {broken broken' : Bool} {pos : ℕ}
    {cs : List Char} (word : List Char)
    (hstep : ∀ pos' cs', Spaced cs cs' → skipTrivia trivia broken pos' (word ++ cs') =
      skipTrivia trivia' broken' (pos' + byteLength word) cs')
    (h : SkipsAlike trivia' broken' (pos + byteLength word) cs) :
    SkipsAlike trivia broken pos (word ++ cs) := by
  obtain ⟨passed, hpassed, hpos, hskip⟩ := h
  rw [SkipsAlike, hstep pos cs (.refl cs)]
  refine ⟨word ++ passed, ?_, ?_, fun pos' blanks rest hblanks hnil hrest hhead => ?_⟩
  · rw [List.append_assoc, ← hpassed]
  · rw [hpos, byteLength_append, Nat.add_assoc]
  · have hspaced : Spaced cs (passed ++ (blanks ++ rest)) := by
      rw [hpassed]
      refine Spaced.append_left ?_ passed
      by_cases hnil' : (skipTrivia trivia' broken' (pos + byteLength word) cs).1.rest = []
      · rw [hnil hnil']
        exact hrest
      · exact hrest.append_blanks hblanks hnil'
    rw [List.append_assoc, hstep _ _ hspaced, hskip _ _ _ hblanks hnil hrest hhead,
      byteLength_append, Nat.add_assoc pos']

theorem skipsAlike (trivia : Trivia) (broken : Bool) (pos : ℕ) (cs : List Char) :
    SkipsAlike trivia broken pos cs := by
  match trivia, cs with
  | trivia, [] =>
    have hnil : ∀ broken pos, skipTrivia trivia broken pos [] = ({ pos, rest := [] }, broken) := by
      cases trivia <;> intros <;> rfl
    rw [SkipsAlike, hnil]
    refine ⟨[], rfl, rfl, fun pos' blanks rest _ hblanks hrest _ => ?_⟩
    rw [hblanks rfl, hrest.eq_nil]
    simp [hnil]
  | .lineComment, c :: cs =>
    by_cases hbreak : isLineBreak c = true
    · refine SkipsAlike.over [c] (fun pos' cs' _ => ?_) (skipsAlike .blank true _ cs)
      rw [List.singleton_append, skipTrivia, if_pos hbreak]
      rfl
    · refine SkipsAlike.over [c] (fun pos' cs' _ => ?_) (skipsAlike .lineComment broken _ cs)
      rw [List.singleton_append, skipTrivia, if_neg hbreak]
      rfl
  | .blockComment, c :: cs =>
    by_cases hend : c = '*' ∧ cs.head? = some '/'
    · obtain ⟨rfl, hend⟩ := hend
      obtain ⟨cs, rfl⟩ := List.head?_eq_some_iff.1 hend
      refine SkipsAlike.over ['*', '/'] (fun pos' cs' _ => ?_) (skipsAlike .blank broken _ cs)
      simp only [List.cons_append, List.nil_append]
      rw [skipTrivia]
      rfl
    · refine SkipsAlike.over [c] (fun pos' cs' hcs => ?_)
        (skipsAlike .blockComment (broken || isLineBreak c) _ cs)
      rw [List.singleton_append, skipTrivia_blockComment_cons, if_neg]
      · rfl
      · rintro ⟨rfl, hhead⟩
        exact hcs.head?_ne (by decide) (fun h => hend ⟨rfl, h⟩) hhead
  | .blank, c :: cs =>
    by_cases hline : c = '/' ∧ cs.head? = some '/'
    · obtain ⟨rfl, hline⟩ := hline
      obtain ⟨cs, rfl⟩ := List.head?_eq_some_iff.1 hline
      refine SkipsAlike.over ['/', '/'] (fun pos' cs' _ => ?_) (skipsAlike .lineComment broken _ cs)
      simp only [List.cons_append, List.nil_append]
      rw [skipTrivia]
      rfl
    by_cases hblock : c = '/' ∧ cs.head? = some '*'
    · obtain ⟨rfl, hblock⟩ := hblock
      obtain ⟨cs, rfl⟩ := List.head?_eq_some_iff.1 hblock
      refine SkipsAlike.over ['/', '*'] (fun pos' cs' _ => ?_) (skipsAlike .blockComment broken _ cs)
      simp only [List.cons_append, List.nil_append]
      rw [skipTrivia]
      rfl
    -- no comment begins here, whatever blanks are put behind the character
    have hno : ∀ cs', Parted cs cs' → ¬ (c = '/' ∧ cs'.head? = some '/') ∧
        ¬ (c = '/' ∧ cs'.head? = some '*') := fun cs' hcs =>
      ⟨fun h => hcs.head?_ne (by decide) (fun h' => hline ⟨h.1, h'⟩) h.2,
        fun h => hcs.head?_ne (by decide) (fun h' => hblock ⟨h.1, h'⟩) h.2⟩
    by_cases hbreak : isLineBreak c = true
    · refine SkipsAlike.over [c] (fun pos' cs' hcs => ?_) (skipsAlike .blank true _ cs)
      rw [List.singleton_append, skipTrivia_blank_cons, if_neg (hno cs' hcs.parted).1,
        if_neg (hno cs' hcs.parted).2, if_pos hbreak]
      rfl
    by_cases hgap : isGap c = true
    · refine SkipsAlike.over [c] (fun pos' cs' hcs => ?_) (skipsAlike .blank broken _ cs)
      rw [List.singleton_append, skipTrivia_blank_cons, if_neg (hno cs' hcs.parted).1,
        if_neg (hno cs' hcs.parted).2, if_neg hbreak, if_pos hgap]
      rfl
    -- anything else ends the trivia; blanks that are put in front of it are passed over
    have hstop : ∀ broken pos cs', Parted cs cs' → skipTrivia .blank broken pos (c :: cs') =
        ({ pos, rest := c :: cs' }, broken) := fun broken pos cs' hcs => by
      rw [skipTrivia_blank_cons, if_neg (hno cs' hcs).1, if_neg (hno cs' hcs).2, if_neg hbreak,
        if_neg hgap]
    have hspacing : isSpacing c = false :=
      Bool.eq_false_iff.2 fun h => hgap (isGap_of_isSpacing h (by simpa using hbreak))
    rw [SkipsAlike, hstop broken pos cs (.refl cs)]
    refine ⟨[], rfl, rfl, fun pos' blanks rest hblanks _ hrest hhead => ?_⟩
    obtain ⟨rest, rfl⟩ := List.head?_eq_some_iff.1 hhead
    cases hrest with
    | char hrest =>
      rw [List.nil_append, skipTrivia_blanks _ _ hblanks, hstop _ _ _ hrest]
      rfl
    | blank _ hc => simp [hspacing] at hc
termination_by cs.length

end Cursor

end ExpectError
