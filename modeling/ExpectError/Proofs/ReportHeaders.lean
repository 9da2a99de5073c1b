import ExpectError.Checker.Report
import Mathlib.Data.List.TakeWhile
import Mathlib.Tactic

/-!
# The headers of a report

A header is a title, or the name of a file followed by a place. What a title and a place look like is
said by how they are spelled, and reading them finds just these spellings: a number goes as far as
there are digits, and no word for a category begins another. Only the end of a file's name can be
found in more than one way, and a header that can be read in one way only is read in that way.

* `Title.Spells`, `Place.Spells`: how titles and places are written;
* `title?_eq_some`, `place?_eq_some`: these are read back;
* `ofHeader?_of_onlyReads`, `ofHeader?_of_title`, `ofHeader?_eq_none`: what is read of a line.
-/

namespace ExpectError.Reported

open Text (isDecimalDigit)

/-! ### Numbers -/

/-- At least one decimal digit, and nothing else. -/
structure IsNumber (cs : List Char) : Prop where
  ne_nil : cs ≠ []
  digits : ∀ c ∈ cs, isDecimalDigit c = true

/-- Where digits are followed by something else, all of them are taken. -/
theorem takeDigits?_eq_some {cs digits rest : List Char} :
    takeDigits? cs = some (digits, rest) ↔
      IsNumber digits ∧ cs = digits ++ rest ∧ rest.head?.all (fun c => !isDecimalDigit c) = true := by
  constructor
  · intro h
    have hparts := List.takeWhile_append_dropWhile (p := isDecimalDigit) (l := cs)
    have hbehind : (cs.dropWhile isDecimalDigit).head?.all (fun c => !isDecimalDigit c) = true := by
      cases hdrop : cs.dropWhile isDecimalDigit with
      | nil => rfl
      | cons c rest =>
        have := List.head?_dropWhile_not isDecimalDigit cs
        simpa [hdrop] using this
    unfold takeDigits? at h
    split at h
    next => cases h
    next hne =>
      cases h
      exact ⟨⟨hne, fun c hc => List.mem_takeWhile_imp hc⟩, hparts.symm, hbehind⟩
  · rintro ⟨hnumber, rfl, hrest⟩
    -- the first character behind the digits stops both searches
    have hnone : rest.takeWhile isDecimalDigit = [] ∧ rest.dropWhile isDecimalDigit = rest := by
      cases rest with
      | nil => exact ⟨rfl, rfl⟩
      | cons c rest =>
        have hc : isDecimalDigit c = false := by simpa using hrest
        simp [hc]
    obtain ⟨hne, hdigits⟩ := hnumber
    rw [takeDigits?, List.takeWhile_append_of_pos hdigits, List.dropWhile_append_of_pos hdigits,
      hnone.1, hnone.2, List.append_nil]
    cases digits with
    | nil => exact absurd rfl hne
    | cons c digits => rfl

/-- A number in decimal notation is read back, as far as 32 bits hold it. -/
theorem value?_toDigits {n : ℕ} (h : n ≤ Diagnostic.maxOffset) :
    value? (Nat.toDigits 10 n) = some n := by
  have hvalue : (Nat.toDigits 10 n).foldl
      (fun value c => value * 10 + (c.toNat - '0'.toNat)) 0 = n := by
    have hread := Nat.ofDigitChars_toDigits (b := 10) (n := n) (by decide) (by decide)
    simpa [Nat.ofDigitChars, Nat.mul_comm] using hread
  have hdigits : (Nat.toDigits 10 n).all Char.isDigit = true :=
    List.all_eq_true.2 fun c hc => Nat.isDigit_of_mem_toDigits (by decide) (by decide) hc
  rw [value?]
  simp only [hvalue, hdigits, Bool.true_and, decide_eq_true_iff, if_pos h]

/-! ### Titles and places -/

/-- The title is written so: its category, its code and the first line of its message. -/
def Title.Spells (title : Title) (cs : List Char) : Prop :=
  IsNumber title.code ∧ ∃ word, (word, title.category) ∈ categories ∧
    cs = word.toList ++ (" TS".toList ++ (title.code ++ (": ".toList ++ title.message)))

/-- The place is written so: its line, its column and its title. -/
def Place.Spells (place : Place) (cs : List Char) : Prop :=
  IsNumber place.line ∧ IsNumber place.column ∧ ∃ rest, place.title.Spells rest ∧
    cs = ":".toList ++ (place.line ++ (":".toList ++ (place.column ++ (" - ".toList ++ rest))))

theorem dropFront?_eq_some {front : String} {cs rest : List Char} :
    dropFront? front cs = some rest ↔ cs = front.toList ++ rest := by
  unfold dropFront?
  constructor
  · intro h
    split_ifs at h with hprefix
    cases h
    obtain ⟨tail, rfl⟩ := List.isPrefixOf_iff_prefix.1 hprefix
    simp
  · rintro rfl
    simp

theorem eq_of_head?_eq :
    ∀ a ∈ categories, ∀ b ∈ categories, a.1.toList.head? = b.1.toList.head? → a = b := by
  decide

theorem head?_isSome : ∀ a ∈ categories, a.1.toList.head?.isSome = true := by
  decide

theorem exists_of_takeCategory? {cs rest : List Char} {category : Category}
    (h : takeCategory? cs = some (category, rest)) :
    ∃ word, (word, category) ∈ categories ∧ cs = word.toList ++ rest := by
  obtain ⟨⟨word, category'⟩, hmem, hfound⟩ := List.exists_of_findSome?_eq_some h
  obtain ⟨rest', hrest, heq⟩ := Option.map_eq_some_iff.1 hfound
  cases heq
  exact ⟨word, hmem, dropFront?_eq_some.1 hrest⟩

/-- No two words for categories begin alike, so only one of them can be in front. -/
theorem takeCategory?_append {word : String} {category : Category}
    (hmem : (word, category) ∈ categories) (rest : List Char) :
    takeCategory? (word.toList ++ rest) = some (category, rest) := by
  have hsome : takeCategory? (word.toList ++ rest) ≠ none := by
    intro hnone
    have hword := List.findSome?_eq_none_iff.1 hnone _ hmem
    simp [dropFront?_eq_some.2 rfl] at hword
  obtain ⟨⟨category', rest'⟩, hfound⟩ := Option.ne_none_iff_exists'.1 hsome
  obtain ⟨word', hmem', heq⟩ := exists_of_takeCategory? hfound
  have hheads : word'.toList.head? = word.toList.head? := by
    have hhead := congrArg List.head? heq
    rw [List.head?_append, List.head?_append, Option.or_of_isSome (head?_isSome _ hmem),
      Option.or_of_isSome (head?_isSome _ hmem')] at hhead
    exact hhead.symm
  cases eq_of_head?_eq _ hmem' _ hmem hheads
  rw [hfound, List.append_cancel_left heq]

theorem title?_eq_some {cs : List Char} {title : Title} :
    title? cs = some title ↔ title.Spells cs := by
  constructor
  · intro h
    obtain ⟨⟨category, a⟩, hcategory, h⟩ := Option.bind_eq_some_iff.1 h
    obtain ⟨b, hb, h⟩ := Option.bind_eq_some_iff.1 h
    obtain ⟨⟨code, c⟩, hcode, h⟩ := Option.bind_eq_some_iff.1 h
    obtain ⟨message, hmessage, h⟩ := Option.bind_eq_some_iff.1 h
    cases h
    obtain ⟨word, hword, rfl⟩ := exists_of_takeCategory? hcategory
    obtain ⟨hnumber, rfl, -⟩ := takeDigits?_eq_some.1 hcode
    rw [dropFront?_eq_some] at hb hmessage
    subst hb hmessage
    exact ⟨hnumber, word, hword, rfl⟩
  · rintro ⟨hnumber, word, hword, rfl⟩
    have hcode := takeDigits?_eq_some.2 ⟨hnumber, rfl,
      (rfl : (": ".toList ++ title.message).head?.all (fun c => !isDecimalDigit c) = true)⟩
    simp only [title?, Option.bind_eq_bind, takeCategory?_append hword, Option.bind_some,
      dropFront?_eq_some.2 rfl, hcode]
    rfl

theorem place?_eq_some {cs : List Char} {place : Place} :
    place? cs = some place ↔ place.Spells cs := by
  constructor
  · intro h
    obtain ⟨a, ha, h⟩ := Option.bind_eq_some_iff.1 h
    obtain ⟨⟨line, b⟩, hline, h⟩ := Option.bind_eq_some_iff.1 h
    obtain ⟨c, hc, h⟩ := Option.bind_eq_some_iff.1 h
    obtain ⟨⟨column, d⟩, hcolumn, h⟩ := Option.bind_eq_some_iff.1 h
    obtain ⟨e, he, h⟩ := Option.bind_eq_some_iff.1 h
    obtain ⟨title, htitle, h⟩ := Option.bind_eq_some_iff.1 h
    cases h
    obtain ⟨hnumber, rfl, -⟩ := takeDigits?_eq_some.1 hline
    obtain ⟨hnumber', rfl, -⟩ := takeDigits?_eq_some.1 hcolumn
    rw [dropFront?_eq_some] at ha hc he
    subst ha hc he
    exact ⟨hnumber, hnumber', e, title?_eq_some.1 htitle, rfl⟩
  · rintro ⟨hnumber, hnumber', rest, htitle, rfl⟩
    have hline := takeDigits?_eq_some.2 ⟨hnumber, rfl,
      (rfl : (":".toList ++ (place.column ++ (" - ".toList ++ rest))).head?.all
        (fun c => !isDecimalDigit c) = true)⟩
    have hcolumn := takeDigits?_eq_some.2 ⟨hnumber', rfl,
      (rfl : (" - ".toList ++ rest).head?.all (fun c => !isDecimalDigit c) = true)⟩
    simp only [place?, Option.bind_eq_bind, Option.bind_some, dropFront?_eq_some.2 rfl, hline,
      hcolumn, title?_eq_some.2 htitle]
    rfl

/-! ### Whole headers -/

/-- A line is the name of a file with a place behind it. -/
def ReadsAs (line file : List Char) (place : Place) : Prop :=
  file ≠ [] ∧ ∃ rest, place.Spells rest ∧ line = file ++ rest

/-- A line can be read as a header. -/
def IsHeader (line : List Char) : Prop :=
  (∃ title : Title, title.Spells line) ∨ ∃ file place, ReadsAs line file place

/-- A line can be read as a header in one way only, and this is how. -/
structure OnlyReadsAs (line file : List Char) (place : Place) : Prop where
  reads : ReadsAs line file place
  not_title : ∀ title : Title, ¬ title.Spells line
  unique : ∀ file' place', ReadsAs line file' place' → file' = file ∧ place' = place

/-- What is found is the name of a file with a place behind it. -/
theorem readsAs_of_fileAndPlace? {front cs file : List Char} {place : Place}
    (h : fileAndPlace? front cs = some (file, place)) :
    ReadsAs (front.reverse ++ cs) file place := by
  induction cs generalizing front with
  | nil => cases h
  | cons c cs ih =>
    rw [fileAndPlace?] at h
    split at h
    next found hfound =>
      cases h
      simpa using ih hfound
    next =>
      split_ifs at h with hfront
      obtain ⟨place', hplace, heq⟩ := Option.map_eq_some_iff.1 h
      cases heq
      refine ⟨by simpa using hfront, c :: cs, place?_eq_some.1 hplace, rfl⟩

/-- Where there is a file with a place behind it, one is found. -/
theorem fileAndPlace?_ne_none {front file rest : List Char} {place : Place}
    (hplace : place.Spells rest) (hne : front ≠ [] ∨ file ≠ []) :
    fileAndPlace? front (file ++ rest) ≠ none := by
  induction file generalizing front with
  | nil =>
    have hfront : front ≠ [] := hne.resolve_right (fun h => h rfl)
    cases hrest : rest with
    | nil =>
      obtain ⟨-, -, _, -, heq⟩ := hplace
      simp [hrest] at heq
    | cons c cs =>
      rw [List.nil_append, fileAndPlace?]
      split
      next => simp
      next => simp [hfront, ← hrest, place?_eq_some.2 hplace]
  | cons c file ih =>
    rw [List.cons_append, fileAndPlace?]
    split
    next => simp
    next hnone => exact absurd hnone (ih (Or.inl (by simp)))

theorem ofHeader?_eq_none {line : List Char} (h : ¬ IsHeader line) : ofHeader? line = none := by
  have htitle : title? line = none := by
    by_contra hne
    obtain ⟨title, htitle⟩ := Option.ne_none_iff_exists'.1 hne
    exact h (Or.inl ⟨title, title?_eq_some.1 htitle⟩)
  have hfile : fileAndPlace? [] line = none := by
    by_contra hne
    obtain ⟨⟨file, place⟩, hfile⟩ := Option.ne_none_iff_exists'.1 hne
    exact h (Or.inr ⟨file, place, readsAs_of_fileAndPlace? hfile⟩)
  simp [ofHeader?, htitle, hfile]

theorem ofHeader?_of_title {line : List Char} {title : Title} {code : ℕ} (h : title.Spells line)
    (hcode : value? title.code = some code) :
    ofHeader? line =
      some { category := title.category, code, message := String.ofList title.message } := by
  simp [ofHeader?, title?_eq_some.2 h, ofTitle?, hcode]

/-- A header that can be read in one way only is read in that way. -/
theorem ofHeader?_of_onlyReads {line file : List Char} {place : Place}
    (h : OnlyReadsAs line file place) : ofHeader? line = ofPlace? file place := by
  obtain ⟨⟨hne, rest, hplace, rfl⟩, htitle, hunique⟩ := h
  have hnone : title? (file ++ rest) = none := by
    by_contra hsome
    obtain ⟨title, hspells⟩ := Option.ne_none_iff_exists'.1 hsome
    exact htitle title (title?_eq_some.1 hspells)
  have hsome : fileAndPlace? [] (file ++ rest) ≠ none := fileAndPlace?_ne_none hplace (Or.inr hne)
  obtain ⟨⟨file', place'⟩, hfound⟩ := Option.ne_none_iff_exists'.1 hsome
  obtain ⟨rfl, rfl⟩ := hunique _ _ (readsAs_of_fileAndPlace? hfound)
  simp [ofHeader?, hnone, hfound]

/-- Whether a line can be read as a header is found out by reading it. -/
theorem not_isHeader {line : List Char} (htitle : (title? line).isNone = true)
    (hfile : (fileAndPlace? [] line).isNone = true) : ¬ IsHeader line := by
  rw [Option.isNone_iff_eq_none] at htitle hfile
  rintro (⟨title, hspells⟩ | ⟨file, place, hne, rest, hplace, rfl⟩)
  · rw [title?_eq_some.2 hspells] at htitle
    cases htitle
  · exact fileAndPlace?_ne_none hplace (Or.inr hne) hfile

/-- Whether a line can be read as a header in one way only is found out by looking for a place behind
each of its beginnings. -/
theorem onlyReadsAs_of_drop {line : List Char} {n : ℕ} {place : Place} (hn : 0 < n)
    (hle : n ≤ line.length) (htitle : (title? line).isNone = true)
    (hplace : place? (line.drop n) = some place)
    (hother : ∀ m ≤ line.length, m ≠ 0 → m ≠ n → (place? (line.drop m)).isNone = true) :
    OnlyReadsAs line (line.take n) place where
  reads := by
    refine ⟨fun hnil => ?_, line.drop n, place?_eq_some.1 hplace, (List.take_append_drop n line).symm⟩
    have := congrArg List.length hnil
    rw [List.length_take, List.length_nil] at this
    omega
  not_title title hspells := by
    rw [title?_eq_some.2 hspells] at htitle
    cases htitle
  unique := by
    rintro file' place' ⟨hne, rest, hspells, rfl⟩
    have hread := place?_eq_some.2 hspells
    have hm : file'.length = n := by
      by_contra hm
      have hnone := hother file'.length (by simp) (by simpa using hne) hm
      rw [List.drop_left, hread] at hnone
      cases hnone
    rw [← hm, List.drop_left, hread] at hplace
    cases hplace
    rw [← hm, List.take_left]
    exact ⟨rfl, rfl⟩

/-- The diagnostic that such a header gives, where the numbers are in decimal notation. -/
theorem ofPlace?_toDigits {file message : List Char} {category : Category} {start : Text.Position}
    {code : ℕ} (hline : start.line + 1 ≤ Diagnostic.maxOffset)
    (hcolumn : start.character + 1 ≤ Diagnostic.maxOffset) (hcode : code ≤ Diagnostic.maxOffset) :
    ofPlace? file
        { line := Nat.toDigits 10 (start.line + 1)
          column := Nat.toDigits 10 (start.character + 1)
          title := { category, code := Nat.toDigits 10 code, message } } =
      some { file := some (String.ofList file)
             start := some start
             category
             code
             message := String.ofList message } := by
  simp [ofPlace?, ofTitle?, value?_toDigits hline, value?_toDigits hcolumn, value?_toDigits hcode]

end ExpectError.Reported
