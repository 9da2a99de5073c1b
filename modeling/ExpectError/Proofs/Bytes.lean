import ExpectError.Text.Bytes
import Mathlib.Tactic

/-!
# Boundaries

The offsets of a text at which no character is cut. `splitAtByte?` finds the two parts at every
boundary and nothing elsewhere; `floorBoundary` is the greatest boundary at or below an offset, and
it is monotone.
-/

namespace ExpectError.Text

/-- The offset `n` lies between two characters of the text, or at one of its ends. -/
def IsBoundary (text : List Char) (n : ℕ) : Prop :=
  ∃ before after, text = before ++ after ∧ byteLength before = n

@[simp] theorem isBoundary_nil {n : ℕ} : IsBoundary [] n ↔ n = 0 := by
  constructor
  · rintro ⟨before, after, h, rfl⟩
    simp [(List.append_eq_nil_iff.1 h.symm).1]
  · rintro rfl
    exact ⟨[], [], rfl, rfl⟩

theorem isBoundary_zero (text : List Char) : IsBoundary text 0 := ⟨[], text, rfl, rfl⟩

theorem isBoundary_byteLength (text : List Char) : IsBoundary text (byteLength text) :=
  ⟨text, [], by simp, rfl⟩

theorem isBoundary_cons {c : Char} {cs : List Char} {n : ℕ} :
    IsBoundary (c :: cs) n ↔ n = 0 ∨ ∃ m, IsBoundary cs m ∧ n = c.utf8Size + m := by
  constructor
  · rintro ⟨before, after, h, rfl⟩
    cases before with
    | nil => exact Or.inl rfl
    | cons d before =>
      obtain ⟨rfl, rfl⟩ : c = d ∧ cs = before ++ after := by simpa using h
      exact Or.inr ⟨_, ⟨before, after, rfl, rfl⟩, rfl⟩
  · rintro (rfl | ⟨m, ⟨before, after, rfl, rfl⟩, rfl⟩)
    · exact isBoundary_zero _
    · exact ⟨c :: before, after, rfl, rfl⟩

theorem IsBoundary.le {text : List Char} {n : ℕ} (h : IsBoundary text n) : n ≤ byteLength text := by
  obtain ⟨before, after, rfl, rfl⟩ := h
  simp

theorem byteLength_eq_zero {text : List Char} : byteLength text = 0 ↔ text = [] := by
  cases text with
  | nil => simp
  | cons c cs =>
    have := c.utf8Size_pos
    simp only [byteLength_cons, reduceCtorEq, iff_false]
    omega

theorem byteLength_replicate_space (n : ℕ) : byteLength (List.replicate n ' ') = n := by
  induction n with
  | zero => rfl
  | succ n ih =>
    rw [List.replicate_succ, byteLength, ih]
    exact Nat.add_comm 1 n

/-- Two beginnings of one text with the same number of bytes are the same. -/
theorem append_inj_of_byteLength {a b c d : List Char} (h : a ++ b = c ++ d)
    (hl : byteLength a = byteLength c) : a = c ∧ b = d := by
  induction a generalizing c with
  | nil =>
    cases c with
    | nil => exact ⟨rfl, h⟩
    | cons x c =>
      have := x.utf8Size_pos
      simp at hl
      omega
  | cons x a ih =>
    cases c with
    | nil =>
      have := x.utf8Size_pos
      simp at hl
      omega
    | cons y c =>
      obtain ⟨rfl, hab⟩ : x = y ∧ a ++ b = c ++ d := by simpa using h
      obtain ⟨rfl, rfl⟩ := ih hab (by simpa using hl)
      exact ⟨rfl, rfl⟩

/-- Of two beginnings of one text, the one with fewer bytes is a beginning of the other. -/
theorem exists_append_of_byteLength_le {a b c d : List Char} (h : a ++ b = c ++ d)
    (hle : byteLength a ≤ byteLength c) : ∃ middle, c = a ++ middle ∧ b = middle ++ d := by
  rcases List.append_eq_append_iff.1 h with hmiddle | ⟨middle, rfl, rfl⟩
  · exact hmiddle
  · cases middle with
    | nil => exact ⟨[], by simp, rfl⟩
    | cons x middle =>
      have := x.utf8Size_pos
      rw [byteLength_append, byteLength_cons] at hle
      omega

/-! ### Parts of a text -/

theorem splitAtByte?_append (a b : List Char) :
    splitAtByte? (byteLength a) (a ++ b) = some (a, b) := by
  induction a with
  | nil => simp [splitAtByte?]
  | cons c a ih =>
    have hc := c.utf8Size_pos
    obtain ⟨n, hn⟩ : ∃ n, byteLength (c :: a) = n + 1 :=
      ⟨byteLength (c :: a) - 1, by rw [byteLength_cons]; omega⟩
    have hm : n + 1 - c.utf8Size = byteLength a := by rw [← hn, byteLength_cons]; omega
    rw [hn, List.cons_append, splitAtByte?, if_neg (by rw [← hn, byteLength_cons]; omega), hm, ih]
    rfl

/-- The two parts at an offset are the beginning with so many bytes and the rest. -/
theorem splitAtByte?_eq_some_iff {n : ℕ} {text a b : List Char} :
    splitAtByte? n text = some (a, b) ↔ text = a ++ b ∧ byteLength a = n := by
  constructor
  · intro h
    induction text generalizing n a with
    | nil =>
      cases n with
      | zero => cases h; exact ⟨rfl, rfl⟩
      | succ n => cases h
    | cons c cs ih =>
      cases n with
      | zero => cases h; exact ⟨rfl, rfl⟩
      | succ n =>
        rw [splitAtByte?] at h
        split_ifs at h with hlt
        obtain ⟨⟨a', b'⟩, hs, he⟩ := Option.map_eq_some_iff.1 h
        cases he
        obtain ⟨rfl, hl⟩ := ih hs
        exact ⟨rfl, by rw [byteLength_cons]; omega⟩
  · rintro ⟨rfl, rfl⟩
    exact splitAtByte?_append a b

/-- The part between two offsets stands behind as many bytes as the first offset says. -/
theorem slice?_eq_some {i j : ℕ} {text middle : List Char} (h : slice? i j text = some middle) :
    ∃ before after, text = before ++ (middle ++ after) ∧ byteLength before = i := by
  rw [slice?] at h
  split_ifs at h
  obtain ⟨⟨before, rest⟩, hbefore, h⟩ := Option.bind_eq_some_iff.1 h
  obtain ⟨⟨middle', after⟩, hmiddle, h⟩ := Option.bind_eq_some_iff.1 h
  cases h
  obtain ⟨rfl, hlength⟩ := splitAtByte?_eq_some_iff.1 hbefore
  obtain ⟨rfl, -⟩ := splitAtByte?_eq_some_iff.1 hmiddle
  exact ⟨before, after, rfl, hlength⟩

theorem slice?_append (before middle after : List Char) :
    slice? (byteLength before) (byteLength before + byteLength middle)
      (before ++ (middle ++ after)) = some middle := by
  rw [slice?, if_neg (by omega), splitAtByte?_append, Nat.add_sub_cancel_left]
  show (splitAtByte? (byteLength middle) (middle ++ after)).bind _ = _
  rw [splitAtByte?_append]
  rfl

/-! ### The nearest boundary -/

theorem isBoundary_floorBoundary (n : ℕ) (text : List Char) :
    IsBoundary text (floorBoundary n text) := by
  induction text generalizing n with
  | nil => simp [floorBoundary]
  | cons c cs ih =>
    rw [floorBoundary]
    split_ifs
    · exact isBoundary_zero _
    · exact isBoundary_cons.2 (Or.inr ⟨_, ih _, rfl⟩)

theorem floorBoundary_le (n : ℕ) (text : List Char) : floorBoundary n text ≤ n := by
  induction text generalizing n with
  | nil => simp [floorBoundary]
  | cons c cs ih =>
    rw [floorBoundary]
    have := ih (n - c.utf8Size)
    split_ifs <;> omega

/-- No boundary at or below an offset is greater than the one that is found. -/
theorem le_floorBoundary {n b : ℕ} {text : List Char} (hb : IsBoundary text b) (h : b ≤ n) :
    b ≤ floorBoundary n text := by
  induction text generalizing n b with
  | nil => simp [isBoundary_nil.1 hb]
  | cons c cs ih =>
    rw [floorBoundary]
    obtain rfl | ⟨m, hm, rfl⟩ := isBoundary_cons.1 hb
    · exact Nat.zero_le _
    · rw [if_neg (by omega)]
      have := ih hm (n := n - c.utf8Size) (by omega)
      omega

theorem floorBoundary_mono {m n : ℕ} (text : List Char) (h : m ≤ n) :
    floorBoundary m text ≤ floorBoundary n text :=
  le_floorBoundary (isBoundary_floorBoundary m text) ((floorBoundary_le m text).trans h)

theorem floorBoundary_eq_self {n : ℕ} {text : List Char} (h : IsBoundary text n) :
    floorBoundary n text = n :=
  Nat.le_antisymm (floorBoundary_le n text) (le_floorBoundary h le_rfl)

end ExpectError.Text
