import Mathlib.Tactic

/-!
# The order of encoded texts

UTF-8 keeps the order of texts: comparing two texts character by character and comparing their
encodings byte by byte give the same answer (`bytesOf_le_iff`). So the order of words at one offset
is an order of bytes.
-/

namespace ExpectError.Text

/-- The bytes of the UTF-8 encoding. -/
def bytesOf (text : String) : List UInt8 := text.toUTF8.data.toList

theorem bytesOf_eq_flatMap (text : String) :
    bytesOf text = text.toList.flatMap String.utf8EncodeChar := by
  rw [bytesOf, String.toUTF8_eq_toByteArray, ← String.utf8Encode_toList, List.utf8Encode]
  simp

/-! ### One character -/

/-- Of two numbers in base 64, the greater has the greater front part or the same front part and the
greater last digit. -/
theorem div_mod_lt_of_lt {n m : ℕ} (h : n < m) :
    n / 64 < m / 64 ∨ n / 64 = m / 64 ∧ n % 64 < m % 64 := by omega

/-- The digits in base 64 of two numbers compare like the numbers. -/
theorem digits_lt_of_lt {n m : ℕ} (h : n < m) :
    n / 262144 < m / 262144 ∨ n / 262144 = m / 262144 ∧
      (n / 4096 % 64 < m / 4096 % 64 ∨ n / 4096 % 64 = m / 4096 % 64 ∧
        (n / 64 % 64 < m / 64 % 64 ∨ n / 64 % 64 = m / 64 % 64 ∧ n % 64 < m % 64)) := by
  rcases div_mod_lt_of_lt h with h₁ | h₁
  · rcases div_mod_lt_of_lt h₁ with h₂ | h₂
    · rcases div_mod_lt_of_lt h₂ with h₃ | h₃ <;> omega
    · omega
  · omega

/-- The first byte in which two characters differ decides as their code points do, so nothing that
follows can change the order. -/
theorem utf8EncodeChar_append_lt {c d : Char} (h : c < d) (u v : List UInt8) :
    String.utf8EncodeChar c ++ u < String.utf8EncodeChar d ++ v := by
  have hlt : c.val.toNat < d.val.toNat := UInt32.lt_iff_toNat_lt.1 h
  have hd : d.val.toNat < 0x110000 := by
    have := d.valid
    simp only [UInt32.isValidChar, Nat.isValidChar] at this
    omega
  unfold String.utf8EncodeChar
  generalize c.val.toNat = n at hlt ⊢
  generalize d.val.toNat = m at hlt hd ⊢
  have hdigits := digits_lt_of_lt hlt
  have hn : n / 262144 % 8 = n / 262144 := Nat.mod_eq_of_lt (by omega)
  have hm : m / 262144 % 8 = m / 262144 := Nat.mod_eq_of_lt (by omega)
  -- no byte of an encoding overflows
  have cont (k : ℕ) : (k % 0x40 + 0x80) % 2 ^ 8 = k % 0x40 + 0x80 := by omega
  have lead₂ (k : ℕ) : (k % 0x20 + 0xc0) % 2 ^ 8 = k % 0x20 + 0xc0 := by omega
  have lead₃ (k : ℕ) : (k % 0x10 + 0xe0) % 2 ^ 8 = k % 0x10 + 0xe0 := by omega
  have lead₄ (k : ℕ) : (k % 0x08 + 0xf0) % 2 ^ 8 = k % 0x08 + 0xf0 := by omega
  simp only
  split_ifs <;>
    simp only [List.cons_append, List.nil_append, List.cons_lt_cons_iff, UInt8.lt_iff_toNat_lt,
      ← UInt8.toNat_inj, UInt8.toNat_ofNat', cont, lead₂, lead₃, lead₄] <;> omega

/-! ### Whole texts -/

theorem append_lt_append_left {a b : List UInt8} (h : a < b) (p : List UInt8) :
    p ++ a < p ++ b := by
  induction p with
  | nil => exact h
  | cons x p ih => exact List.cons_lt_cons_iff.2 (Or.inr ⟨rfl, ih⟩)

theorem flatMap_utf8EncodeChar_lt {a b : List Char} (h : a < b) :
    a.flatMap String.utf8EncodeChar < b.flatMap String.utf8EncodeChar := by
  induction a generalizing b with
  | nil =>
    cases b with
    | nil => exact absurd h (List.not_lt_nil _)
    | cons d b =>
      rw [List.flatMap_nil, List.flatMap_cons]
      obtain ⟨x, xs, hx⟩ := List.exists_cons_of_ne_nil (String.utf8EncodeChar_ne_nil (c := d))
      rw [hx]
      exact List.nil_lt_cons _ _
  | cons c a ih =>
    cases b with
    | nil => exact absurd h (List.not_lt_nil _)
    | cons d b =>
      rw [List.flatMap_cons, List.flatMap_cons]
      rcases List.cons_lt_cons_iff.1 h with hcd | ⟨rfl, hab⟩
      · exact utf8EncodeChar_append_lt hcd _ _
      · exact append_lt_append_left (ih hab) _

/-- Bytewise and character by character, texts have the same order. -/
theorem bytesOf_le_iff (a b : String) : bytesOf a ≤ bytesOf b ↔ a ≤ b := by
  rw [bytesOf_eq_flatMap, bytesOf_eq_flatMap]
  constructor
  · intro h hlt
    exact h (flatMap_utf8EncodeChar_lt hlt)
  · intro h hlt
    by_cases hab : a < b
    · exact List.lt_asymm hlt (flatMap_utf8EncodeChar_lt hab)
    · rw [String.le_antisymm h hab] at hlt
      exact List.lt_irrefl _ hlt

end ExpectError.Text
