/-!
# Texts from bytes

Bytes that are not well formed UTF-8 are read leniently: each longest beginning of a character that
is not continued becomes one replacement character.
-/

namespace ExpectError.Text

/-- The character that stands for bytes that make no character. -/
def replacement : Char := '\uFFFD'

/-- A character of which some bytes have been read. -/
structure PartialChar where
  /-- The bits read so far. -/
  bits : Nat
  /-- How many bytes are missing. -/
  missing : Nat
  /-- The least value that the next byte can have. -/
  least : Nat := 0x80
  /-- The greatest value that the next byte can have. -/
  greatest : Nat := 0xBF
  deriving DecidableEq, Repr

/-- What the first byte of a character says. -/
inductive Lead where
  | whole (c : Char)
  | part (p : PartialChar)
  | none
  deriving DecidableEq, Repr

/-- Reads the first byte of a character. The ranges of the second byte exclude overlong forms,
surrogates and numbers beyond the last code point. -/
def leadOf (byte : Nat) : Lead :=
  if byte < 0x80 then .whole (Char.ofNat byte)
  else if byte < 0xC2 then .none
  else if byte < 0xE0 then .part { bits := byte - 0xC0, missing := 1 }
  else if byte = 0xE0 then .part { bits := 0, missing := 2, least := 0xA0 }
  else if byte = 0xED then .part { bits := 0xD, missing := 2, greatest := 0x9F }
  else if byte < 0xF0 then .part { bits := byte - 0xE0, missing := 2 }
  else if byte = 0xF0 then .part { bits := 0, missing := 3, least := 0x90 }
  else if byte < 0xF4 then .part { bits := byte - 0xF0, missing := 3 }
  else if byte = 0xF4 then .part { bits := 4, missing := 3, greatest := 0x8F }
  else .none

/-- Reads bytes behind the first bytes of a character. -/
def lenientFrom : Option PartialChar → List UInt8 → List Char
  | none, [] => []
  | some _, [] => [replacement]
  | none, byte :: bytes =>
    match leadOf byte.toNat with
    | .whole c => c :: lenientFrom none bytes
    | .part p => lenientFrom (some p) bytes
    | .none => replacement :: lenientFrom none bytes
  | some p, byte :: bytes =>
    let b := byte.toNat
    if p.least ≤ b ∧ b ≤ p.greatest then
      let bits := p.bits * 64 + (b - 0x80)
      if p.missing = 1 then Char.ofNat bits :: lenientFrom none bytes
      else lenientFrom (some { bits, missing := p.missing - 1 }) bytes
    else
      match leadOf b with
      | .whole c => replacement :: c :: lenientFrom none bytes
      | .part q => replacement :: lenientFrom (some q) bytes
      | .none => replacement :: replacement :: lenientFrom none bytes

/-- The text of some bytes, with replacement characters for what is not well formed. -/
def lenient (bytes : List UInt8) : List Char :=
  lenientFrom none bytes

/-- The text of some bytes, if they are well formed. -/
def ofBytes? (bytes : List UInt8) : Option String :=
  String.fromUTF8? ⟨bytes.toArray⟩

end ExpectError.Text
