set_option autoImplicit false

/-! # UTF-8, one character at a time

The first byte of a character fixes how many bytes it takes; the bytes after it are
*continuation* bytes. A sequence of the right shape still need not encode anything: it may spell
a value that fits in fewer bytes, a surrogate, or one past the last code point. `decode?` tells
these apart, and `encode` is the way back to bytes. -/

namespace LineChat.Utf8

/-! ## Classes of bytes -/

/-- How many bytes the character takes that starts with this byte; zero where none does. -/
def width (lead : UInt8) : Nat :=
  if lead ≤ 0x7F then 1
  else if 0xC2 ≤ lead && lead ≤ 0xDF then 2
  else if 0xE0 ≤ lead && lead ≤ 0xEF then 3
  else if 0xF0 ≤ lead && lead ≤ 0xF4 then 4
  else 0

/-- Whether a byte continues a character, as `0x80` to `0xBF` do. -/
def isContinuation (b : UInt8) : Bool :=
  0x80 ≤ b && b ≤ 0xBF

/-- No character takes more than four bytes. -/
theorem width_le_four (b : UInt8) : width b ≤ 4 := by
  unfold width
  repeat' split
  all_goals omega

/-! ## Decoding -/

/-- The character with this code point, unless it is a surrogate or past the last one. -/
def scalar? (n : Nat) : Option Char :=
  if h : n.isValidChar then some (Char.ofNatAux n h) else none

/-- The value that the low six bits of a continuation byte hold. -/
def payload (b : UInt8) : Nat :=
  b.toNat % 64

/-- The character that a lead byte and the continuation bytes after it encode. A value that
    needs fewer bytes than are given is refused, as is one that is no character. -/
def decode? : List UInt8 → Option Char
  | [a] => if a ≤ 0x7F then scalar? a.toNat else none
  | [a, b] =>
    let n := a.toNat % 32 * 64 + payload b
    if 0x80 ≤ n then scalar? n else none
  | [a, b, c] =>
    let n := (a.toNat % 16 * 64 + payload b) * 64 + payload c
    if 0x800 ≤ n then scalar? n else none
  | [a, b, c, d] =>
    let n := ((a.toNat % 8 * 64 + payload b) * 64 + payload c) * 64 + payload d
    if 0x10000 ≤ n then scalar? n else none
  | _ => none

/-- Overlong forms, surrogates and values past the last code point decode to nothing. -/
example : decode? [0xE0, 0x80, 0xAF] = none ∧ decode? [0xED, 0xA0, 0x80] = none
    ∧ decode? [0xF4, 0x90, 0x80, 0x80] = none ∧ decode? [0xF0, 0x9F, 0xA6, 0x80] = some '🦀' := by
  decide

/-! ## Encoding -/

/-- The bytes of a string. -/
def encode (s : String) : List UInt8 :=
  s.toList.flatMap String.utf8EncodeChar

theorem encode_append (s t : String) : encode (s ++ t) = encode s ++ encode t := by
  simp [encode]

end LineChat.Utf8
