set_option autoImplicit false

/-! # Decimal numbers of at least a given width

Identifiers and dates print numbers with leading zeros: `007`, `2024-01-02`. A number that needs
more digits than the width keeps them all, so nothing is ever cut. -/

namespace LineChat.Decimal

/-- The decimal digits of a number, with zeros in front up to `width` of them. -/
def paddedDigits (width n : Nat) : List Char :=
  let digits := Nat.toDigits 10 n
  List.replicate (width - digits.length) '0' ++ digits

/-- A number in decimal, with zeros in front up to `width` digits. -/
def padded (width n : Nat) : String :=
  String.ofList (paddedDigits width n)

example : padded 3 7 = "007" ∧ padded 3 1234 = "1234" := by decide +kernel

end LineChat.Decimal
