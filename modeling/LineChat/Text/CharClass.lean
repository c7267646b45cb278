set_option autoImplicit false

/-! # Two classes of characters

The chat sorts characters twice. A *control* character never reaches the line being edited; a
*blank* one is cut from both ends of a line before it is said. Both classes are those of the
Unicode character database, so neither stops at ASCII: the second block of control codes
(`U+0080` to `U+009F`) counts, and so do the wide spaces. -/

namespace LineChat.Text

/-! ## Control characters -/

/-- General category `Cc`: the codes below the space, and `DEL` with the block after it. -/
def isControl (c : Char) : Bool :=
  c.toNat < 0x20 || (0x7F ≤ c.toNat && c.toNat ≤ 0x9F)

/-! ## Blank characters -/

/-- The runs of consecutive code points with the property `White_Space`, ends included. -/
def blankRuns : List (Nat × Nat) :=
  [(0x09, 0x0D), (0x20, 0x20), (0x85, 0x85), (0xA0, 0xA0), (0x1680, 0x1680), (0x2000, 0x200A),
    (0x2028, 0x2029), (0x202F, 0x202F), (0x205F, 0x205F), (0x3000, 0x3000)]

/-- Whether a character has the property `White_Space`. -/
def isBlank (c : Char) : Bool :=
  blankRuns.any fun run => run.1 ≤ c.toNat && c.toNat ≤ run.2

/-- Twenty-five code points are blank. -/
example : (blankRuns.map fun run => run.2 + 1 - run.1).sum = 25 := rfl

end LineChat.Text
