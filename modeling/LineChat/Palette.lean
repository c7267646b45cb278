import LineChat.Participant

set_option autoImplicit false

/-! # Choosing colours

A room draws a colour for everybody who joins, either in turn or at random. Both draw from a
fixed list of colours, and an empty list only ever gives the plain one, without moving on. -/

namespace LineChat

/-- The colours of an ordinary room: red, green, yellow, blue, magenta and cyan. -/
def standardPalette : List Color :=
  ["\x1b[31m", "\x1b[32m", "\x1b[33m", "\x1b[34m", "\x1b[35m", "\x1b[36m"].map Color.mk

/-- Where a room takes its colours from. -/
inductive ColorPicker
  /-- One colour after the other, and from the start again; `drawn` have been taken. -/
  | cycle (palette : List Color) (drawn : UInt64)
  /-- Any colour with equal chances. -/
  | random (palette : List Color) (generator : StdGen)

namespace ColorPicker

/-- A picker that never colours a name. -/
def plain : ColorPicker :=
  .cycle [] 0

/-- The next colour, and the picker after it. -/
def draw : ColorPicker → Color × ColorPicker
  | .cycle [] drawn => (Color.plain, .cycle [] drawn)
  | .cycle (first :: rest) drawn =>
    let palette := first :: rest
    (palette.getD (drawn.toNat % palette.length) first, .cycle palette (drawn + 1))
  | .random [] generator => (Color.plain, .random [] generator)
  | .random (first :: rest) generator =>
    let palette := first :: rest
    let (index, generator) := randNat generator 0 (palette.length - 1)
    (palette.getD index first, .random palette generator)

/-- The next colours, as many as asked for. -/
def take : Nat → ColorPicker → List Color
  | 0, _ => []
  | n + 1, picker => picker.draw.1 :: take n picker.draw.2

/-- The colours that a picker chooses from. -/
def palette : ColorPicker → List Color
  | .cycle palette _ | .random palette _ => palette

/-- Drawing leaves the palette alone. -/
@[simp] theorem palette_draw (picker : ColorPicker) : picker.draw.2.palette = picker.palette := by
  cases picker with
  | cycle palette drawn => cases palette <;> rfl
  | random palette generator => cases palette <;> rfl

/-- A drawn colour is one of the palette, or plain where the palette is empty. -/
theorem draw_mem (picker : ColorPicker) :
    picker.draw.1 ∈ picker.palette ∨ picker.palette = [] ∧ picker.draw.1 = Color.plain := by
  have pick : ∀ (first : Color) (rest : List Color) (i : Nat),
      (first :: rest).getD i first ∈ first :: rest := by
    intro first rest i
    rw [List.getD_eq_getElem?_getD]
    cases h : (first :: rest)[i]? with
    | none => simp
    | some color => exact List.mem_of_getElem? h
  cases picker with
  | cycle palette drawn =>
      cases palette with
      | nil => exact Or.inr ⟨rfl, rfl⟩
      | cons first rest => exact Or.inl (pick first rest _)
  | random palette generator =>
      cases palette with
      | nil => exact Or.inr ⟨rfl, rfl⟩
      | cons first rest => exact Or.inl (pick first rest _)

end ColorPicker

end LineChat
