import LineChat.Text.CharClass

set_option autoImplicit false

/-! # Keys

What a character means when it is typed. Carriage return and line feed both enter the line, four
control characters have a meaning of their own, and every other control character means nothing.
So the only characters that reach the line are those that are no control characters. -/

namespace LineChat

/-- One key. -/
inductive Key
  | enter
  | interrupt
  | endOfInput
  | backspace
  | char (c : Char)
  /-- What was typed means nothing. -/
  | ignored
  deriving DecidableEq, Repr

namespace Key

/-- The meaning of a character. -/
def classify (c : Char) : Key :=
  if c = '\r' ∨ c = '\n' then enter
  else if c = '\x03' then interrupt
  else if c = '\x04' then endOfInput
  else if c = '\x08' ∨ c = '\x7f' then backspace
  else if Text.isControl c then ignored
  else char c

/-- No control character is typed into the line. -/
theorem isControl_of_classify_eq_char {c d : Char} (h : classify c = char d) :
    d = c ∧ Text.isControl d = false := by
  unfold classify at h
  iterate 5
    split at h
    · exact absurd h (by simp)
  rename_i hcontrol
  rw [Key.char.injEq] at h
  exact ⟨h.symm, h ▸ Bool.eq_false_iff.2 hcontrol⟩

end Key

end LineChat
