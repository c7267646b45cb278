import LineChat.Text.Decimal

set_option autoImplicit false

/-! # Participants

Everybody who joins gets a number, counted from one, and is shown by it as `user-007` until a
name is claimed. Numbers have 64 bits and start over when they run out; what belongs to one
participant for good is the place in the room. A participant's name is written in a colour: a token
that the terminal reads, or no token at all. -/

namespace LineChat

/-! ## Identifiers -/

/-- The number of a participant. Numbers are given out in order. -/
structure ParticipantId where
  seq : UInt64
  deriving DecidableEq, Repr

namespace ParticipantId

/-- The form in which a number is shown: three digits, or more where it needs more. -/
def display (id : ParticipantId) : String :=
  "user-" ++ Decimal.padded 3 id.seq.toNat

/-- Whether a participant joined no later than another. -/
def notAfter (a b : ParticipantId) : Bool :=
  a.seq ≤ b.seq

end ParticipantId

/-! ## Places -/

/-- A place in a room, counted from nought in the order of joining. No place is taken twice. -/
structure Place where
  index : Nat
  deriving DecidableEq, Repr

/-- The place that comes with a number when the number is given out for the first time. -/
def ParticipantId.place (id : ParticipantId) : Place :=
  ⟨(id.seq - 1).toNat⟩

/-- A number can be written for the place that comes with it. -/
instance : Coe ParticipantId Place :=
  ⟨ParticipantId.place⟩

/-! ## Colours -/

/-- What is written in front of a name to colour it. -/
structure Color where
  token : String
  deriving DecidableEq, Repr

namespace Color

/-- The colour that leaves names as they are. -/
def plain : Color :=
  ⟨""⟩

/-- Whether a colour leaves names as they are. -/
def isPlain (color : Color) : Bool :=
  color.token.isEmpty

/-- What is written behind a coloured name. -/
def reset : String :=
  "\x1b[0m"

/-- A name in its colour. A plain colour adds nothing. -/
def paint (color : Color) (name : String) : String :=
  if color.isPlain then name else color.token ++ name ++ reset

end Color

/-- What a participant is told on joining. -/
structure Ticket where
  id : ParticipantId
  name : String
  color : Color
  place : Place
  deriving DecidableEq, Repr

end LineChat
