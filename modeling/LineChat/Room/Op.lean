import LineChat.Room.Basic

set_option autoImplicit false

/-! # Operations on a room

Everything that can be done to a room from outside, as a value: `Room.perform` carries it out.
A history of a room is a list of these. -/

namespace LineChat.Room

/-- Something to do to a room. -/
inductive Op
  | join (name : String)
  | leave (id : ParticipantId)
  | say (id : ParticipantId) (fallback text : String)
  | receive (place : Place)
  | drain (place : Place)
  | hangUp (place : Place)
  deriving DecidableEq, Repr

/-- What comes back. -/
inductive Answer
  | joined (ticket : Ticket)
  | said (line : String)
  | received (receipt : Receipt)
  /-- The lines taken out, and whether the room has closed its end; nothing where the reader's
      end is gone. -/
  | drained (lines? : Option (List String × Bool))
  /-- Whether there was a reader's end to give up. -/
  | hungUp (held : Bool)
  | left
  deriving DecidableEq, Repr

/-- Carries out an operation, handing out lines in a given order of the registry. -/
def performIn (arrange : List Member → List Member) (room : Room) : Op → Turn Answer
  | .join name =>
    let turn := room.joinIn arrange name
    ⟨turn.room, .joined turn.answer, turn.events⟩
  | .leave id =>
    let turn := room.leaveIn arrange id
    ⟨turn.room, .left, turn.events⟩
  | .say id fallback text =>
    let turn := room.sayIn arrange id fallback text
    ⟨turn.room, .said turn.answer, turn.events⟩
  | .receive place =>
    let (receipt, room) := room.receive place
    ⟨room, .received receipt, []⟩
  | .drain place =>
    let (lines?, room) := room.drain place
    ⟨room, .drained lines?, []⟩
  | .hangUp place => ⟨room.hangUp place, .hungUp (room.isRead place), []⟩

/-- Carries out an operation, handing out lines in the order of joining. -/
def perform (room : Room) (op : Op) : Turn Answer :=
  room.performIn (fun order => order) op

end LineChat.Room
