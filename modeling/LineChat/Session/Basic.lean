import LineChat.Draft
import LineChat.Event
import LineChat.Key.Reader
import LineChat.Session.Pen

set_option autoImplicit false

/-! # Sessions

A session joins one connection to the room. It starts in the lobby, where it waits for a shell to
be requested; if the requests end without one, it is turned away and has never been seen in the
room. Once it has a seat, two tasks go on side by side: the one that reads keys, from the greeting
to the end, and the relay, which shows what the room has sent.

`KeyLoop` and `Relay` say what each of them is at. A task makes a `Move`, which may change the
room and the session and leaves events behind. -/

namespace LineChat

/-! ## What a session is at -/

/-- What the key task does when it has drawn what it is drawing. -/
inductive Aim
  /-- It starts the relay and greets. -/
  | openRelay
  /-- It reads the next key. -/
  | readKeys
  /-- It leaves, and this is how the session ends. -/
  | leave (outcome : Outcome)
  deriving DecidableEq, Repr

/-- What the task that reads keys is at. -/
inductive KeyLoop
  | drawing (pen : Pen) (aim : Aim)
  | reading
  /-- About to leave the room. -/
  | leaving (outcome : Outcome)
  /-- Out of the room, and waiting for the relay to show what is queued. -/
  | draining (outcome : Outcome)
  | ended (outcome : Outcome)
  deriving DecidableEq, Repr

/-- What the task that shows the room's lines is at. -/
inductive Relay
  /-- It has not been started. -/
  | absent
  /-- It waits for a line. -/
  | waiting
  | drawing (pen : Pen)
  | finished
  deriving DecidableEq, Repr

/-- Whether a session takes part in the room. -/
inductive Stage
  | lobby
  | turnedAway
  | seated (ticket : Ticket) (keyLoop : KeyLoop) (relay : Relay)
  deriving DecidableEq, Repr

/-- The requests beside a connection. -/
structure RequestQueue where
  /-- Those that have not been answered, oldest first. -/
  pending : List RequestKind
  /-- Whether more may come. -/
  arriving : Bool
  /-- Whether somebody answers them. -/
  attended : Bool
  /-- Whether a shell has been requested. -/
  shellTaken : Bool
  deriving DecidableEq, Repr

/-- One connection, and all that belongs to it. -/
structure Session where
  /-- The name that the client claims, perhaps none. -/
  claimed : String
  requests : RequestQueue
  reader : KeyReader
  draft : Draft
  screen : Screen
  stage : Stage

/-- What a task does in one go. -/
structure Move where
  room : Room
  session : Session
  events : List Event

/-! ## Pens of a session -/

namespace KeyLoop

/-- Whether the task holds the terminal. -/
def holds : KeyLoop → Bool
  | drawing pen _ => pen.holds
  | reading | leaving _ | draining _ | ended _ => false

/-- The task after the other one has let the terminal go. -/
def admitted (screen : Screen) : KeyLoop → KeyLoop
  | drawing pen aim => drawing (pen.admitted screen) aim
  | other => other

end KeyLoop

namespace Relay

/-- Whether the task holds the terminal. -/
def holds : Relay → Bool
  | drawing pen => pen.holds
  | absent | waiting | finished => false

/-- The task after the other one has let the terminal go. -/
def admitted (screen : Screen) : Relay → Relay
  | drawing pen => drawing (pen.admitted screen)
  | other => other

/-- Whether nothing will be shown any more. -/
def isOver : Relay → Bool
  | absent | finished => true
  | waiting | drawing _ => false

end Relay

namespace Session

/-- A session of which nothing has been done. -/
def fresh (claimed : String) (requests : List RequestKind) (arriving : Bool)
    (input : List ReadEvent) (script : Script) : Session where
  claimed := claimed
  requests := ⟨requests, arriving, true, false⟩
  reader := .ofEvents input
  draft := .empty
  screen := .ofScript script
  stage := .lobby

/-- The seat of a session that has one. -/
def ticket? (session : Session) : Option Ticket :=
  match session.stage with
  | .seated ticket _ _ => some ticket
  | .lobby | .turnedAway => none

/-- How the session has ended, if it has. -/
def outcome? (session : Session) : Option Outcome :=
  match session.stage with
  | .turnedAway => some (.failed .shellNotRequested)
  | .seated _ (.ended outcome) _ => some outcome
  | .lobby | .seated .. => none

/-- The session with its two tasks at this. -/
def seated (session : Session) (ticket : Ticket) (keyLoop : KeyLoop) (relay : Relay) : Session :=
  { session with stage := .seated ticket keyLoop relay }

end Session

end LineChat
