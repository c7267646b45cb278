import LineChat.Request
import LineChat.Room.Basic
import LineChat.Screen.Draw

set_option autoImplicit false

/-! # What happens, and what of it is logged

Whatever a session does leaves an event. Some of them are worth a line in the log, each with its
level and its wording; the others are there to tell what happened in which order. -/

namespace LineChat

/-- How a session ends. -/
inductive Outcome
  | well
  | failed (fault : SessionFault)
  deriving DecidableEq, Repr

/-- The parts of a session, each of which waits for something of its own. -/
inductive Task
  /-- Answers the requests beside the connection. -/
  | requests
  /-- Reads keys, from the beginning of the session to its end. -/
  | keys
  /-- Shows what the room has sent. -/
  | relay
  deriving DecidableEq, Repr

/-- What happens. -/
inductive Event
  /-- Something happened in the room. -/
  | room (event : Room.Event)
  /-- A request was answered. -/
  | replied (kind : RequestKind) (granted : Bool)
  /-- No request is left and none will come. -/
  | requestsEnded
  /-- The requests ended and none of them was for a shell, so this name never joined. -/
  | turnedAway (claimed : String)
  /-- Something was drawn to its end. -/
  | drew (task : Task) (draw : Draw)
  /-- A drawing failed, and was given up. -/
  | drawFailed (task : Task) (fault : IoFault)
  /-- A key that ends the session is acknowledged by this label. -/
  | acknowledged (label : String)
  /-- There is nothing more to read. -/
  | inputClosed (id : ParticipantId)
  /-- Reading failed. -/
  | readFailed (id : ParticipantId) (fault : IoFault)
  /-- Showing what the room had sent failed. -/
  | relayStopped (id : ParticipantId) (fault : SessionFault)
  /-- Nothing that the room sends is shown any more. -/
  | relayFinished (id : ParticipantId)
  /-- The connection was shut down. -/
  | shutDown
  /-- Shutting the connection down failed. -/
  | shutdownFailed (id : ParticipantId) (fault : IoFault)
  /-- The session is over. -/
  | ended (id : ParticipantId) (outcome : Outcome)
  deriving DecidableEq, Repr

/-! ## The log -/

/-- How much a line of the log matters. -/
inductive Level
  | debug
  | info
  | warn
  deriving DecidableEq, Repr

/-- How a level is written. -/
def Level.label : Level → String
  | debug => "DEBUG"
  | info => "INFO"
  | warn => "WARN"

/-- A line of the log. -/
structure LogLine where
  level : Level
  message : String
  deriving DecidableEq, Repr

/-- The line in full. -/
def LogLine.render (line : LogLine) : String :=
  line.level.label ++ " " ++ line.message

/-- The line that the log gets when something happens in the room. -/
def Room.Event.log? : Room.Event → Option LogLine
  | .joined _ ticket online =>
    some ⟨.info, "Client " ++ ticket.id.display ++ " joined as '" ++ ticket.name ++ "' ("
      ++ toString online ++ " online)"⟩
  | .left id name online =>
    some ⟨.info, "Client " ++ id.display ++ " ('" ++ name ++ "') left (" ++ toString online
      ++ " online)"⟩
  | .alreadyGone id => some ⟨.debug, "Client " ++ id.display ++ " already removed"⟩
  | .refused id fault =>
    some ⟨.debug, "Dropped message for " ++ id.display ++ ": " ++ fault.message⟩
  | .said .. | .delivered .. => none

/-- The line that the log gets when something happens. -/
def Event.log? : Event → Option LogLine
  | .room event => event.log?
  | .replied kind granted =>
    if kind = .shell then none
    else if granted then some ⟨.debug, "Acknowledging " ++ kind.tag ++ " request"⟩
    else some ⟨.debug, "Rejecting unsupported " ++ kind.tag ++ " request"⟩
  | .requestsEnded => some ⟨.debug, "Request stream ended"⟩
  | .turnedAway claimed =>
    some ⟨.debug, "Request stream for '" ++ claimed ++ "' ended before a shell was requested"⟩
  | .inputClosed id => some ⟨.debug, "Connection for " ++ id.display ++ " closed"⟩
  | .readFailed id fault =>
    some ⟨.warn, "Read error for " ++ id.display ++ ": " ++ fault.message⟩
  | .relayStopped id fault =>
    some ⟨.debug, "Relay for " ++ id.display ++ " stopped: " ++ fault.message⟩
  | .relayFinished id => some ⟨.debug, "Relay for " ++ id.display ++ " finished"⟩
  | .shutdownFailed id fault =>
    some ⟨.debug, "Closing connection for " ++ id.display ++ " failed: " ++ fault.message⟩
  | .ended id _ => some ⟨.info, "Session for " ++ id.display ++ " ended"⟩
  | .drew .. | .drawFailed .. | .acknowledged _ | .shutDown => none

end LineChat
