import LineChat.Session.Basic

set_option autoImplicit false

/-! # Showing what the room sends

The relay of a session takes one line after the other out of the queue and shows it, with a new
prompt below. It comes to an end when the room has closed the queue and everything is shown. It
comes to an end early when it cannot write; then the queue is given up, and the session goes on
without it. -/

namespace LineChat.Session

/-- Shows on. -/
def drawRelay (session : Session) (room : Room) (ticket : Ticket) (keyLoop : KeyLoop)
    (pen : Pen) : Option Move :=
  (pen.step room.online session.draft.text session.screen keyLoop.holds).map fun
    | .called pen => ⟨room, session.seated ticket keyLoop (.drawing pen), []⟩
    | .heldUp pen screen => ⟨room, { session with screen }.seated ticket keyLoop (.drawing pen), []⟩
    | .drew draw pen screen =>
      ⟨room, { session with screen }.seated ticket (keyLoop.admitted screen) (.drawing pen),
        [.drew .relay draw]⟩
    | .failed fault screen =>
      ⟨room.hangUp ticket.place,
        { session with screen }.seated ticket (keyLoop.admitted screen) .finished,
        [.drawFailed .relay fault, .relayStopped ticket.id (.io fault), .relayFinished ticket.id]⟩
    | .finished => ⟨room, session.seated ticket keyLoop .waiting, []⟩

/-- Looks for a line. -/
def fetchLine (session : Session) (room : Room) (ticket : Ticket) (keyLoop : KeyLoop) :
    Option Move :=
  match room.receive ticket.place with
  | (.line text, room) =>
    some ⟨room, session.seated ticket keyLoop (.drawing (.ready [.line text, .prompt])), []⟩
  | (.waiting, _) => none
  | (.closed, room) | (.dropped, room) =>
    some ⟨room, session.seated ticket keyLoop .finished, [.relayFinished ticket.id]⟩

/-- What the task that shows the room's lines does next. -/
def relayStep (session : Session) (room : Room) : Option Move :=
  match session.stage with
  | .lobby | .turnedAway => none
  | .seated ticket keyLoop relay =>
    match relay with
    | .absent | .finished => none
    | .waiting => session.fetchLine room ticket keyLoop
    | .drawing pen => session.drawRelay room ticket keyLoop pen

end LineChat.Session
