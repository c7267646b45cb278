import LineChat.Session.Basic
import LineChat.Text.Trim

set_option autoImplicit false

/-! # From the greeting to the end

The key task of a session waits in the lobby, joins, clears the screen, starts the relay and
greets. Then it reads: what is typed goes into the draft, an entered line is said, and `^C` and
`^D` end the session, as does the end of the input, at which whatever was typed still counts as a
line. Last it leaves the room, waits until the relay has shown what is queued, and shuts the
connection down.

A failure to write ends the session. The one exception is the line that reports a failure to read:
the session ends with that failure, whether or not it could be reported. -/

namespace LineChat

/-! ## Texts and aims -/

/-- What is drawn to greet somebody. -/
def KeyLoop.greeting (name : String) : List Call :=
  [.line (Line.welcome name), .prompt, .line Line.instructions, .prompt]

/-- The task with a line to draw, and the prompt below it. -/
def KeyLoop.showing (line : String) (aim : Aim) : KeyLoop :=
  .drawing (.ready [.line line, .prompt]) aim

/-- The task with the prompt to draw. -/
def KeyLoop.prompting : KeyLoop :=
  .drawing (.ready [.prompt]) .readKeys

/-- How a session ends that cannot write what it wants to: by that fault, unless it is ending by
    a failure to read. -/
def Aim.outcomeOnFault (fault : IoFault) : Aim → Outcome
  | .leave (.failed (.read cause)) => .failed (.read cause)
  | .openRelay | .readKeys | .leave _ => .failed (.io fault)

namespace Session

/-! ## In the lobby -/

/-- Takes a seat once a shell was requested, and gives up once none can be. -/
def lobbyStep (session : Session) (room : Room) : Option Move :=
  if session.requests.shellTaken then
    let turn := room.join session.claimed
    some
      { room := turn.room
        session := session.seated turn.answer (.drawing (.ready [.clear]) .openRelay) .absent
        events := turn.events.map .room }
  else if session.requests.attended then none
  else some
    { room
      session := { session with stage := .turnedAway }
      events := [.turnedAway session.claimed] }

/-! ## Drawing -/

/-- What the task is at when it has drawn everything. -/
def pursue (ticket : Ticket) (relay : Relay) : Aim → KeyLoop × Relay
  | .openRelay => (.drawing (.ready (KeyLoop.greeting ticket.name)) .readKeys, .waiting)
  | .readKeys => (.reading, relay)
  | .leave outcome => (.leaving outcome, relay)

/-- Draws on. The queue of a session that could not even clear the screen is given up, as no
    relay will read it. -/
def drawKeys (session : Session) (room : Room) (ticket : Ticket) (relay : Relay) (pen : Pen)
    (aim : Aim) : Option Move :=
  (pen.step room.online session.draft.text session.screen relay.holds).map fun
    | .called pen => ⟨room, session.seated ticket (.drawing pen aim) relay, []⟩
    | .heldUp pen screen =>
      ⟨room, { session with screen }.seated ticket (.drawing pen aim) relay, []⟩
    | .drew draw pen screen =>
      ⟨room, { session with screen }.seated ticket (.drawing pen aim) (relay.admitted screen),
        [.drew .keys draw]⟩
    | .failed fault screen =>
      ⟨if aim = .openRelay then room.hangUp ticket.place else room,
        { session with screen }.seated ticket (.leaving (aim.outcomeOnFault fault))
          (relay.admitted screen),
        [.drawFailed .keys fault]⟩
    | .finished =>
      let (keyLoop, relay) := pursue ticket relay aim
      ⟨room, session.seated ticket keyLoop relay, []⟩

/-! ## Keys -/

/-- Says what is left of a text without the blanks around it, and shows the line that it became;
    does something else if nothing is left. -/
def submit (session : Session) (room : Room) (ticket : Ticket) (relay : Relay) (text : String)
    (aim : Aim) (otherwise : KeyLoop) : Move :=
  let text := Text.trim text
  if text.isEmpty then ⟨room, session.seated ticket otherwise relay, []⟩
  else
    let turn := room.say ticket.id ticket.name text
    ⟨turn.room, session.seated ticket (.showing turn.answer aim) relay, turn.events.map .room⟩

/-- Acknowledges a control key, and ends the session well. -/
def acknowledge (session : Session) (room : Room) (ticket : Ticket) (relay : Relay)
    (label : String) : Move :=
  ⟨room, { session with draft := .empty }.seated ticket (.showing label (.leave .well)) relay,
    [.acknowledged label]⟩

/-- What the task does about a key. -/
def press (session : Session) (room : Room) (ticket : Ticket) (relay : Relay) : Key → Move
  | .enter =>
    { session with draft := .empty }.submit room ticket relay session.draft.text .readKeys
      .prompting
  | .interrupt => session.acknowledge room ticket relay "^C"
  | .endOfInput => session.acknowledge room ticket relay "^D"
  | .backspace =>
    ⟨room, { session with draft := session.draft.trimLast }.seated ticket .prompting relay, []⟩
  | .char c =>
    ⟨room, { session with draft := session.draft.append c }.seated ticket .prompting relay, []⟩
  | .ignored => ⟨room, session.seated ticket .reading relay, []⟩

/-- What the task does about what it has read. -/
def take (session : Session) (room : Room) (ticket : Ticket) (relay : Relay) : Reading → Move
  | .key key => session.press room ticket relay key
  | .closed =>
    let move := { session with draft := .empty }.submit room ticket relay session.draft.text
      (.leave .well) (.leaving .well)
    { move with events := .inputClosed ticket.id :: move.events }
  | .failed fault =>
    ⟨room,
      session.seated ticket (.showing (Line.readError fault.message) (.leave (.failed (.read fault))))
        relay,
      [.readFailed ticket.id fault]⟩

/-- Reads on. -/
def readKeys (session : Session) (room : Room) (ticket : Ticket) (relay : Relay) : Option Move :=
  session.reader.step.map fun
    | (reader, none) => ⟨room, { session with reader }.seated ticket .reading relay, []⟩
    | (reader, some reading) => { session with reader }.take room ticket relay reading

/-! ## The end -/

/-- Leaves the room. -/
def leaveRoom (session : Session) (room : Room) (ticket : Ticket) (relay : Relay)
    (outcome : Outcome) : Move :=
  let turn := room.leave ticket.id
  ⟨turn.room, session.seated ticket (.draining outcome) relay, turn.events.map .room⟩

/-- Shuts the connection down and stops answering requests. -/
def finish (session : Session) (room : Room) (ticket : Ticket) (relay : Relay)
    (outcome : Outcome) : Move :=
  let (fault?, screen) := session.screen.shutdown
  let requests := { session.requests with attended := false }
  ⟨room, { session with screen, requests }.seated ticket (.ended outcome) relay,
    .shutDown :: (fault?.map (.shutdownFailed ticket.id)).toList ++ [.ended ticket.id outcome]⟩

/-! ## The task -/

/-- What the task that reads keys does next. -/
def keyStep (session : Session) (room : Room) : Option Move :=
  match session.stage with
  | .lobby => session.lobbyStep room
  | .turnedAway => none
  | .seated ticket keyLoop relay =>
    match keyLoop with
    | .drawing pen aim => session.drawKeys room ticket relay pen aim
    | .reading => session.readKeys room ticket relay
    | .leaving outcome => some (session.leaveRoom room ticket relay outcome)
    | .draining outcome =>
      if relay.isOver then some (session.finish room ticket relay outcome) else none
    | .ended _ => none

end Session

end LineChat
