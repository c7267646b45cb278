import LineChat.Server.Basic

set_option autoImplicit false

/-! # Whose turn it is

After something has happened, the tasks go on until each of them waits. A task that has the turn
keeps it for as long as it can go on. When it waits, the turn goes to the first task that does not,
first among those that answer requests, then among those that read keys, then among the relays.
So a session handles all the keys there are before its relay shows a single line.

No task goes on forever: every move brings a server nearer to rest, by the measure `effort`. A key
may put a line into the queue of every session, so it counts for more than all these lines
together. -/

namespace LineChat

/-! ## How much there is to do -/

/-- The weight of a line in a queue: more than the moves that it takes to show it. -/
def lineWeight : Nat := 8

namespace Session

/-- How much is left to do once the key task is about to leave, with so many sessions. -/
def leavingEffort (sessions : Nat) : Nat :=
  lineWeight * sessions + 4

/-- How much there may be to do about what is still to be read. -/
def readingEffort (sessions : Nat) (reader : KeyReader) : Nat :=
  reader.effort * (lineWeight * sessions + 12) + leavingEffort sessions + 1

/-- How much is left to do after a drawing. -/
def aimEffort (sessions : Nat) (reader : KeyReader) : Aim → Nat
  | .openRelay => 16 + readingEffort sessions reader
  | .readKeys => readingEffort sessions reader
  | .leave _ => leavingEffort sessions

/-- How much the key task has left to do. -/
def keyLoopEffort (sessions : Nat) (reader : KeyReader) : KeyLoop → Nat
  | .drawing pen aim => pen.effort + aimEffort sessions reader aim
  | .reading => readingEffort sessions reader
  | .leaving _ => leavingEffort sessions
  | .draining _ => 2
  | .ended _ => 0

/-- How much the relay has left to do, apart from what is queued. -/
def relayEffort : Relay → Nat
  | .absent | .finished => 0
  | .waiting => 2
  | .drawing pen => 2 + pen.effort

/-- How much there is to do for a session because of its stage. -/
def stageEffort (sessions : Nat) (reader : KeyReader) : Stage → Nat
  | .lobby => lineWeight * sessions + 21 + readingEffort sessions reader
  | .turnedAway => 0
  | .seated _ keyLoop relay => keyLoopEffort sessions reader keyLoop + relayEffort relay

/-- How many lines are queued for a session. -/
def queued (session : Session) (room : Room) : Nat :=
  match session.ticket?.bind fun ticket => room.seat? ticket.place with
  | some seat => seat.outbox.queue.length
  | none => 0

/-- How much there is to do for a session, with so many sessions in all. -/
def effort (session : Session) (room : Room) (sessions : Nat) : Nat :=
  session.requests.effort + (if session.screen.sink.stalled then 0 else 1)
    + lineWeight * session.queued room + stageEffort sessions session.reader session.stage

end Session

namespace Server

/-- An upper bound for the number of moves before every task waits. -/
def effort (server : Server) : Nat :=
  server.sessions.foldr (fun s effort => s.effort server.room server.sessions.length + effort) 0

/-! ## Taking turns -/

/-- All tasks, in the order in which they get the turn. -/
def tasks (server : Server) : List TaskRef :=
  [Task.requests, .keys, .relay].flatMap fun task =>
    (List.range server.sessions.length).map fun session => ⟨session, task⟩

/-- The move of the first task of a list that does not wait. -/
def firstMove? (server : Server) (refs : List TaskRef) : Option (TaskRef × Server) :=
  refs.findSome? fun ref => (server.step ref).map (ref, ·)

/-- Whether every task waits. -/
def atRest (server : Server) : Bool :=
  (server.firstMove? server.tasks).isNone

/-- Lets the tasks make so many moves at most, beginning with the one that has the turn. -/
def settleWithin : Nat → Option TaskRef → Server → Server
  | 0, _, server => server
  | n + 1, turn?, server =>
    match server.firstMove? (turn?.toList ++ server.tasks) with
    | none => server
    | some (ref, server) => settleWithin n (some ref) server

/-- Lets the tasks go on until each of them waits. -/
def settle (server : Server) : Server :=
  settleWithin server.effort none server

/-- What a server is when something has happened to it and every task waits again. -/
def react (server : Server) (stimulus : Stimulus) : Server :=
  (server.receive stimulus).settle

end Server

end LineChat
