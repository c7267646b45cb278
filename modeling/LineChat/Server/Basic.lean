import LineChat.Room.Op
import LineChat.Session.KeyLoop
import LineChat.Session.Relay
import LineChat.Session.Requests

set_option autoImplicit false

/-! # The server

A server is a room, the sessions that were ever started in it, and a journal of all that has
happened. Each session has three tasks, and each task either has a next move or waits: for a
request, for input, for a line from the room, for the terminal or for a connection that does not
take what is written. `Server.step` makes one move of one task. It does not say whose turn it is:
that is for `Server.settle`.

From outside come stimuli: connections, requests, input, changes in how a connection behaves, and
operations on the room. They change what a task finds, and make no move themselves. -/

namespace LineChat

/-- Something that happened, and in which session it did; the rest was done to the room. -/
structure Entry where
  session? : Option Nat
  event : Event
  deriving DecidableEq, Repr

/-- A task of one of the sessions. -/
structure TaskRef where
  session : Nat
  task : Task
  deriving DecidableEq, Repr

/-- The state of a server. -/
structure Server where
  room : Room
  /-- All sessions, in the order in which they were started. -/
  sessions : List Session
  /-- What has happened, newest first. -/
  journal : List Entry

/-- The move that a task of a session makes next, if it does not wait. -/
def Session.step (session : Session) (room : Room) : Task → Option Move
  | .requests => session.requestStep room
  | .keys => session.keyStep room
  | .relay => session.relayStep room

namespace Server

/-- A server without sessions. -/
def ofRoom (room : Room) : Server :=
  ⟨room, [], []⟩

/-- Writes down what has happened. -/
def record (server : Server) (session? : Option Nat) (events : List Event) : Server :=
  { server with
    journal := (events.map fun event => ⟨session?, event⟩).reverse ++ server.journal }

/-! ## Moves -/

/-- The server after a task has made its next move, if it does not wait. -/
def step (server : Server) (ref : TaskRef) : Option Server :=
  match server.sessions[ref.session]? with
  | none => none
  | some session =>
    (session.step server.room ref.task).map fun move =>
      { server with
        room := move.room
        sessions := server.sessions.set ref.session move.session }.record ref.session move.events

/-! ## Stimuli -/

/-- Carries out an operation on the room. -/
def perform (server : Server) (op : Room.Op) : Server × Room.Answer :=
  let turn := server.room.perform op
  ({ server with room := turn.room }.record none (turn.events.map .room), turn.answer)

/-- Changes one session. -/
def modifySession (server : Server) (session : Nat) (f : Session → Session) : Server :=
  { server with sessions := server.sessions.modify session f }

/-- Starts a session; it is the one that comes last. -/
def connect (server : Server) (session : Session) : Server :=
  { server with sessions := server.sessions ++ [session] }

/-- Whether a session takes further requests. -/
def takesRequests (server : Server) (session : Nat) : Bool :=
  match server.sessions[session]? with
  | some session => session.requests.arriving && session.requests.attended
  | none => false

/-- Something that happens to a server from outside. -/
inductive Stimulus
  /-- A client connects. It claims a name, has sent requests, may send more, and has sent
      input already. -/
  | connect (claimed : String) (requests : List RequestKind) (arriving : Bool)
      (input : List ReadEvent) (script : Script)
  /-- A request arrives. -/
  | request (session : Nat) (kind : RequestKind)
  /-- No more requests will arrive. -/
  | endRequests (session : Nat)
  /-- Input arrives. -/
  | feed (session : Nat) (event : ReadEvent)
  /-- The connection behaves differently from now on. -/
  | rescript (session : Nat) (script : Script)
  /-- Operations on the room, one directly after the other. -/
  | room (ops : List Room.Op)

/-- The server to which something has happened, before any task has noticed. -/
def receive (server : Server) : Stimulus → Server
  | .connect claimed requests arriving input script =>
    server.connect (.fresh claimed requests arriving input script)
  | .request session kind =>
    server.modifySession session fun s => { s with requests := (s.requests.push kind).2 }
  | .endRequests session =>
    server.modifySession session fun s => { s with requests := s.requests.close }
  | .feed session event =>
    server.modifySession session fun s => { s with reader := s.reader.push event }
  | .rescript session script =>
    server.modifySession session fun s => { s with screen := s.screen.rescript script }
  | .room ops => ops.foldl (fun server op => (server.perform op).1) server

end Server

end LineChat
