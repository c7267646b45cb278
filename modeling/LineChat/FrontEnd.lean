import LineChat.Calendar
import LineChat.Server.Settle

set_option autoImplicit false

/-! # Plain connections

Everybody who connects to the server has a session: there is no handshake, so nobody claims a
name, and connecting is asking for a shell.

A running server carries bytes between its connections and its sessions. A connection takes a
ration of what its session writes, and makes it wait until that is on its way. So a slow reader
holds up its own session, and nobody else. -/

namespace LineChat

/-! ## Sessions of plain connections -/

/-- A client that has connected: it claims no name and has asked for a shell, and nothing else
    will be asked for. -/
def Server.Stimulus.plain (input : List ReadEvent) (script : Script) : Server.Stimulus :=
  .connect "" [.shell] false input script

/-! ## Carrying bytes -/

/-- A connection that takes so many calls to write and holds up the next. -/
def Script.ration (calls : Nat) : Script where
  onWrite call := if call < calls then .take none else .stall
  onFlush _ := none
  onShutdown := none
  interruptions _ := 0
  resumes _ := by split <;> rfl

/-- A connection that cannot be written to any more. -/
def Script.broken (fault : IoFault) : Script :=
  Manner.script ⟨false, some 0, false, none, false, false, fault⟩

namespace Server

/-- The server at another time of day. -/
def atTime (server : Server) (time : DateTime) : Server :=
  { server with room := { server.room with stamp := time.render } }

/-- The bytes that each session has written since they were taken last. -/
def outputs (server : Server) : List (Nat × Array UInt8) :=
  (server.sessions.zipIdx.map fun (session, i) => (i, session.screen.sink.accepted)).filter
    fun (_, bytes) => !bytes.isEmpty

/-- The server after what was written and what has happened was taken from it. -/
def relieved (server : Server) : Server :=
  { server with
    sessions := server.sessions.map fun session =>
      { session with
        screen := { session.screen with sink := { session.screen.sink with accepted := #[] } } }
    journal := [] }

/-- The sessions whose connections were shut down since the journal was taken last. -/
def shutDown (server : Server) : List Nat :=
  server.journal.filterMap fun entry => if entry.event = .shutDown then entry.session? else none

/-- The lines for the log since the journal was taken last, in order. -/
def logLines (server : Server) : List LogLine :=
  server.journal.reverse.filterMap fun entry => entry.event.log?

end Server

end LineChat
