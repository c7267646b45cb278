import LineChat.Screen.Draw
import LineChat.Screen.Sink

set_option autoImplicit false

/-! # The screen

A screen is a connection together with the one thing to remember about it: whether the row of the
status line has been reserved, which is so once the piece for it has been written and flushed. A
drawing that fails is given up where it stands. One that is held up keeps its place, and goes on
from there. -/

namespace LineChat

/-- A piece of which some bytes may be written already. -/
structure Stroke where
  piece : Piece
  /-- The bytes not yet written. -/
  left : List UInt8
  deriving DecidableEq, Repr

/-- A terminal. -/
structure Screen where
  sink : Sink
  /-- Whether the status line has a row. -/
  reserved : Bool

/-- How a drawing ends. -/
inductive Drawing
  | done
  | failed (fault : IoFault)
  /-- The connection makes the drawing wait, with these strokes left. -/
  | stalled (rest : List Stroke)

namespace Screen

/-- A terminal that nothing has been drawn on. -/
def ofScript (script : Script) : Screen :=
  ⟨.ofScript script, false⟩

/-- A piece of which nothing has been written. -/
def stroke (piece : Piece) : Stroke :=
  ⟨piece, piece.bytes⟩

/-- The strokes of a drawing on this terminal. -/
def strokes (screen : Screen) (draw : Draw) : List Stroke :=
  (draw.pieces screen.reserved).map stroke

/-- The terminal after a piece was written and flushed. -/
def settle (screen : Screen) (piece : Piece) (sink : Sink) : Screen :=
  { sink, reserved := screen.reserved || piece == .reserve }

/-- Draws strokes one after the other. -/
def run (screen : Screen) : List Stroke → Drawing × Screen
  | [] => (.done, screen)
  | stroke :: rest =>
    match screen.sink.write stroke.left with
    | (.stalled left, sink) => (.stalled ({ stroke with left } :: rest), { screen with sink })
    | (.failed fault, sink) => (.failed fault, { screen with sink })
    | (.done, sink) =>
      match sink.flush with
      | (some fault, sink) => (.failed fault, { screen with sink })
      | (none, sink) => run (screen.settle stroke.piece sink) rest

/-- Draws, as far as the connection lets it. -/
def draw (screen : Screen) (draw : Draw) : Drawing × Screen :=
  screen.run (screen.strokes draw)

/-- Shuts the connection down. -/
def shutdown (screen : Screen) : Option IoFault × Screen :=
  let (fault?, sink) := screen.sink.shutdown
  (fault?, { screen with sink })

/-- The terminal from now on under another script. -/
def rescript (screen : Screen) (script : Script) : Screen :=
  { screen with sink := screen.sink.rescript script }

end Screen

end LineChat
