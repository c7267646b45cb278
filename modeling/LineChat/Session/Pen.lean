import LineChat.Line
import LineChat.Screen.Basic

set_option autoImplicit false

/-! # Drawing, step by step

Two tasks draw on the terminal of a session: the one that reads keys and the one that shows what
the room has sent. A task draws by a list of *calls*. A prompt is made out at the moment of its
call: how many are online and how the line reads just then. Then the task needs the terminal for
itself. While the other one is writing it stands in line, and gets the terminal as soon as the
other one is through with its drawing.

A `Pen` is how far a task has got. It is with the pens that one sees who holds the terminal: the
task whose pen is writing. -/

namespace LineChat

/-- Something that a task is going to draw. -/
inductive Call
  | clear
  | line (text : String)
  | prompt
  deriving DecidableEq, Repr

/-- The drawing that a call asks for at this moment. -/
def Call.draw (online : Nat) (draft : String) : Call → Draw
  | clear => .clear
  | line text => .line text
  | prompt => .prompt (Line.online online) draft

/-- How far a task has got with what it draws. -/
inductive Pen
  /-- Between two calls. -/
  | ready (calls : List Call)
  /-- In line for the terminal. -/
  | queued (draw : Draw) (later : List Call)
  /-- Holding the terminal, with these strokes left. -/
  | writing (draw : Draw) (strokes : List Stroke) (later : List Call)
  deriving DecidableEq, Repr

namespace Pen

/-- Whether the task holds the terminal. -/
def holds : Pen → Bool
  | writing .. => true
  | ready _ | queued .. => false

/-- The pen of a task that gets the terminal if it is in line for it. -/
def admitted (screen : Screen) : Pen → Pen
  | queued draw later => .writing draw (screen.strokes draw) later
  | pen => pen

/-- What a step of a pen comes to. -/
inductive Move
  /-- A call has been made. -/
  | called (pen : Pen)
  /-- The connection makes the drawing wait. -/
  | heldUp (pen : Pen) (screen : Screen)
  /-- Something has been drawn to its end, and the terminal is free. -/
  | drew (draw : Draw) (pen : Pen) (screen : Screen)
  /-- The drawing has failed, and the terminal is free. -/
  | failed (fault : IoFault) (screen : Screen)
  /-- There is nothing left to draw. -/
  | finished

/-- The next step of a pen, where `busy` says whether the other task holds the terminal. There is
    none while the pen is in line, or while the connection would make it wait. -/
def step (online : Nat) (draft : String) (screen : Screen) (busy : Bool) : Pen → Option Move
  | ready [] => some .finished
  | ready (call :: later) =>
    let draw := call.draw online draft
    some (.called (if busy then queued draw later else writing draw (screen.strokes draw) later))
  | queued .. => none
  | writing draw strokes later =>
    if screen.sink.stalled then none
    else match screen.run strokes with
      | (.done, screen) => some (.drew draw (ready later) screen)
      | (.failed fault, screen) => some (.failed fault screen)
      | (.stalled strokes, screen) => some (.heldUp (writing draw strokes later) screen)

/-- How many steps a pen has left, if the connection does not make it wait. -/
def effort : Pen → Nat
  | ready calls => 3 * calls.length + 1
  | queued _ later => 3 * later.length + 3
  | writing _ _ later => 3 * later.length + 2

end Pen

end LineChat
