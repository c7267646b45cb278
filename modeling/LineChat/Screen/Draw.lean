import LineChat.Text.Utf8

set_option autoImplicit false

/-! # What is drawn

A terminal shows a status line at its top, the line being edited at the cursor, and the chat in
between. To draw is to write one or more *pieces*, strings with control sequences in them. The
status line needs a row of its own, which the first prompt reserves. -/

namespace LineChat

/-- A string that is written whole and then flushed. -/
inductive Piece
  /-- Clears the screen and puts the cursor into its corner. -/
  | clear
  /-- A line in place of the line being edited, which moves down. -/
  | line (text : String)
  /-- Makes room for the status line. -/
  | reserve
  /-- The status line. -/
  | status (header : String)
  /-- The line being edited. -/
  | prompt (draft : String)
  deriving DecidableEq, Repr

namespace Piece

/-- Remembers the cursor, in both of the ways that terminals know. -/
def saveCursor : String := "\x1b7\x1b[s"

/-- Puts the cursor back to where it was remembered. -/
def restoreCursor : String := "\x1b[u\x1b8"

/-- Puts the cursor into the corner of the screen. -/
def home : String := "\x1b[H"

/-- Clears the screen. -/
def clearScreen : String := "\x1b[2J"

/-- Clears the row of the cursor. -/
def clearRow : String := "\x1b[2K"

/-- Clears what follows the cursor in its row. -/
def clearToEnd : String := "\x1b[K"

/-- Moves everything from the cursor's row down by one. -/
def insertRow : String := "\x1b[1L"

/-- What stands in front of the line being edited. -/
def promptMark : String := "> "

/-- The characters of a piece. -/
def text : Piece → String
  | clear => clearScreen ++ home
  | line text => "\r" ++ clearToEnd ++ text ++ "\r\n"
  | reserve => saveCursor ++ home ++ insertRow ++ restoreCursor
  | status header => saveCursor ++ home ++ clearRow ++ header ++ restoreCursor
  | prompt draft => "\r" ++ promptMark ++ draft ++ clearToEnd

/-- The bytes of a piece. -/
def bytes (piece : Piece) : List UInt8 :=
  Utf8.encode piece.text

end Piece

/-- Something to draw. -/
inductive Draw
  /-- An empty screen. -/
  | clear
  /-- One line of the chat. -/
  | line (text : String)
  /-- The status line, and the line being edited. -/
  | prompt (header draft : String)
  deriving DecidableEq, Repr

namespace Draw

/-- The pieces of a drawing. A prompt reserves the row of the status line unless that has been
    done. -/
def pieces (reserved : Bool) : Draw → List Piece
  | clear => [.clear]
  | line text => [.line text]
  | prompt header draft =>
    (if reserved then [] else [.reserve]) ++ [.status header, .prompt draft]

end Draw

end LineChat
