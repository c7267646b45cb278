set_option autoImplicit false

/-! # Lines of the chat

A line is put together once and handed out as plain text. What somebody says reads
`[time] name: text`, and what the room itself has to say reads `[time] [system] text`. -/

namespace LineChat.Line

/-- What somebody says, under the label that stands for them. -/
def said (stamp label text : String) : String :=
  "[" ++ stamp ++ "] " ++ label ++ ": " ++ text

/-- What the room announces. -/
def notice (stamp text : String) : String :=
  "[" ++ stamp ++ "] [system] " ++ text

/-- The announcement of somebody who came. -/
def joined (name : String) : String :=
  name ++ " joined the chat"

/-- The announcement of somebody who went. -/
def left (name : String) : String :=
  name ++ " left the chat"

/-- What a session tells its own terminal when reading from it failed. -/
def readError (message : String) : String :=
  "[system] read error: " ++ message

/-- The first line that a session shows. -/
def welcome (name : String) : String :=
  "Welcome to term_chat, " ++ name ++ "!"

/-- The second line that a session shows. -/
def instructions : String :=
  "Type messages and press enter to chat. Ctrl+D to exit."

/-- The status line of every terminal: how many take part. -/
def online (count : Nat) : String :=
  "Users online: " ++ toString count

end LineChat.Line
