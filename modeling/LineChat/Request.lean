set_option autoImplicit false

/-! # Requests beside the connection

Before and during a session its client sends requests, each by a tag and each to be answered with
yes or no. A shell starts the session. Four others ask for what a terminal may need, and are
granted without anything being done about them. Every other tag is refused. -/

namespace LineChat

/-! ## Kinds -/

/-- What is asked for. -/
inductive RequestKind
  | shell
  | pty
  | env
  | windowChange
  | signal
  | other (tag : String)
  deriving DecidableEq, Repr

namespace RequestKind

/-- The kind that a tag stands for. -/
def ofTag (tag : String) : RequestKind :=
  if tag = "shell" then shell
  else if tag = "pty-req" then pty
  else if tag = "env" then env
  else if tag = "window-change" then windowChange
  else if tag = "signal" then signal
  else other tag

/-- The tag of a kind. -/
def tag : RequestKind → String
  | shell => "shell"
  | pty => "pty-req"
  | env => "env"
  | windowChange => "window-change"
  | signal => "signal"
  | other tag => tag

/-- Whether this is one of the things that a terminal may need. -/
def isCapability : RequestKind → Bool
  | pty | env | windowChange | signal => true
  | shell | other _ => false

/-- Whether the answer is yes. -/
def granted : RequestKind → Bool
  | shell | pty | env | windowChange | signal => true
  | other _ => false

/-- No tag is lost. -/
@[simp] theorem tag_ofTag (t : String) : (ofTag t).tag = t := by
  grind [ofTag, tag]

end RequestKind

/-! ## Requests and their answers -/

/-- What the one who asked has of an answer. -/
inductive Reply
  | waiting
  | answered (granted : Bool)
  /-- The request was thrown away. -/
  | dropped
  /-- Nobody is waiting for an answer. -/
  | noReceiver
  deriving DecidableEq, Repr

/-- A request that has not been answered. -/
structure Request where
  kind : RequestKind
  /-- Whether somebody waits for the answer. -/
  awaited : Bool
  deriving DecidableEq, Repr

namespace Request

/-- A request by a tag, with somebody waiting for the answer. -/
def ofTag (tag : String) : Request :=
  ⟨.ofTag tag, true⟩

/-- What comes of an answer. It is no matter to the one who gives it whether anybody waits. -/
def respond (request : Request) (granted : Bool) : Reply :=
  if request.awaited then .answered granted else .noReceiver

/-- What comes of throwing the request away. -/
def discard (request : Request) : Reply :=
  if request.awaited then .dropped else .noReceiver

/-- What there is before any answer. -/
def undecided (request : Request) : Reply :=
  if request.awaited then .waiting else .noReceiver

end Request

end LineChat
