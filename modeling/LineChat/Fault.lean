set_option autoImplicit false

/-! # What can go wrong

Faults are causes, and each cause has one wording. An `IoFault` comes from the connection and is
passed on inside the others: a session ends because writing failed, because reading failed or
because no shell was ever asked for, a queue refuses a line because it is full or because nobody
reads it any more, and the server does not start because of the address it should listen on. -/

namespace LineChat

/-! ## Input and output -/

/-- The kinds of failure that a connection reports. -/
inductive IoKind
  | notFound
  | permissionDenied
  | connectionRefused
  | connectionReset
  | connectionAborted
  | notConnected
  | addrInUse
  | brokenPipe
  | wouldBlock
  | invalidInput
  | invalidData
  | timedOut
  | writeZero
  | interrupted
  | unexpectedEof
  | other
  deriving DecidableEq, Repr

namespace IoKind

/-- The name by which a kind is written down. -/
def name : IoKind → String
  | notFound => "NotFound"
  | permissionDenied => "PermissionDenied"
  | connectionRefused => "ConnectionRefused"
  | connectionReset => "ConnectionReset"
  | connectionAborted => "ConnectionAborted"
  | notConnected => "NotConnected"
  | addrInUse => "AddrInUse"
  | brokenPipe => "BrokenPipe"
  | wouldBlock => "WouldBlock"
  | invalidInput => "InvalidInput"
  | invalidData => "InvalidData"
  | timedOut => "TimedOut"
  | writeZero => "WriteZero"
  | interrupted => "Interrupted"
  | unexpectedEof => "UnexpectedEof"
  | other => "Other"

/-- What a kind says when nothing more is known. -/
def text : IoKind → String
  | notFound => "entity not found"
  | permissionDenied => "permission denied"
  | connectionRefused => "connection refused"
  | connectionReset => "connection reset"
  | connectionAborted => "connection aborted"
  | notConnected => "not connected"
  | addrInUse => "address in use"
  | brokenPipe => "broken pipe"
  | wouldBlock => "operation would block"
  | invalidInput => "invalid input parameter"
  | invalidData => "invalid data"
  | timedOut => "timed out"
  | writeZero => "write zero"
  | interrupted => "operation interrupted"
  | unexpectedEof => "unexpected end of file"
  | other => "other error"

/-- Every kind, the unspecific one last. -/
def all : List IoKind :=
  [notFound, permissionDenied, connectionRefused, connectionReset, connectionAborted, notConnected,
    addrInUse, brokenPipe, wouldBlock, invalidInput, invalidData, timedOut, writeZero, interrupted,
    unexpectedEof, other]

/-- The kind with a given name; a name that no kind has stands for the unspecific kind. -/
def ofName (name : String) : IoKind :=
  (all.find? fun kind => kind.name == name).getD other

end IoKind

/-- A failure of a connection: its kind, and how it is worded. Two failures are the same if nobody
    can tell them apart, so a failure that is worded as its kind says nothing of its own. -/
structure IoFault where
  kind : IoKind
  message : String
  deriving DecidableEq, Repr

namespace IoFault

/-- A failure that says no more than its kind. -/
def ofKind (kind : IoKind) : IoFault :=
  ⟨kind, kind.text⟩

/-- A failure as it is reported: with a wording of its own, or else with that of its kind. -/
def ofReport (kind : IoKind) (wording? : Option String) : IoFault :=
  ⟨kind, wording?.getD kind.text⟩

end IoFault

/-! ## The parts of the server -/

/-- Why a session ended other than well. -/
inductive SessionFault
  /-- Writing to the connection failed. -/
  | io (fault : IoFault)
  /-- Reading from the connection failed, and not because it was closed. -/
  | read (fault : IoFault)
  /-- The requests ended, and none of them asked for a shell. -/
  | shellNotRequested
  deriving DecidableEq, Repr

namespace SessionFault

/-- The wording of a session's fault. -/
def message : SessionFault → String
  | io fault => "IO error: " ++ fault.message
  | read fault => "read error: " ++ fault.message
  | shellNotRequested => "shell was never requested"

/-- The failure of the connection that a session's fault passes on. -/
def source? : SessionFault → Option IoFault
  | io fault | read fault => some fault
  | shellNotRequested => none

end SessionFault

/-- Why a queue did not take a line. -/
inductive DeliveryFault
  /-- The queue holds as many lines as it can. -/
  | queueFull
  /-- The receiving end is gone. -/
  | queueClosed
  deriving DecidableEq, Repr

/-- The wording of a refusal. -/
def DeliveryFault.message : DeliveryFault → String
  | queueFull => "Outbound queue full"
  | queueClosed => "Outbound queue closed"

/-- Why the whole server stopped: a failure outside of any session. -/
structure ServerFault where
  cause : IoFault
  deriving DecidableEq, Repr

/-- The wording of the server's fault. -/
def ServerFault.message (fault : ServerFault) : String :=
  "IO error: " ++ fault.cause.message

end LineChat
