import LineChat.Fault

set_option autoImplicit false

/-! # Bytes that arrive

What a connection gives to read is a list of events: some bytes, the end, or a failure. They are
read through a buffer of fixed size, and a new read is made only when the buffer is empty. A read
takes the first event; of more bytes than fit it takes as many as fit and leaves the others. An
end or a failure does not stop what comes after it from being read. -/

namespace LineChat

/-- Something to be read. -/
inductive ReadEvent
  /-- Bytes that arrive together. No bytes at all are read as the end. -/
  | data (bytes : List UInt8)
  | close
  | error (fault : IoFault)
  deriving DecidableEq, Repr

/-- The reading side of a connection. -/
structure Inlet where
  /-- What has been read and not been used. -/
  buffer : List UInt8
  /-- What is there to be read, in the order of arrival. -/
  events : List ReadEvent
  deriving DecidableEq, Repr

/-- What the next byte turns out to be. -/
inductive Peek
  | byte (b : UInt8)
  | finished
  | failed (fault : IoFault)
  /-- Nothing has arrived. -/
  | pending
  deriving DecidableEq, Repr

namespace Inlet

/-- How many bytes a read takes at most. -/
def bufferSize : Nat := 8192

/-- Bytes of which none have been read. -/
def ofEvents (events : List ReadEvent) : Inlet :=
  ⟨[], events⟩

/-- Whether nothing is left, neither read nor to be read. -/
def isEmpty (inlet : Inlet) : Bool :=
  inlet.buffer.isEmpty && inlet.events.isEmpty

/-- What stays of some bytes after a read, in front of what arrived later. -/
def leftover (bytes : List UInt8) (rest : List ReadEvent) : List ReadEvent :=
  if bytes.length ≤ bufferSize then rest else .data (bytes.drop bufferSize) :: rest

/-- One read, made while the buffer is empty. -/
def refill (inlet : Inlet) : Peek × Inlet :=
  match inlet.events with
  | [] => (.pending, inlet)
  | .close :: rest => (.finished, ⟨[], rest⟩)
  | .error fault :: rest => (.failed fault, ⟨[], rest⟩)
  | .data [] :: rest => (.finished, ⟨[], rest⟩)
  | .data (b :: bytes) :: rest =>
    (.byte b, ⟨(b :: bytes).take bufferSize, leftover (b :: bytes) rest⟩)

/-- Looks at the next byte, and reads first if the buffer is empty. The byte is not used up. -/
def peek (inlet : Inlet) : Peek × Inlet :=
  match inlet.buffer with
  | b :: _ => (.byte b, inlet)
  | [] => inlet.refill

/-- Uses up a byte of the buffer. -/
def skip (inlet : Inlet) : Inlet :=
  { inlet with buffer := inlet.buffer.tail }

/-- Adds an event behind those that are there. -/
def push (inlet : Inlet) (event : ReadEvent) : Inlet :=
  { inlet with events := inlet.events ++ [event] }

/-! ## How much there is -/

/-- How often an event can be looked at. -/
def eventSize : ReadEvent → Nat
  | .data bytes => bytes.length + 1
  | .close | .error _ => 1

/-- How often some events can be looked at. -/
def eventsSize (events : List ReadEvent) : Nat :=
  events.foldr (fun event size => eventSize event + size) 0

/-- How often there is something to look at. -/
def size (inlet : Inlet) : Nat :=
  inlet.buffer.length + eventsSize inlet.events

end Inlet

end LineChat
