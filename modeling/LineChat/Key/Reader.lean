import LineChat.Key.Basic
import LineChat.Key.Inlet
import LineChat.Text.Utf8

set_option autoImplicit false

/-! # From bytes to keys

The reader decodes one character at a time. A byte that starts no character is ignored on its
own. After a lead byte, a byte that does not continue the character ends it and is left for the
next one, so garbage never takes a key with it. A carriage return takes a line feed with it if
that is in the buffer already; the reader never waits for it.

`KeyReader.step` looks at one byte. It says nothing where the reader has to wait. `readings` is
what a reader gives until nothing more can come. -/

namespace LineChat

/-- A reader of keys. -/
structure KeyReader where
  inlet : Inlet
  /-- The bytes of the character under way, none between characters. -/
  held : List UInt8
  deriving DecidableEq, Repr

/-- What a reader gives. -/
inductive Reading
  | key (key : Key)
  /-- The input has ended. -/
  | closed
  | failed (fault : IoFault)
  deriving DecidableEq, Repr

namespace KeyReader

/-- A reader that has read nothing. -/
def ofEvents (events : List ReadEvent) : KeyReader :=
  ⟨.ofEvents events, []⟩

/-- The reader between two characters. -/
def between (inlet : Inlet) : KeyReader :=
  ⟨inlet, []⟩

/-- Uses up a line feed that directly follows a carriage return. -/
def joinLineEnd (c : Char) (inlet : Inlet) : Inlet :=
  if c = '\r' ∧ inlet.buffer.head? = some 0x0A then inlet.skip else inlet

/-- The end of a character whose bytes are complete. -/
def finish (inlet : Inlet) (bytes : List UInt8) : KeyReader × Option Reading :=
  match Utf8.decode? bytes with
  | none => (between inlet, some (.key .ignored))
  | some c => (between (joinLineEnd c inlet), some (.key (.classify c)))

/-- Looks for the first byte of a character. A read that was interrupted is made again, and an
    unexpected end is an end. -/
def stepFirst (inlet : Inlet) : Option (KeyReader × Option Reading) :=
  match inlet.peek with
  | (.pending, _) => none
  | (.finished, inlet) => some (between inlet, some .closed)
  | (.failed fault, inlet) =>
    match fault.kind with
    | .interrupted => some (between inlet, none)
    | .unexpectedEof => some (between inlet, some .closed)
    | _ => some (between inlet, some (.failed fault))
  | (.byte b, inlet) =>
    match Utf8.width b with
    | 0 => some (between inlet.skip, some (.key .ignored))
    | 1 => some (finish inlet.skip [b])
    | _ => some (⟨inlet.skip, [b]⟩, none)

/-- Looks for the next byte of a character of which some bytes are there. Whatever ends it early
    loses these bytes. -/
def stepNext (inlet : Inlet) (lead : UInt8) (later : List UInt8) :
    Option (KeyReader × Option Reading) :=
  match inlet.peek with
  | (.pending, _) => none
  | (.finished, inlet) => some (between inlet, some .closed)
  | (.failed fault, inlet) => some (between inlet, some (.failed fault))
  | (.byte b, inlet) =>
    if !Utf8.isContinuation b then some (between inlet, some (.key .ignored))
    else
      let bytes := lead :: (later ++ [b])
      if bytes.length < Utf8.width lead then some (⟨inlet.skip, bytes⟩, none)
      else some (finish inlet.skip bytes)

/-- Looks at one byte: the reader after it, and what it has to give. Nothing where the reader has
    to wait for input. -/
def step (reader : KeyReader) : Option (KeyReader × Option Reading) :=
  match reader.held with
  | [] => stepFirst reader.inlet
  | lead :: later => stepNext reader.inlet lead later

/-- Adds an event behind those that are there. -/
def push (reader : KeyReader) (event : ReadEvent) : KeyReader :=
  { reader with inlet := reader.inlet.push event }

/-! ## Reading to the end -/

/-- How many steps a reader can make before it has to wait. -/
def effort (reader : KeyReader) : Nat :=
  2 * reader.inlet.size + reader.held.length

/-- What a reader gives in so many steps. Where it would have to wait, and where it has come to
    an end and nothing is left, it has given everything. -/
def readingsWithin : Nat → KeyReader → List Reading
  | 0, _ => [.closed]
  | n + 1, reader =>
    match reader.step with
    | none => [.closed]
    | some (reader, none) => readingsWithin n reader
    | some (reader, some reading) =>
      if reading = .closed ∧ reader.inlet.isEmpty then [.closed]
      else reading :: readingsWithin n reader

/-- What a reader gives, the last end included, if nothing more arrives. -/
def readings (reader : KeyReader) : List Reading :=
  reader.readingsWithin reader.effort

end KeyReader

end LineChat
