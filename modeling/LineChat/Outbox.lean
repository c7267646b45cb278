import LineChat.Fault

set_option autoImplicit false

/-! # The queue between the room and a participant

The room puts lines in and never waits: a queue that is full refuses the line, and so does one
that nobody reads. The two ends close on their own. When the room closes its end, what is queued
can still be taken out, and only then does the reader see that it is over. When the reader closes
its end, what was queued is gone. -/

namespace LineChat

/-- A queue of lines for one participant. -/
structure Outbox where
  /-- The lines not yet taken out, oldest first. -/
  queue : List String
  /-- Whether the room still holds its end. -/
  sending : Bool
  /-- Whether the reader still holds its end. -/
  receiving : Bool
  deriving DecidableEq, Repr

/-- What a reader finds. -/
inductive Receipt
  /-- The oldest line. -/
  | line (text : String)
  /-- Nothing so far. -/
  | waiting
  /-- Nothing, and nothing will come. -/
  | closed
  /-- The reader has given up its end. -/
  | dropped
  deriving DecidableEq, Repr

namespace Outbox

/-- How many lines a queue holds. -/
def capacity : Nat := 16

/-- A queue with nothing in it and both ends open. -/
def fresh : Outbox :=
  ⟨[], true, true⟩

/-! ## The room's end -/

/-- Puts a line in, unless nobody reads the queue or it is full. -/
def offer (box : Outbox) (line : String) : Except DeliveryFault Outbox :=
  if !box.receiving then .error .queueClosed
  else if box.queue.length < capacity then .ok { box with queue := box.queue ++ [line] }
  else .error .queueFull

/-- The queue after a line was offered: a refused line leaves no trace. -/
def offered (box : Outbox) (line : String) : Outbox :=
  match box.offer line with
  | .ok box => box
  | .error _ => box

/-- The queue without the room's end. -/
def closed (box : Outbox) : Outbox :=
  { box with sending := false }

/-! ## The reader's end -/

/-- Takes the oldest line out. -/
def receive (box : Outbox) : Receipt × Outbox :=
  if !box.receiving then (.dropped, box)
  else match box.queue with
    | line :: rest => (.line line, { box with queue := rest })
    | [] => (if box.sending then .waiting else .closed, box)

/-- Takes everything out. -/
def emptied (box : Outbox) : Outbox :=
  { box with queue := [] }

/-- The queue without the reader's end, and so without its lines. -/
def dropped (box : Outbox) : Outbox :=
  { box with queue := [], receiving := false }

/-! ## What an offer does -/

theorem offered_queue (box : Outbox) (line : String) :
    (box.offered line).queue
      = box.queue ++ if box.receiving = true ∧ box.queue.length < capacity then [line] else [] := by
  unfold offered offer
  cases hr : box.receiving <;> by_cases hl : box.queue.length < capacity <;> simp [hl]

@[simp] theorem offered_sending (box : Outbox) (line : String) :
    (box.offered line).sending = box.sending := by
  unfold offered offer
  cases hr : box.receiving <;> by_cases hl : box.queue.length < capacity <;> simp [hl]

@[simp] theorem offered_receiving (box : Outbox) (line : String) :
    (box.offered line).receiving = box.receiving := by
  unfold offered offer
  cases hr : box.receiving <;> by_cases hl : box.queue.length < capacity <;> simp [hl, hr]

end Outbox

end LineChat
