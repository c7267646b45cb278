import LineChat.Line
import LineChat.Outbox
import LineChat.Palette

set_option autoImplicit false

/-! # The room

A room seats everybody who ever joined. A seat is *registered* as long as the room holds the
sending end of its queue; whoever leaves keeps the seat and can take out what is queued, but is
out of the registry, is not counted and is sent nothing more. The registry knows its members by
their numbers, and their queues are known by the places of the seats.

Every line goes to the registered seats one by one, and never waits for any of them. The order in
which it goes round means nothing to them, so the operations come in two forms: `joinIn`,
`leaveIn` and `sayIn` take the rearrangement of the registry that the line follows, and `join`,
`leave` and `say` go round in the order of joining.

Each operation answers with a `Turn`: the room after it, its answer, and what happened. -/

namespace LineChat

/-- The seat of a participant, present or gone. -/
structure Seat where
  id : ParticipantId
  name : String
  color : Color
  outbox : Outbox
  deriving DecidableEq, Repr

namespace Seat

/-- Whether the participant is still in the room. -/
def registered (seat : Seat) : Bool :=
  seat.outbox.sending

/-- How the participant's lines are signed. -/
def label (seat : Seat) : String :=
  seat.color.paint seat.name

end Seat

/-- An entry of the registry: a seat, and where it is. -/
structure Member where
  place : Place
  seat : Seat
  deriving DecidableEq, Repr

/-- The state of a room. -/
structure Room where
  /-- The time, as it is written in front of every line. -/
  stamp : String
  /-- Where the next colour comes from. -/
  picker : ColorPicker
  /-- The last number given out. -/
  lastSeq : UInt64
  /-- The seats of everybody who joined, oldest first. -/
  seats : List Seat

namespace Room

/-- What happens in a room. -/
inductive Event
  /-- Somebody who claimed this name joined, and then so many were online. -/
  | joined (claimed : String) (ticket : Ticket) (online : Nat)
  /-- Somebody left, and then so many were online. -/
  | left (id : ParticipantId) (name : String) (online : Nat)
  /-- Somebody was to leave who is not in the room. -/
  | alreadyGone (id : ParticipantId)
  /-- Somebody said a text, with a name for want of a seat, and it became this line. -/
  | said (id : ParticipantId) (fallback text line : String)
  /-- The queue at a place took a line. -/
  | delivered (place : Place) (line : String)
  /-- The queue of a participant refused a line. -/
  | refused (id : ParticipantId) (fault : DeliveryFault)
  deriving DecidableEq, Repr

/-- An operation carried out: the room after it, the answer, and what happened, in order. -/
structure Turn (α : Type) where
  room : Room
  answer : α
  events : List Event

/-- A room that nobody has joined. -/
def empty (stamp : String) (picker : ColorPicker) : Room :=
  { stamp, picker, lastSeq := 0, seats := [] }

/-- A room that nobody has joined and that takes its colours at random, as a server opens it. -/
def ordinary (stamp : String) (generator : StdGen) : Room :=
  .empty stamp (.random standardPalette generator)

/-! ## Looking things up -/

/-- The seat at a place, if somebody has ever taken it. -/
def seat? (room : Room) (place : Place) : Option Seat :=
  room.seats[place.index]?

/-- Those who are registered, of the seats from a place on. -/
def membersFrom : Nat → List Seat → List Member
  | _, [] => []
  | index, seat :: seats =>
    if seat.registered then ⟨⟨index⟩, seat⟩ :: membersFrom (index + 1) seats
    else membersFrom (index + 1) seats

/-- Those who are in the room, in the order of joining. -/
def registry (room : Room) : List Member :=
  membersFrom 0 room.seats

/-- The one who is in the room under a number. -/
def member? (room : Room) (id : ParticipantId) : Option Member :=
  room.registry.find? fun member => member.seat.id == id

/-- How many are in the room. -/
def online (room : Room) : Nat :=
  room.registry.length

/-! ## Handing out a line -/

/-- Changes the queue at a place. -/
def mapOutbox (room : Room) (place : Place) (f : Outbox → Outbox) : Room :=
  { room with
    seats := room.seats.modify place.index fun seat => { seat with outbox := f seat.outbox } }

/-- Offers a line to one member. -/
def offerTo (line : String) (room : Room) (member : Member) : Room :=
  room.mapOutbox member.place fun box => box.offered line

/-- What becomes of a line that is offered to one member. -/
def delivery (line : String) (member : Member) : Event :=
  match member.seat.outbox.offer line with
  | .ok _ => .delivered member.place line
  | .error fault => .refused member.seat.id fault

/-- Those of a list that a line is meant for: all but the one it comes from. -/
def addressees (order : List Member) (source? : Option ParticipantId) : List Member :=
  order.filter fun member => source? != some member.seat.id

/-- Hands a line to everybody in a list but the one it comes from, in that order. -/
def deliver (room : Room) (order : List Member) (source? : Option ParticipantId)
    (line : String) : Room :=
  (addressees order source?).foldl (offerTo line) room

/-- What becomes of a line that is handed out. Nobody is offered it twice, so each queue decides
    on its own, by what it held before. -/
def deliveries (order : List Member) (source? : Option ParticipantId) (line : String) :
    List Event :=
  (addressees order source?).map (delivery line)

/-- Takes a number out of the registry, which closes the sending end of the queue that goes with
    it. -/
def struck (room : Room) (id : ParticipantId) : Room :=
  { room with
    seats := room.seats.map fun seat =>
      if seat.id = id then { seat with outbox := seat.outbox.closed } else seat }

/-! ## Joining -/

/-- The room with a new participant, who has not been announced. An empty name stands for the
    number. Whoever is in the registry under the same number is no longer. -/
def enrol (room : Room) (name : String) : Room × Ticket :=
  let id : ParticipantId := ⟨room.lastSeq + 1⟩
  let name := if name.isEmpty then id.display else name
  let (color, picker) := room.picker.draw
  ({ room with
      picker
      lastSeq := id.seq
      seats := (room.struck id).seats ++ [⟨id, name, color, .fresh⟩] },
    ⟨id, name, color, ⟨room.seats.length⟩⟩)

/-- Lets somebody in and tells everybody, the new participant too. -/
def joinIn (arrange : List Member → List Member) (room : Room) (name : String) : Turn Ticket :=
  let (room, ticket) := room.enrol name
  let order := arrange room.registry
  let line := Line.notice room.stamp (Line.joined ticket.name)
  { room := room.deliver order none line
    answer := ticket
    events := .joined name ticket room.online :: deliveries order none line }

/-! ## Leaving -/

/-- Takes somebody out of the registry and tells the others. Nothing happens if that participant is
    not in the room. -/
def leaveIn (arrange : List Member → List Member) (room : Room) (id : ParticipantId) :
    Turn Unit :=
  match room.member? id with
  | none => { room, answer := (), events := [.alreadyGone id] }
  | some member =>
    let room := room.struck id
    let order := arrange room.registry
    let line := Line.notice room.stamp (Line.left member.seat.name)
    { room := room.deliver order none line
      answer := ()
      events := .left id member.seat.name room.online :: deliveries order none line }

/-! ## Saying something -/

/-- How the lines of a participant are signed: as the seat says while it is registered, and else
    by the name that is given along. -/
def label (room : Room) (id : ParticipantId) (fallback : String) : String :=
  match room.member? id with
  | some member => member.seat.label
  | none => fallback

/-- Hands a text to everybody but the one who says it, and answers with the line that it
    became. -/
def sayIn (arrange : List Member → List Member) (room : Room) (id : ParticipantId)
    (fallback text : String) : Turn String :=
  let order := arrange room.registry
  let line := Line.said room.stamp (room.label id fallback) text
  { room := room.deliver order (some id) line
    answer := line
    events := .said id fallback text line :: deliveries order (some id) line }

/-! ## Going round in the order of joining -/

@[inherit_doc joinIn]
def join (room : Room) (name : String) : Turn Ticket :=
  room.joinIn id name

@[inherit_doc leaveIn]
def leave (room : Room) (id : ParticipantId) : Turn Unit :=
  room.leaveIn (fun order => order) id

@[inherit_doc sayIn]
def say (room : Room) (id : ParticipantId) (fallback text : String) : Turn String :=
  room.sayIn (fun order => order) id fallback text

/-! ## Reading a queue -/

/-- Takes the oldest line out of a queue. There is no queue to read at a place that nobody has
    taken. -/
def receive (room : Room) (place : Place) : Receipt × Room :=
  match room.seat? place with
  | none => (.dropped, room)
  | some seat => (seat.outbox.receive.1, room.mapOutbox place fun box => box.receive.2)

/-- Whether there is a queue at a place, and its reader's end has not been given up. -/
def isRead (room : Room) (place : Place) : Bool :=
  match room.seat? place with
  | some seat => seat.outbox.receiving
  | none => false

/-- Gives up the reader's end of a queue. -/
def hangUp (room : Room) (place : Place) : Room :=
  room.mapOutbox place Outbox.dropped

/-- Takes everything out of a queue: the lines, and whether the room has closed its end. There is
    no answer where the reader's end is gone. -/
def drain (room : Room) (place : Place) : Option (List String × Bool) × Room :=
  match (room.seat? place).filter fun seat => seat.outbox.receiving with
  | none => (none, room)
  | some seat =>
    (some (seat.outbox.queue, !seat.outbox.sending), room.mapOutbox place Outbox.emptied)

end Room

end LineChat
