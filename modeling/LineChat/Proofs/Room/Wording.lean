import LineChat.Proofs.Room.Registry

set_option autoImplicit false

/-! # What lines are made of

A line is made of a time, a name that stands in the registry or is given along, the colour of its
seat, and a text. A `Wording` says which times, names and colours there may be. What a room was
given when it was opened and what comes into it by joining is all that its lines are made of
(`Worded.perform`): every line that a queue has taken is the announcement of somebody who joined or
left, or it is what somebody has said. -/

namespace LineChat

/-- Which times, names and colours there may be. -/
structure Wording where
  time : String → Prop
  /-- Which names may go with a number. -/
  name : ParticipantId → String → Prop
  color : Color → Prop
  /-- A room without colours has this one all the same. -/
  plain : color Color.plain

namespace Room

/-- The line that an event is told by, at this time. -/
def Event.wording? (time : String) : Event → Option String
  | .joined _ ticket _ => some (Line.notice time (Line.joined ticket.name))
  | .left _ name _ => some (Line.notice time (Line.left name))
  | .said _ _ _ line => some line
  | .alreadyGone _ | .delivered .. | .refused .. => none

end Room

namespace Wording

/-- Whether a line may be signed like this: with the name that is given along, or as a seat says. -/
def Signs (w : Wording) (id : ParticipantId) (fallback label : String) : Prop :=
  label = fallback ∨ ∃ color name, w.color color ∧ w.name id name ∧ label = color.paint name

/-- Whether an event has names that may go with its number, and a line made up accordingly. -/
def Fits (w : Wording) : Room.Event → Prop
  | .joined _ ticket _ => w.name ticket.id ticket.name
  | .left id name _ => w.name id name
  | .said id fallback text line =>
    ∃ time label, w.time time ∧ w.Signs id fallback label ∧ line = Line.said time label text
  | .alreadyGone _ | .delivered .. | .refused .. => True

/-- Whether a seat has a name and a colour that there may be. -/
def Suits (w : Wording) (seat : Seat) : Prop :=
  w.name seat.id seat.name ∧ w.color seat.color

end Wording

/-- With a name that may go with the number, everything that may stand for somebody is one in some
    colour. -/
theorem Wording.Signs.painted {w : Wording} {id : ParticipantId} {fallback label : String}
    (h : w.Signs id fallback label) (hfallback : w.name id fallback) :
    ∃ color name, w.color color ∧ w.name id name ∧ label = color.paint name := by
  rcases h with rfl | hseat
  · exact ⟨Color.plain, label, w.plain, hfallback, rfl⟩
  · exact hseat

namespace Room

/-- A room that may have words as these only, with all that has happened in it. -/
structure Worded (w : Wording) (room : Room) (chronicle : List Event) : Prop where
  stamp : w.time room.stamp
  palette : ∀ color ∈ room.picker.palette, w.color color
  seats : ∀ seat ∈ room.seats, w.Suits seat
  fits : ∀ event ∈ chronicle, w.Fits event
  delivered : ∀ place line, .delivered place line ∈ chronicle →
    ∃ time, w.time time ∧ ∃ event ∈ chronicle, event.wording? time = some line

variable {w : Wording} {room : Room} {chronicle : List Event}

theorem worded_empty {stamp : String} {picker : ColorPicker} (hstamp : w.time stamp)
    (hpalette : ∀ color ∈ picker.palette, w.color color) :
    (empty stamp picker).Worded w [] :=
  ⟨hstamp, hpalette, nofun, nofun, nofun⟩

theorem Worded.restamped (h : room.Worded w chronicle) {stamp : String} (hstamp : w.time stamp) :
    Worded w { room with stamp } chronicle :=
  ⟨hstamp, h.palette, h.seats, h.fits, h.delivered⟩

/-! ## What stays as it is -/

theorem suits_adjust (h : ∀ seat ∈ room.seats, w.Suits seat) (f : Place → Seat → Outbox) :
    ∀ seat ∈ (room.adjust f).seats, w.Suits seat := by
  intro seat' hseat'
  obtain ⟨index, hindex, rfl⟩ := List.mem_mapIdx.1 hseat'
  exact h room.seats[index] (List.getElem_mem hindex)

/-- A seat has the name and the colour that came with joining. -/
theorem suits_perform (h : ∀ seat ∈ room.seats, w.Suits seat) {op : Op}
    (hnew : ∀ ticket ∈ room.newcomers op, w.name ticket.id ticket.name ∧ w.color ticket.color) :
    ∀ seat ∈ (room.perform op).room.seats, w.Suits seat := by
  obtain ⟨f, hroom⟩ := room.exists_perform_eq_adjust op
  rw [hroom]
  refine suits_adjust ?_ f
  cases op with
  | join name =>
      show ∀ seat ∈ (room.enrol name).1.seats, w.Suits seat
      rw [enrol_seats, struck_eq_adjust, List.forall_mem_append]
      refine ⟨suits_adjust h _, ?_⟩
      rw [List.forall_mem_singleton]
      exact hnew _ (List.mem_singleton_self _)
  | leave _ | say _ _ _ | receive _ | drain _ | hangUp _ => exact h

theorem palette_perform (room : Room) (op : Op) :
    (room.perform op).room.picker.palette = room.picker.palette := by
  rw [picker_perform]
  split
  · rfl
  · exact room.picker.palette_draw

theorem stamp_perform (room : Room) (op : Op) : (room.perform op).room.stamp = room.stamp := by
  obtain ⟨f, hroom⟩ := room.exists_perform_eq_adjust op
  rw [hroom]
  cases op <;> rfl

/-! ## A line goes round -/

/-- A round delivers or refuses one and the same line. -/
theorem mem_deliveries {order : List Member} {source? : Option ParticipantId} {line : String}
    {event : Event} (h : event ∈ deliveries order source? line) :
    (∃ place, event = .delivered place line) ∨ ∃ id fault, event = .refused id fault := by
  obtain ⟨member, -, rfl⟩ := List.mem_map.1 h
  unfold delivery
  cases member.seat.outbox.offer line with
  | ok _ => exact Or.inl ⟨_, rfl⟩
  | error fault => exact Or.inr ⟨_, fault, rfl⟩

/-- The events of an operation: what happened, and a round with the line that it is told by. -/
theorem perform_events (room : Room) (op : Op) :
    (room.perform op).events = [] ∨ (∃ id, (room.perform op).events = [.alreadyGone id])
      ∨ ∃ event order source? line,
          (room.perform op).events = event :: deliveries order source? line
            ∧ event.wording? room.stamp = some line := by
  cases op with
  | join name =>
      exact Or.inr (Or.inr ⟨_, _, none, room.joinLine name, room.join_events name, rfl⟩)
  | leave id =>
      cases hmember : room.member? id with
      | none => exact Or.inr (Or.inl ⟨id, congrArg Turn.events (leave_of_not_member hmember)⟩)
      | some member =>
          exact Or.inr (Or.inr ⟨_, _, none, room.leaveLine member.seat,
            congrArg Turn.events (leave_of_member hmember), rfl⟩)
  | say id fallback text =>
      exact Or.inr (Or.inr ⟨_, _, some id, room.sayLine id fallback text,
        room.say_events id fallback text, rfl⟩)
  | receive _ | drain _ | hangUp _ => exact Or.inl rfl

theorem fits_deliveries (order : List Member) (source? : Option ParticipantId) (line : String) :
    ∀ event ∈ deliveries order source? line, w.Fits event := by
  intro event hevent
  rcases mem_deliveries hevent with ⟨place, rfl⟩ | ⟨id, fault, rfl⟩ <;> trivial

/-! ## Operations -/

/-- Whoever is signed for in the room is signed for as the seat says. -/
theorem Worded.signs (h : room.Worded w chronicle) (id : ParticipantId) (fallback : String) :
    w.Signs id fallback (room.label id fallback) := by
  rw [label]
  cases hmember : room.member? id with
  | none => exact Or.inl rfl
  | some member =>
      obtain ⟨hseat, -, hid⟩ := of_member?_eq_some hmember
      obtain ⟨hname, hcolor⟩ := h.seats member.seat (List.mem_of_getElem? hseat)
      exact Or.inr ⟨member.seat.color, member.seat.name, hcolor, hid ▸ hname, rfl⟩

/-- A newcomer gets a colour that there may be. -/
theorem Worded.color_newcomer (h : room.Worded w chronicle) {op : Op} :
    ∀ ticket ∈ room.newcomers op, w.color ticket.color := by
  cases op with
  | join name =>
      intro ticket hticket
      rw [List.mem_singleton.1 hticket]
      show w.color room.picker.draw.1
      rcases room.picker.draw_mem with hmem | ⟨-, hplain⟩
      · exact h.palette _ hmem
      · exact hplain ▸ w.plain
  | leave _ | say _ _ _ | receive _ | drain _ | hangUp _ => nofun

theorem Worded.fits_perform (h : room.Worded w chronicle) {op : Op}
    (hnew : ∀ ticket ∈ room.newcomers op, w.name ticket.id ticket.name) :
    ∀ event ∈ (room.perform op).events, w.Fits event := by
  cases op with
  | join name =>
      show ∀ event ∈ (room.join name).events, w.Fits event
      rw [join_events, List.forall_mem_cons]
      exact ⟨hnew _ (List.mem_singleton_self _), fits_deliveries _ _ _⟩
  | leave id =>
      show ∀ event ∈ (room.leave id).events, w.Fits event
      cases hmember : room.member? id with
      | none =>
          rw [leave_of_not_member hmember, List.forall_mem_singleton]
          trivial
      | some member =>
          obtain ⟨hseat, -, hid⟩ := of_member?_eq_some hmember
          rw [leave_of_member hmember, List.forall_mem_cons]
          exact ⟨hid ▸ (h.seats member.seat (List.mem_of_getElem? hseat)).1, fits_deliveries _ _ _⟩
  | say id fallback text =>
      show ∀ event ∈ (room.say id fallback text).events, w.Fits event
      rw [say_events, List.forall_mem_cons]
      exact ⟨⟨room.stamp, _, h.stamp, h.signs id fallback, rfl⟩, fits_deliveries _ _ _⟩
  | receive _ | drain _ | hangUp _ => nofun

/-- An operation keeps to the wording, if it lets nobody in under a name that there may not be. -/
theorem Worded.perform (h : room.Worded w chronicle) {op : Op}
    (hnew : ∀ ticket ∈ room.newcomers op, w.name ticket.id ticket.name) :
    (room.perform op).room.Worded w (chronicle ++ (room.perform op).events) where
  stamp := by
    rw [stamp_perform]
    exact h.stamp
  palette := by
    rw [palette_perform]
    exact h.palette
  seats := suits_perform h.seats fun ticket hticket =>
    ⟨hnew ticket hticket, h.color_newcomer ticket hticket⟩
  fits := List.forall_mem_append.2 ⟨h.fits, h.fits_perform hnew⟩
  delivered := by
    intro place line hline
    rcases List.mem_append.1 hline with hold | hthis
    · obtain ⟨time, htime, event, hevent, hwording⟩ := h.delivered place line hold
      exact ⟨time, htime, event, List.mem_append_left _ hevent, hwording⟩
    · rcases room.perform_events op with hnone | ⟨id, hgone⟩
        | ⟨event, order, source?, told, hround, hwording⟩
      · simp [hnone] at hthis
      · simp [hgone] at hthis
      · -- the line that was delivered is the one that went round
        refine ⟨room.stamp, h.stamp, event, ?_, ?_⟩
        · rw [hround]
          exact List.mem_append_right _ List.mem_cons_self
        · rw [hround] at hthis
          rcases List.mem_cons.1 hthis with rfl | hdelivery
          · exact nomatch hwording
          · rcases mem_deliveries hdelivery with ⟨_, heq⟩ | ⟨_, _, heq⟩
            · rw [hwording, (Event.delivered.inj heq).2]
            · exact nomatch heq

end Room

end LineChat
