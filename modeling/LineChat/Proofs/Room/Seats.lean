import LineChat.Room.Op
import Mathlib.Algebra.GroupWithZero.Nat
import Mathlib.Data.List.Nodup

set_option autoImplicit false

/-! # What an operation does to each seat

A line goes round the registry, member by member, and that comes to the same as looking at every seat
on its own. So every operation is an `adjust`, which changes the queues and leaves the rest of the
seats alone; joining is one behind `enrol`, which adds a seat at the end.

The events that an operation leaves behind tell the same story: those of a round are one for each
member, and say whether the queue has taken the line. -/

namespace LineChat

namespace Outbox

/-- Whether a line that is offered is taken. -/
def Accepts (box : Outbox) : Prop :=
  box.receiving = true ∧ box.queue.length < capacity

instance (box : Outbox) : Decidable box.Accepts :=
  inferInstanceAs (Decidable (_ ∧ _))

theorem offered_queue_eq (box : Outbox) (line : String) :
    (box.offered line).queue = box.queue ++ if box.Accepts then [line] else [] :=
  box.offered_queue line

theorem offer_of_accepts {box : Outbox} (h : box.Accepts) (line : String) :
    box.offer line = .ok { box with queue := box.queue ++ [line] } := by
  simp [offer, h.1, h.2]

theorem exists_offer_eq_error {box : Outbox} (h : ¬ box.Accepts) (line : String) :
    ∃ fault, box.offer line = .error fault := by
  unfold offer
  cases hr : box.receiving with
  | false => exact ⟨.queueClosed, by simp⟩
  | true =>
      have hfull : ¬ box.queue.length < capacity := fun hl => h ⟨hr, hl⟩
      exact ⟨.queueFull, by simp [hfull]⟩

end Outbox

namespace Room

/-! ## Changing queues -/

/-- The room with other queues, each made out from the seat that it belongs to. -/
def adjust (room : Room) (f : Place → Seat → Outbox) : Room :=
  { room with
    seats := room.seats.mapIdx fun index seat => { seat with outbox := f ⟨index⟩ seat } }

@[simp] theorem adjust_lastSeq (room : Room) (f : Place → Seat → Outbox) :
    (room.adjust f).lastSeq = room.lastSeq := rfl

@[simp] theorem adjust_ids (room : Room) (f : Place → Seat → Outbox) :
    (room.adjust f).seats.map Seat.id = room.seats.map Seat.id := by
  refine List.ext_getElem? fun index => ?_
  simp [adjust, Function.comp_def]

theorem seat?_adjust (room : Room) (f : Place → Seat → Outbox) (place : Place) :
    (room.adjust f).seat? place
      = (room.seat? place).map fun seat => { seat with outbox := f place seat } :=
  List.getElem?_mapIdx

theorem adjust_congr {room : Room} {f g : Place → Seat → Outbox}
    (h : ∀ place seat, room.seat? place = some seat → f place seat = g place seat) :
    room.adjust f = room.adjust g := by
  unfold adjust
  congr 1
  rw [List.mapIdx_eq_mapIdx_iff]
  intro index hindex
  rw [h ⟨index⟩ _ (List.getElem?_eq_getElem hindex)]

theorem adjust_self (room : Room) : (room.adjust fun _ seat => seat.outbox) = room := by
  unfold adjust
  congr 1
  exact List.ext_getElem? fun index => by simp

theorem adjust_adjust (room : Room) (f g : Place → Seat → Outbox) :
    (room.adjust f).adjust g
      = room.adjust fun place seat => g place { seat with outbox := f place seat } := by
  simp [adjust, Function.comp_def]

theorem mapOutbox_eq_adjust (room : Room) (place : Place) (f : Outbox → Outbox) :
    room.mapOutbox place f
      = room.adjust fun place' seat => if place' = place then f seat.outbox else seat.outbox := by
  unfold mapOutbox adjust
  congr 1
  refine List.ext_getElem? fun index => ?_
  rw [List.getElem?_modify, List.getElem?_mapIdx]
  cases room.seats[index]? with
  | none => rfl
  | some seat =>
      by_cases hplace : place.index = index
      · simp [← hplace]
      · have hother : ¬ (⟨index⟩ : Place) = place := fun heq => hplace (congrArg Place.index heq).symm
        simp [hplace, hother]

theorem struck_eq_adjust (room : Room) (id : ParticipantId) :
    room.struck id
      = room.adjust fun _ seat => if seat.id = id then seat.outbox.closed else seat.outbox := by
  unfold struck adjust
  congr 1
  refine List.ext_getElem? fun index => ?_
  rw [List.getElem?_map, List.getElem?_mapIdx]
  cases room.seats[index]? with
  | none => rfl
  | some seat => by_cases hid : seat.id = id <;> simp [hid]

theorem seat?_struck (room : Room) (id : ParticipantId) (place : Place) :
    (room.struck id).seat? place
      = (room.seat? place).map fun seat =>
          { seat with outbox := if seat.id = id then seat.outbox.closed else seat.outbox } := by
  rw [struck_eq_adjust, seat?_adjust]

/-! ## The registry -/

theorem mem_membersFrom_iff (start : Nat) (seats : List Seat) (member : Member) :
    member ∈ membersFrom start seats
      ↔ ∃ index, seats[index]? = some member.seat ∧ member.place = ⟨start + index⟩
          ∧ member.seat.registered = true := by
  induction seats generalizing start with
  | nil => simp [membersFrom]
  | cons seat seats ih =>
      have hrest : member ∈ membersFrom (start + 1) seats
          ↔ ∃ index, (seat :: seats)[index + 1]? = some member.seat
              ∧ member.place = ⟨start + (index + 1)⟩ ∧ member.seat.registered = true := by
        simp only [ih, List.getElem?_cons_succ, Nat.add_assoc, Nat.add_comm 1]
      have hfirst : (∃ index, (seat :: seats)[index]? = some member.seat
            ∧ member.place = ⟨start + index⟩ ∧ member.seat.registered = true)
          ↔ (seat = member.seat ∧ member.place = ⟨start⟩ ∧ member.seat.registered = true)
            ∨ member ∈ membersFrom (start + 1) seats := by
        rw [hrest, ← Nat.or_exists_add_one]
        simp
      rw [hfirst, membersFrom]
      split
      · rename_i hreg
        rw [List.mem_cons]
        refine or_congr_left ⟨?_, ?_⟩
        · rintro rfl
          exact ⟨rfl, rfl, hreg⟩
        · rintro ⟨rfl, hplace, -⟩
          rw [← hplace]
      · rename_i hreg
        refine ⟨Or.inr, fun h => h.resolve_left ?_⟩
        rintro ⟨rfl, -, hmember⟩
        exact hreg hmember

/-- Who is in the registry: everybody with a registered seat. -/
theorem mem_registry_iff (room : Room) (member : Member) :
    member ∈ room.registry
      ↔ room.seat? member.place = some member.seat ∧ member.seat.registered = true := by
  rw [registry, mem_membersFrom_iff]
  constructor
  · rintro ⟨index, hseat, hplace, hreg⟩
    rw [seat?, hplace, Nat.zero_add]
    exact ⟨hseat, hreg⟩
  · rintro ⟨hseat, hreg⟩
    exact ⟨member.place.index, hseat, by rw [Nat.zero_add], hreg⟩

theorem nodup_places_membersFrom (start : Nat) (seats : List Seat) :
    ((membersFrom start seats).map Member.place).Nodup := by
  induction seats generalizing start with
  | nil => exact List.nodup_nil
  | cons seat seats ih =>
      rw [membersFrom]
      split
      · rw [List.map_cons, List.nodup_cons]
        refine ⟨?_, ih (start + 1)⟩
        intro hmem
        obtain ⟨member, hmember, hplace⟩ := List.mem_map.1 hmem
        -- whoever sits further back has a later place
        obtain ⟨index, -, hindex, -⟩ := (mem_membersFrom_iff _ _ _).1 hmember
        have hstart : start + 1 + index = start := congrArg Place.index (hindex.symm.trans hplace)
        omega
      · exact ih (start + 1)

theorem nodup_places (room : Room) : (room.registry.map Member.place).Nodup :=
  nodup_places_membersFrom 0 room.seats

theorem of_member?_eq_some {room : Room} {id : ParticipantId} {member : Member}
    (h : room.member? id = some member) :
    room.seat? member.place = some member.seat ∧ member.seat.registered = true
      ∧ member.seat.id = id := by
  obtain ⟨hseat, hreg⟩ := (room.mem_registry_iff member).1 (List.mem_of_find?_eq_some h)
  exact ⟨hseat, hreg, by simpa using List.find?_some h⟩

/-- Nobody is in the room under a number if nobody with this number is registered. -/
theorem member?_eq_none_iff (room : Room) (id : ParticipantId) :
    room.member? id = none
      ↔ ∀ place seat, room.seat? place = some seat → seat.id = id → seat.registered = false := by
  rw [member?, List.find?_eq_none]
  constructor
  · intro h place seat hseat hid
    rw [Bool.eq_false_iff]
    intro hreg
    have hmem := (room.mem_registry_iff ⟨place, seat⟩).2 ⟨hseat, hreg⟩
    simpa [hid] using h _ hmem
  · intro h member hmember
    obtain ⟨hseat, hreg⟩ := (room.mem_registry_iff member).1 hmember
    intro hid
    simp [h _ _ hseat (by simpa using hid)] at hreg

/-! ## Handing out a line -/

theorem mem_addressees_iff (order : List Member) (source? : Option ParticipantId)
    (member : Member) :
    member ∈ addressees order source? ↔ member ∈ order ∧ source? ≠ some member.seat.id := by
  simp [addressees]

theorem nodup_places_addressees {order : List Member} (h : (order.map Member.place).Nodup)
    (source? : Option ParticipantId) : ((addressees order source?).map Member.place).Nodup :=
  h.sublist (List.filter_sublist.map Member.place)

/-- A line is meant for whoever is registered, but for the one it comes from. -/
theorem place_mem_addressees_iff {room : Room} {order : List Member}
    (h : order.Perm room.registry) {place : Place} {seat : Seat}
    (hseat : room.seat? place = some seat) (source? : Option ParticipantId) :
    place ∈ (addressees order source?).map Member.place
      ↔ seat.registered = true ∧ source? ≠ some seat.id := by
  simp only [List.mem_map, mem_addressees_iff, h.mem_iff, mem_registry_iff]
  constructor
  · rintro ⟨member, ⟨⟨hmember, hreg⟩, hsource⟩, rfl⟩
    obtain rfl := Option.some.inj (hmember.symm.trans hseat)
    exact ⟨hreg, hsource⟩
  · rintro ⟨hreg, hsource⟩
    exact ⟨⟨place, seat⟩, ⟨⟨hseat, hreg⟩, hsource⟩, rfl⟩

theorem foldl_offerTo {members : List Member} (h : (members.map Member.place).Nodup) (room : Room)
    (line : String) :
    members.foldl (offerTo line) room
      = room.adjust fun place seat =>
          if place ∈ members.map Member.place then seat.outbox.offered line else seat.outbox := by
  induction members generalizing room with
  | nil => simp [adjust_self]
  | cons member members ih =>
      rw [List.map_cons, List.nodup_cons] at h
      rw [List.foldl_cons, ih h.2, offerTo, mapOutbox_eq_adjust, adjust_adjust]
      refine adjust_congr fun place seat _ => ?_
      by_cases hplace : place = member.place
      · subst hplace
        simp only [h.1, if_false, if_true, List.map_cons, List.mem_cons, true_or]
      · simp only [hplace, if_false, List.map_cons, List.mem_cons, false_or]

/-- The queues after a line went round the registry. -/
def afterRound (source? : Option ParticipantId) (line : String) (seat : Seat) : Outbox :=
  if seat.registered = true ∧ source? ≠ some seat.id then seat.outbox.offered line
  else seat.outbox

/-- To hand a line round is to offer it to every seat in question, whatever the order. -/
theorem deliver_eq_adjust {room : Room} {order : List Member} (h : order.Perm room.registry)
    (source? : Option ParticipantId) (line : String) :
    room.deliver order source? line = room.adjust fun _ => afterRound source? line := by
  have hnodup : (order.map Member.place).Nodup :=
    (h.map Member.place).nodup_iff.2 room.nodup_places
  rw [deliver, foldl_offerTo (nodup_places_addressees hnodup source?)]
  refine adjust_congr fun place seat hseat => ?_
  simp only [afterRound, place_mem_addressees_iff h hseat]

@[simp] theorem afterRound_sending (source? : Option ParticipantId) (line : String) (seat : Seat) :
    (afterRound source? line seat).sending = seat.outbox.sending := by
  unfold afterRound
  split <;> simp

@[simp] theorem afterRound_receiving (source? : Option ParticipantId) (line : String)
    (seat : Seat) : (afterRound source? line seat).receiving = seat.outbox.receiving := by
  unfold afterRound
  split <;> simp

/-- Whatever counts neither deliveries nor refusals does not count what becomes of a line. -/
theorem filterMap_deliveries {α : Type} {f : Event → Option α}
    (hdelivered : ∀ place line, f (.delivered place line) = none)
    (hrefused : ∀ id fault, f (.refused id fault) = none) (order : List Member)
    (source? : Option ParticipantId) (line : String) :
    (deliveries order source? line).filterMap f = [] := by
  rw [List.filterMap_eq_nil_iff]
  intro event hevent
  obtain ⟨member, -, rfl⟩ := List.mem_map.1 hevent
  unfold delivery
  cases member.seat.outbox.offer line with
  | ok _ => exact hdelivered _ line
  | error fault => exact hrefused _ fault

/-! ## Joining -/

/-- The number that is given out next. -/
def nextId (room : Room) : ParticipantId :=
  ⟨room.lastSeq + 1⟩

/-- The place that is taken next. -/
def nextPlace (room : Room) : Place :=
  ⟨room.seats.length⟩

/-- The seat that comes with joining, before the line about it goes round. -/
def newSeat (room : Room) (name : String) : Seat :=
  let ticket := (room.enrol name).2
  ⟨ticket.id, ticket.name, ticket.color, .fresh⟩

/-- Nobody has the next place yet. -/
theorem seat?_nextPlace (room : Room) : room.seat? room.nextPlace = none :=
  List.getElem?_eq_none (Nat.le_refl _)

/-- Whoever has a seat has not got the next place. -/
theorem ne_nextPlace {room : Room} {place : Place} {seat : Seat}
    (hseat : room.seat? place = some seat) : place ≠ room.nextPlace := by
  rintro rfl
  rw [seat?_nextPlace] at hseat
  exact absurd hseat nofun

theorem enrol_id (room : Room) (name : String) : (room.enrol name).2.id = room.nextId := rfl

theorem enrol_seats (room : Room) (name : String) :
    (room.enrol name).1.seats = (room.struck room.nextId).seats ++ [room.newSeat name] := rfl

/-- The line that announces a new participant. -/
def joinLine (room : Room) (name : String) : String :=
  Line.notice room.stamp (Line.joined (room.enrol name).2.name)

theorem seat?_enrol (room : Room) (name : String) (place : Place) :
    (room.enrol name).1.seat? place
      = if place = room.nextPlace then some (room.newSeat name)
        else (room.struck room.nextId).seat? place := by
  have hlength : (room.struck room.nextId).seats.length = room.seats.length := List.length_map _
  rw [seat?, enrol_seats]
  split
  · rename_i hplace
    rw [hplace, nextPlace, ← hlength, List.getElem?_append_right (Nat.le_refl _), Nat.sub_self]
    rfl
  · rename_i hplace
    have hindex : place.index ≠ (room.struck room.nextId).seats.length := by
      rw [hlength]
      exact fun heq => hplace (congrArg Place.mk heq)
    rcases Nat.lt_or_gt_of_ne hindex with hless | hmore
    · exact List.getElem?_append_left hless
    · rw [seat?, List.getElem?_eq_none (Nat.le_of_lt hmore), List.getElem?_eq_none]
      rw [List.length_append, List.length_singleton]
      exact hmore

theorem join_answer (room : Room) (name : String) :
    (room.join name).answer = (room.enrol name).2 := rfl

theorem join_events (room : Room) (name : String) :
    (room.join name).events
      = .joined name (room.enrol name).2 (room.enrol name).1.online
        :: deliveries (room.enrol name).1.registry none (room.joinLine name) := rfl

theorem join_room (room : Room) (name : String) :
    (room.join name).room
      = (room.enrol name).1.adjust fun _ => afterRound none (room.joinLine name) :=
  deliver_eq_adjust (.refl _) none _

/-! ## Leaving and saying -/

/-- The line that announces that somebody went. -/
def leaveLine (room : Room) (seat : Seat) : String :=
  Line.notice room.stamp (Line.left seat.name)

theorem leave_of_not_member {room : Room} {id : ParticipantId} (h : room.member? id = none) :
    room.leave id = ⟨room, (), [.alreadyGone id]⟩ := by
  simp [leave, leaveIn, h]

theorem leave_of_member {room : Room} {id : ParticipantId} {member : Member}
    (h : room.member? id = some member) :
    room.leave id
      = ⟨(room.struck id).deliver (room.struck id).registry none (room.leaveLine member.seat), (),
          .left id member.seat.name (room.struck id).online
            :: deliveries (room.struck id).registry none (room.leaveLine member.seat)⟩ := by
  simp only [leave, leaveIn, h]
  rfl

theorem leave_room {room : Room} {id : ParticipantId} {member : Member}
    (h : room.member? id = some member) :
    (room.leave id).room
      = (room.struck id).adjust fun _ => afterRound none (room.leaveLine member.seat) := by
  rw [leave_of_member h]
  exact deliver_eq_adjust (.refl _) none _

/-- The line that a text becomes when somebody says it. -/
def sayLine (room : Room) (id : ParticipantId) (fallback text : String) : String :=
  Line.said room.stamp (room.label id fallback) text

theorem say_answer (room : Room) (id : ParticipantId) (fallback text : String) :
    (room.say id fallback text).answer = room.sayLine id fallback text := rfl

theorem say_events (room : Room) (id : ParticipantId) (fallback text : String) :
    (room.say id fallback text).events
      = .said id fallback text (room.sayLine id fallback text)
        :: deliveries room.registry (some id) (room.sayLine id fallback text) := rfl

theorem say_room (room : Room) (id : ParticipantId) (fallback text : String) :
    (room.say id fallback text).room
      = room.adjust fun _ => afterRound (some id) (room.sayLine id fallback text) :=
  deliver_eq_adjust (.refl _) (some id) _

end Room

end LineChat
