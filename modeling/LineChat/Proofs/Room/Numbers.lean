import LineChat.Proofs.Room.Backlog

set_option autoImplicit false

/-! # Numbers, and the notices about them

A room that was opened empty has given the numbers from one on to its participants, in order, and
starts over after `2 ^ 64` of them (`Numbered`). As long as fewer have joined, a number tells the place
of the one participant who has it, and the number that is given out next is new to the room.

With it goes what the events say about a participant. `Announced` relates the notices to the seat:
whoever has a seat was announced once, and whoever has left it was seen off once. -/

namespace LineChat

namespace Room

/-! ## Counting -/

/-- How many participants an operation lets in. -/
def Op.joins : Op → Nat
  | .join _ => 1
  | .leave _ | .say .. | .receive _ | .drain _ | .hangUp _ => 0

/-- The one who joined, if that is what happened. -/
def Event.joiner? : Event → Option ParticipantId
  | .joined _ ticket _ => some ticket.id
  | .left .. | .alreadyGone _ | .said .. | .delivered .. | .refused .. => none

/-- The one who left, if that is what happened. -/
def Event.leaver? : Event → Option ParticipantId
  | .left id _ _ => some id
  | .joined .. | .alreadyGone _ | .said .. | .delivered .. | .refused .. => none

/-- How often the room announced that somebody joined. -/
def joinNotices (id : ParticipantId) (events : List Event) : Nat :=
  (events.filterMap Event.joiner?).count id

/-- How often the room announced that somebody left. -/
def leaveNotices (id : ParticipantId) (events : List Event) : Nat :=
  (events.filterMap Event.leaver?).count id

@[simp] theorem joinNotices_append (id : ParticipantId) (events events' : List Event) :
    joinNotices id (events ++ events') = joinNotices id events + joinNotices id events' := by
  simp [joinNotices]

@[simp] theorem leaveNotices_append (id : ParticipantId) (events events' : List Event) :
    leaveNotices id (events ++ events') = leaveNotices id events + leaveNotices id events' := by
  simp [leaveNotices]

/-! ## Numbers -/

/-- The number of the participant who joins after so many others. -/
def nth (k : Nat) : ParticipantId :=
  ⟨UInt64.ofNat (k + 1)⟩

/-- A number is given out to the participant whose place comes with it. -/
theorem nth_place (id : ParticipantId) : nth id.place.index = id := by
  obtain ⟨seq⟩ := id
  rw [nth, ParticipantId.place, UInt64.ofNat_add, UInt64.ofNat_toNat]
  exact congrArg ParticipantId.mk (UInt64.sub_add_cancel seq 1)

/-- Before numbers start over, the place that comes with a number is that of the participant. -/
theorem place_nth {k : Nat} (hk : k < 2 ^ 64) : (nth k).place = ⟨k⟩ := by
  have hpred : UInt64.ofNat (k + 1) - 1 = UInt64.ofNat k := by
    rw [UInt64.ofNat_add]
    exact UInt64.add_sub_cancel _ _
  rw [nth, ParticipantId.place, hpred, UInt64.toNat_ofNat', Nat.mod_eq_of_lt hk]

/-- A room in which so many have joined, and have the numbers from one on. -/
structure Numbered (room : Room) (joins : Nat) : Prop where
  lastSeq : room.lastSeq = UInt64.ofNat joins
  ids : room.seats.map Seat.id = (List.range joins).map nth

theorem numbered_empty (stamp : String) (picker : ColorPicker) :
    (empty stamp picker).Numbered 0 := ⟨rfl, rfl⟩

theorem struck_ids (room : Room) (id : ParticipantId) :
    (room.struck id).seats.map Seat.id = room.seats.map Seat.id := by
  rw [struck_eq_adjust, adjust_ids]

/-- Only joining adds a seat and uses up a number. -/
theorem ids_perform (room : Room) (op : Op) :
    (room.perform op).room.seats.map Seat.id
        = room.seats.map Seat.id ++ List.replicate op.joins room.nextId
      ∧ (room.perform op).room.lastSeq = room.lastSeq + UInt64.ofNat op.joins := by
  cases op with
  | join name =>
      show (room.join name).room.seats.map Seat.id = _ ++ [room.nextId]
        ∧ (room.join name).room.lastSeq = room.lastSeq + 1
      rw [join_room, adjust_ids, enrol_seats, List.map_append, struck_ids]
      exact ⟨rfl, rfl⟩
  | leave id =>
      show (room.leave id).room.seats.map Seat.id = _ ++ []
        ∧ (room.leave id).room.lastSeq = room.lastSeq + 0
      cases hmember : room.member? id with
      | none => simp [leave_of_not_member hmember]
      | some member => simp [leave_room hmember, struck_eq_adjust]
  | say id fallback text =>
      show (room.say id fallback text).room.seats.map Seat.id = _ ++ []
        ∧ (room.say id fallback text).room.lastSeq = room.lastSeq + 0
      simp [say_room]
  | receive place =>
      show (room.receive place).2.seats.map Seat.id = _ ++ []
        ∧ (room.receive place).2.lastSeq = room.lastSeq + 0
      unfold receive
      cases room.seat? place <;> simp [mapOutbox_eq_adjust]
  | drain place =>
      show (room.drain place).2.seats.map Seat.id = _ ++ []
        ∧ (room.drain place).2.lastSeq = room.lastSeq + 0
      unfold drain
      cases (room.seat? place).filter fun seat => seat.outbox.receiving <;>
        simp [mapOutbox_eq_adjust]
  | hangUp place =>
      show (room.hangUp place).seats.map Seat.id = _ ++ []
        ∧ (room.hangUp place).lastSeq = room.lastSeq + 0
      simp [hangUp, mapOutbox_eq_adjust]

theorem length_perform (room : Room) (op : Op) :
    (room.perform op).room.seats.length = room.seats.length + op.joins := by
  have hlength := congrArg List.length (room.ids_perform op).1
  simpa using hlength

/-- Nobody gets a seat but by joining. -/
theorem seat?_perform_eq_none {room : Room} {op : Op} {place : Place}
    (hseat : room.seat? place = none) (hplace : op.joins = 0 ∨ place ≠ room.nextPlace) :
    (room.perform op).room.seat? place = none := by
  have hlength : room.seats.length ≤ place.index := List.getElem?_eq_none_iff.1 hseat
  refine List.getElem?_eq_none ?_
  rw [length_perform]
  cases op with
  | join name =>
      have hne : place.index ≠ room.seats.length :=
        fun heq => hplace.resolve_left Nat.one_ne_zero (congrArg Place.mk heq)
      show room.seats.length + 1 ≤ place.index
      omega
  | leave _ | say _ _ _ | receive _ | drain _ | hangUp _ => exact hlength

namespace Numbered

variable {room : Room} {joins : Nat} {place : Place} {seat : Seat}

theorem nextId (h : room.Numbered joins) : room.nextId = nth joins := by
  rw [nth, UInt64.ofNat_add, ← h.lastSeq]
  rfl

theorem length (h : room.Numbered joins) : room.seats.length = joins := by
  simpa using congrArg List.length h.ids

theorem perform (h : room.Numbered joins) (op : Op) :
    (room.perform op).room.Numbered (joins + op.joins) := by
  obtain ⟨hids, hlast⟩ := room.ids_perform op
  rw [h.ids, h.nextId] at hids
  refine ⟨by rw [hlast, h.lastSeq, UInt64.ofNat_add], hids.trans ?_⟩
  cases op with
  | join name =>
      show _ = (List.range (joins + 1)).map nth
      rw [List.range_succ, List.map_append]
      rfl
  | leave _ | say _ _ _ | receive _ | drain _ | hangUp _ => exact List.append_nil _

theorem id_eq (h : room.Numbered joins) (hseat : room.seat? place = some seat) :
    place.index < joins ∧ seat.id = nth place.index := by
  have hindex : place.index < joins := h.length ▸ (List.getElem?_eq_some_iff.1 hseat).1
  have hid : (room.seats.map Seat.id)[place.index]? = some seat.id := by
    rw [List.getElem?_map, show room.seats[place.index]? = some seat from hseat, Option.map_some]
  rw [h.ids, List.getElem?_map, List.getElem?_range hindex, Option.map_some] at hid
  exact ⟨hindex, (Option.some.inj hid).symm⟩

/-- A number tells the place. -/
theorem place_eq (h : room.Numbered joins) (hjoins : joins ≤ 2 ^ 64)
    (hseat : room.seat? place = some seat) : seat.id.place = place := by
  obtain ⟨hindex, hid⟩ := h.id_eq hseat
  rw [hid, place_nth (by omega)]

/-- The next number is new. -/
theorem ne_nextId (h : room.Numbered joins) (hjoins : joins < 2 ^ 64)
    (hseat : room.seat? place = some seat) : seat.id ≠ room.nextId := by
  intro hid
  have hplace := h.place_eq (Nat.le_of_lt hjoins) hseat
  rw [hid, h.nextId, place_nth hjoins] at hplace
  have hindex := (h.id_eq hseat).1
  rw [← hplace] at hindex
  exact Nat.lt_irrefl _ hindex

/-- The place that comes with the next number is free. -/
theorem place_nextId (h : room.Numbered joins) (hjoins : joins < 2 ^ 64) :
    room.nextId.place = room.nextPlace := by
  rw [h.nextId, place_nth hjoins, nextPlace, h.length]

/-- Under a number there is the one participant who was given it. -/
theorem isSome_member?_iff (h : room.Numbered joins) (hjoins : joins ≤ 2 ^ 64)
    (hseat : room.seat? place = some seat) :
    (room.member? seat.id).isSome = true ↔ seat.registered = true := by
  constructor
  · intro hsome
    obtain ⟨member, hmember⟩ := Option.isSome_iff_exists.1 hsome
    obtain ⟨hthis, hreg, hid⟩ := of_member?_eq_some hmember
    have hplace : member.place = place := by
      rw [← h.place_eq hjoins hthis, hid, h.place_eq hjoins hseat]
    rw [hplace, hseat] at hthis
    rwa [Option.some.inj hthis]
  · intro hreg
    cases hmember : room.member? seat.id with
    | some _ => rfl
    | none =>
        have hgone := (room.member?_eq_none_iff seat.id).1 hmember place seat hseat rfl
        simp [hgone] at hreg

/-- Nobody is there under a number if the place that comes with it is free. -/
theorem member?_eq_none {id : ParticipantId} (h : room.Numbered joins) (hjoins : joins ≤ 2 ^ 64)
    (hfree : room.seat? id.place = none) : room.member? id = none := by
  cases hmember : room.member? id with
  | none => rfl
  | some member =>
      obtain ⟨hthis, -, hid⟩ := of_member?_eq_some hmember
      rw [← h.place_eq hjoins hthis, hid, hfree] at hthis
      exact absurd hthis nofun

end Numbered

/-! ## Notices -/

theorem filterMap_joiner?_deliveries (order : List Member) (source? : Option ParticipantId)
    (line : String) : (deliveries order source? line).filterMap Event.joiner? = [] :=
  filterMap_deliveries (fun _ _ => rfl) (fun _ _ => rfl) order source? line

theorem filterMap_leaver?_deliveries (order : List Member) (source? : Option ParticipantId)
    (line : String) : (deliveries order source? line).filterMap Event.leaver? = [] :=
  filterMap_deliveries (fun _ _ => rfl) (fun _ _ => rfl) order source? line

/-- Joining is announced, and nothing else counts as joining. -/
theorem joinNotices_perform (room : Room) (op : Op) (id : ParticipantId) :
    joinNotices id (room.perform op).events
      = if op.joins = 1 ∧ id = room.nextId then 1 else 0 := by
  cases op with
  | join name =>
      show joinNotices id (room.join name).events = _
      rw [joinNotices, join_events, List.filterMap_cons]
      by_cases hid : id = room.nextId
      · simp [Event.joiner?, enrol_id, filterMap_joiner?_deliveries, Op.joins, hid]
      · simp [Event.joiner?, enrol_id, filterMap_joiner?_deliveries, Op.joins, hid, Ne.symm hid]
  | leave other =>
      show joinNotices id (room.leave other).events = _
      cases hmember : room.member? other with
      | none =>
          simp [leave_of_not_member hmember, joinNotices, List.filterMap_cons, Event.joiner?,
            Op.joins]
      | some member =>
          rw [leave_of_member hmember, joinNotices, List.filterMap_cons]
          simp [Event.joiner?, filterMap_joiner?_deliveries, Op.joins]
  | say other fallback text =>
      show joinNotices id (room.say other fallback text).events = _
      rw [joinNotices, say_events, List.filterMap_cons]
      simp [Event.joiner?, filterMap_joiner?_deliveries, Op.joins]
  | receive _ | drain _ | hangUp _ => simp [joinNotices, perform, performIn, Op.joins]

/-- Leaving is announced if there is somebody to leave. -/
theorem leaveNotices_perform (room : Room) (op : Op) (id : ParticipantId) :
    leaveNotices id (room.perform op).events
      = if op = .leave id ∧ (room.member? id).isSome = true then 1 else 0 := by
  cases op with
  | join name =>
      show leaveNotices id (room.join name).events = _
      rw [leaveNotices, join_events, List.filterMap_cons]
      simp [Event.leaver?, filterMap_leaver?_deliveries]
  | leave other =>
      show leaveNotices id (room.leave other).events = _
      cases hmember : room.member? other with
      | none =>
          have hno : ¬ (other = id ∧ (room.member? id).isSome = true) := by
            rintro ⟨rfl, hsome⟩
            simp [hmember] at hsome
          simp [leave_of_not_member hmember, leaveNotices, List.filterMap_cons, Event.leaver?, hno]
      | some member =>
          rw [leave_of_member hmember, leaveNotices, List.filterMap_cons]
          by_cases hid : other = id
          · subst hid
            simp [Event.leaver?, filterMap_leaver?_deliveries, hmember]
          · simp [Event.leaver?, filterMap_leaver?_deliveries, hid]
  | say other fallback text =>
      show leaveNotices id (room.say other fallback text).events = _
      rw [leaveNotices, say_events, List.filterMap_cons]
      simp [Event.leaver?, filterMap_leaver?_deliveries]
  | receive _ | drain _ | hangUp _ => simp [leaveNotices, perform, performIn]

/-- What the notices say about a number is what has become of the seat that comes with it: none
    without a seat, one on joining, and one more on leaving. -/
def Announced (room : Room) (events : List Event) (id : ParticipantId) : Prop :=
  match room.seat? id.place with
  | none => joinNotices id events = 0 ∧ leaveNotices id events = 0
  | some seat =>
    joinNotices id events = 1 ∧ leaveNotices id events = if seat.registered then 0 else 1

theorem announced_empty (stamp : String) (picker : ColorPicker) (id : ParticipantId) :
    (empty stamp picker).Announced [] id := ⟨rfl, rfl⟩

theorem seat?_join_next (room : Room) (name : String) :
    ∃ seat, (room.join name).room.seat? room.nextPlace = some seat
      ∧ seat.id = room.nextId ∧ seat.name = (room.enrol name).2.name ∧ seat.registered = true
      ∧ seat.outbox.receiving = true := by
  have hnew : (room.enrol name).1.seat? room.nextPlace = some (room.newSeat name) := by
    rw [seat?_enrol, if_pos rfl]
  obtain ⟨seat, hseat, hid, hname, -, hreg, hrec⟩ := seat?_round hnew none (room.joinLine name)
  rw [← join_room] at hseat
  exact ⟨seat, hseat, hid, hname, hreg, hrec⟩

theorem Announced.perform {room : Room} {joins : Nat} {events : List Event} {id : ParticipantId}
    (ha : room.Announced events id) (h : room.Numbered joins) (hjoins : joins < 2 ^ 64) (op : Op) :
    (room.perform op).room.Announced (events ++ (room.perform op).events) id := by
  have hnext := h.place_nextId hjoins
  unfold Announced at ha ⊢
  simp only [joinNotices_append, leaveNotices_append, joinNotices_perform, leaveNotices_perform]
  cases hseat : room.seat? id.place with
  | none =>
      have hmember := h.member?_eq_none (Nat.le_of_lt hjoins) hseat
      simp only [hseat] at ha
      simp only [hmember, ha.1, ha.2, Option.isSome_none, Bool.false_eq_true, and_false, if_false,
        Nat.zero_add]
      by_cases hjoin : op.joins = 1 ∧ id = room.nextId
      · cases op with
        | join name =>
            obtain ⟨seat, hseat', -, -, hreg, -⟩ := room.seat?_join_next name
            rw [← hnext, ← hjoin.2] at hseat'
            show match (room.join name).room.seat? id.place with | none => _ | some seat => _
            simp only [hseat', hreg, if_pos hjoin, if_true, and_self]
        | leave _ | say _ _ _ | receive _ | drain _ | hangUp _ => simp [Op.joins] at hjoin
      · have hnone : (room.perform op).room.seat? id.place = none := by
          refine seat?_perform_eq_none hseat ?_
          by_cases hop : op.joins = 0
          · exact Or.inl hop
          · refine Or.inr fun hplace => hjoin ⟨?_, ?_⟩
            · cases op <;> simp_all [Op.joins]
            · rw [← nth_place id, hplace, ← hnext, nth_place]
        simp only [hnone, if_neg hjoin, and_self]
  | some seat =>
      -- the number is not given out again, and whoever leaves under it is the one at this place
      obtain ⟨seat', hseat', hkeeps⟩ := seat?_perform op hseat
      obtain rfl : seat.id = id := by rw [(h.id_eq hseat).2, nth_place]
      have hne := h.ne_nextId hjoins hseat
      have hmember := h.isSome_member?_iff (Nat.le_of_lt hjoins) hseat
      have hreg := hkeeps.registered
      simp only [hseat] at ha
      simp only [hseat', ha.1, ha.2, hne, and_false, if_false, Nat.add_zero, true_and]
      cases op with
      | join name => simp_all [strikes?, Ne.symm]
      | leave other =>
          by_cases hr : seat.registered = true <;> by_cases hother : other = seat.id <;>
            simp_all [strikes?]
      | say _ _ _ | receive _ | drain _ | hangUp _ => simp_all [strikes?]

end Room

end LineChat
