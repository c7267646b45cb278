import LineChat.Proofs.Room.Seats

set_option autoImplicit false

/-! # What becomes of a queue

Two laws about one operation, each for any place.

* `seat?_perform`: a seat stays where it is, with the number, the name and the colour. The room's end
  of its queue is closed when the number is struck from the registry, and the reader's end by
  hanging up.
* `taken_append_backlog`: what an operation takes out of a queue, followed by what it leaves there,
  is what there was before, followed by what the events say was delivered. -/

namespace LineChat.Room

/-! ## Views -/

/-- The lines queued at a place, oldest first. -/
def backlog (room : Room) (place : Place) : List String :=
  match room.seat? place with
  | some seat => seat.outbox.queue
  | none => []

/-- The line that the queue at a place has taken, if that is what happened. -/
def Event.deliveredTo? (place : Place) : Event → Option String
  | .delivered place' line => if place' = place then some line else none
  | .joined .. | .left .. | .alreadyGone _ | .said .. | .refused .. => none

/-- The lines that the queue at a place has taken, in order. -/
def deliveredTo (place : Place) (events : List Event) : List String :=
  events.filterMap (Event.deliveredTo? place)

/-- The lines that an operation took out of the queue at a place. -/
def taken (place : Place) : Op → Answer → List String
  | .receive place', .received (.line line) => if place' = place then [line] else []
  | .drain place', .drained (some (lines, _)) => if place' = place then lines else []
  | _, _ => []

/-- The queue that an operation reads from or gives up. -/
def Op.reads? : Op → Option Place
  | .receive place | .drain place | .hangUp place => some place
  | .join _ | .leave _ | .say .. => none

/-- The number that an operation strikes from the registry: that of whoever leaves, and that which
    whoever joins is given. -/
def strikes? (room : Room) : Op → Option ParticipantId
  | .join _ => some room.nextId
  | .leave id => some id
  | .say .. | .receive _ | .drain _ | .hangUp _ => none

@[simp] theorem deliveredTo_nil (place : Place) : deliveredTo place [] = [] := rfl

@[simp] theorem deliveredTo_append (place : Place) (events events' : List Event) :
    deliveredTo place (events ++ events') = deliveredTo place events ++ deliveredTo place events' :=
  List.filterMap_append

theorem backlog_of_seat? {room : Room} {place : Place} {seat : Seat}
    (h : room.seat? place = some seat) : room.backlog place = seat.outbox.queue := by
  simp [backlog, h]

theorem backlog_of_seat?_eq_none {room : Room} {place : Place} (h : room.seat? place = none) :
    room.backlog place = [] := by
  simp [backlog, h]

/-- Queues that are changed by themselves change as their seats say. -/
theorem backlog_adjust (room : Room) (f : Place → Seat → Outbox) (place : Place) :
    (room.adjust f).backlog place
      = ((room.seat? place).map fun seat => (f place seat).queue).getD [] := by
  rw [backlog, seat?_adjust]
  cases room.seat? place <;> rfl

/-! ## A line goes round -/

theorem deliveredTo_delivery (line : String) (member : Member) (place : Place) :
    deliveredTo place [delivery line member]
      = if member.place = place ∧ member.seat.outbox.Accepts then [line] else [] := by
  by_cases haccepts : member.seat.outbox.Accepts
  · rw [delivery, Outbox.offer_of_accepts haccepts]
    by_cases hplace : member.place = place <;>
      simp [deliveredTo, Event.deliveredTo?, hplace, haccepts]
  · obtain ⟨fault, hfault⟩ := Outbox.exists_offer_eq_error haccepts line
    rw [delivery, hfault]
    simp [deliveredTo, Event.deliveredTo?, haccepts]

theorem deliveredTo_map_delivery {room : Room} {members : List Member}
    (hnodup : (members.map Member.place).Nodup)
    (hseats : ∀ member ∈ members, room.seat? member.place = some member.seat) (line : String)
    (place : Place) :
    deliveredTo place (members.map (delivery line))
      = match room.seat? place with
        | some seat =>
          if place ∈ members.map Member.place ∧ seat.outbox.Accepts then [line] else []
        | none => [] := by
  induction members with
  | nil => cases room.seat? place <;> simp
  | cons member members ih =>
      rw [List.map_cons, List.nodup_cons] at hnodup
      have hmember := hseats member List.mem_cons_self
      have hsplit : (member :: members).map (delivery line)
          = [delivery line member] ++ members.map (delivery line) := rfl
      rw [hsplit, deliveredTo_append, deliveredTo_delivery,
        ih hnodup.2 fun other hother => hseats other (List.mem_cons_of_mem _ hother)]
      by_cases hplace : member.place = place
      · -- the others have other places
        subst hplace
        simp [hmember, hnodup.1]
      · have hother : ¬ place = member.place := fun heq => hplace heq.symm
        simp only [hplace, hother, false_and, if_false, List.nil_append, List.map_cons,
          List.mem_cons, false_or]

/-- A line that goes round is delivered to those registered seats that accept it, but not to the
    one that it comes from. -/
theorem deliveredTo_deliveries (room : Room) (source? : Option ParticipantId) (line : String)
    (place : Place) :
    deliveredTo place (deliveries room.registry source? line)
      = match room.seat? place with
        | some seat =>
          if seat.registered = true ∧ source? ≠ some seat.id ∧ seat.outbox.Accepts then [line]
          else []
        | none => [] := by
  have hseats : ∀ member ∈ addressees room.registry source?,
      room.seat? member.place = some member.seat := by
    intro member hmember
    exact ((room.mem_registry_iff member).1 ((mem_addressees_iff _ _ _).1 hmember).1).1
  rw [deliveries, deliveredTo_map_delivery (nodup_places_addressees room.nodup_places source?) hseats]
  cases hseat : room.seat? place with
  | none => rfl
  | some seat => simp only [place_mem_addressees_iff (.refl _) hseat, and_assoc]

theorem backlog_round (room : Room) (source? : Option ParticipantId) (line : String)
    (place : Place) :
    (room.adjust fun _ => afterRound source? line).backlog place
      = room.backlog place ++ deliveredTo place (deliveries room.registry source? line) := by
  rw [backlog_adjust, deliveredTo_deliveries]
  cases hseat : room.seat? place with
  | none => simp [backlog_of_seat?_eq_none hseat]
  | some seat =>
      simp only [Option.map_some, Option.getD_some, backlog_of_seat? hseat, afterRound]
      by_cases hto : seat.registered = true ∧ source? ≠ some seat.id
      · simp [hto, Outbox.offered_queue_eq]
      · have hno : ¬ (seat.registered = true ∧ source? ≠ some seat.id ∧ seat.outbox.Accepts) :=
          fun hall => hto ⟨hall.1, hall.2.1⟩
        rw [if_neg hto, if_neg hno, List.append_nil]

/-! ## Joining, leaving and saying -/

/-- Closing the room's end of a queue leaves the lines where they are. -/
theorem backlog_struck (room : Room) (id : ParticipantId) (place : Place) :
    (room.struck id).backlog place = room.backlog place := by
  rw [struck_eq_adjust, backlog_adjust, backlog]
  cases room.seat? place with
  | none => rfl
  | some seat => by_cases hid : seat.id = id <;> simp [hid, Outbox.closed]

/-- A new seat comes with an empty queue. -/
theorem backlog_enrol (room : Room) (name : String) (place : Place) :
    (room.enrol name).1.backlog place = room.backlog place := by
  by_cases hplace : place = room.nextPlace
  · rw [backlog, seat?_enrol, if_pos hplace, hplace, backlog_of_seat?_eq_none room.seat?_nextPlace]
    rfl
  · rw [backlog, seat?_enrol, if_neg hplace, ← backlog, backlog_struck]

theorem backlog_join (room : Room) (name : String) (place : Place) :
    (room.join name).room.backlog place
      = room.backlog place ++ deliveredTo place (room.join name).events := by
  rw [join_room, backlog_round, backlog_enrol, join_events]
  rfl

theorem backlog_leave (room : Room) (id : ParticipantId) (place : Place) :
    (room.leave id).room.backlog place
      = room.backlog place ++ deliveredTo place (room.leave id).events := by
  cases hmember : room.member? id with
  | none => simp [leave_of_not_member hmember, deliveredTo, Event.deliveredTo?]
  | some member =>
      rw [leave_room hmember, backlog_round, backlog_struck, leave_of_member hmember]
      rfl

theorem backlog_say (room : Room) (id : ParticipantId) (fallback text : String) (place : Place) :
    (room.say id fallback text).room.backlog place
      = room.backlog place ++ deliveredTo place (room.say id fallback text).events := by
  rw [say_room, backlog_round, say_events]
  rfl

/-! ## Reading -/

theorem backlog_mapOutbox_of_ne {place other : Place} (h : other ≠ place) (room : Room)
    (f : Outbox → Outbox) : (room.mapOutbox other f).backlog place = room.backlog place := by
  rw [mapOutbox_eq_adjust, backlog_adjust, backlog]
  cases room.seat? place with
  | none => rfl
  | some seat => simp [h.symm]

theorem backlog_mapOutbox_self {room : Room} {place : Place} {seat : Seat}
    (hseat : room.seat? place = some seat) (f : Outbox → Outbox) :
    (room.mapOutbox place f).backlog place = (f seat.outbox).queue := by
  rw [mapOutbox_eq_adjust, backlog_adjust, hseat]
  simp

theorem backlog_receive_of_ne {place other : Place} (h : other ≠ place) (room : Room) :
    (room.receive other).2.backlog place = room.backlog place := by
  unfold receive
  cases room.seat? other with
  | none => rfl
  | some seat => exact backlog_mapOutbox_of_ne h room _

theorem backlog_drain_of_ne {place other : Place} (h : other ≠ place) (room : Room) :
    (room.drain other).2.backlog place = room.backlog place := by
  unfold drain
  cases (room.seat? other).filter fun seat => seat.outbox.receiving with
  | none => rfl
  | some seat => exact backlog_mapOutbox_of_ne h room _

/-- The line that a reader gets was the oldest one. -/
theorem taken_receive (room : Room) (place : Place) :
    taken place (.receive place) (.received (room.receive place).1)
        ++ (room.receive place).2.backlog place
      = room.backlog place := by
  unfold receive
  cases hseat : room.seat? place with
  | none => simp [taken]
  | some seat =>
      simp only [backlog_mapOutbox_self hseat, backlog_of_seat? hseat, Outbox.receive]
      cases seat.outbox.receiving with
      | false => simp [taken]
      | true =>
          cases hqueue : seat.outbox.queue with
          | nil => cases seat.outbox.sending <;> simp [taken, hqueue]
          | cons line rest => simp [taken]

theorem backlog_of_receive {room room' : Room} {place : Place} {line : String}
    (h : room.receive place = (.line line, room')) :
    room.backlog place = line :: room'.backlog place := by
  have htaken := taken_receive room place
  rw [h] at htaken
  simpa [taken] using htaken.symm

theorem taken_drain (room : Room) (place : Place) :
    taken place (.drain place) (.drained (room.drain place).1)
        ++ (room.drain place).2.backlog place
      = room.backlog place := by
  unfold drain
  cases hseat : (room.seat? place).filter fun seat => seat.outbox.receiving with
  | none => simp [taken]
  | some seat =>
      have hsome := (Option.filter_eq_some_iff.1 hseat).1
      simp [taken, backlog_mapOutbox_self hsome, backlog_of_seat? hsome, Outbox.emptied]

/-! ## Any operation -/

/-- Nothing is taken out of a queue by those who do not read it. -/
theorem taken_of_reads?_ne {op : Op} {place : Place} (h : op.reads? ≠ some place) (room : Room) :
    taken place op (room.perform op).answer = [] := by
  have hother : ∀ {other}, some other ≠ some place → other ≠ place :=
    fun hne heq => hne (congrArg some heq)
  cases op with
  | join _ | leave _ | say _ _ _ | hangUp _ => rfl
  | receive other =>
      have hplace := hother h
      show taken place (.receive other) (.received (room.receive other).1) = []
      cases (room.receive other).1 <;> simp [taken, hplace]
  | drain other =>
      have hplace := hother h
      show taken place (.drain other) (.drained (room.drain other).1) = []
      rcases (room.drain other).1 with _ | ⟨lines, closed⟩ <;> simp [taken, hplace]

/-- Nothing is lost and nothing is made up: what an operation takes out of a queue and what it
    leaves there is what was there and what it delivered. -/
theorem taken_append_backlog {op : Op} {place : Place} (h : op ≠ .hangUp place) (room : Room) :
    taken place op (room.perform op).answer ++ (room.perform op).room.backlog place
      = room.backlog place ++ deliveredTo place (room.perform op).events := by
  cases op with
  | join name => exact room.backlog_join name place
  | leave id => exact room.backlog_leave id place
  | say id fallback text => exact room.backlog_say id fallback text place
  | receive other =>
      show _ = _ ++ []
      rw [List.append_nil]
      by_cases hplace : other = place
      · subst hplace
        exact taken_receive room other
      · rw [taken_of_reads?_ne (by simpa [Op.reads?] using hplace)]
        exact backlog_receive_of_ne hplace room
  | drain other =>
      show _ = _ ++ []
      rw [List.append_nil]
      by_cases hplace : other = place
      · subst hplace
        exact taken_drain room other
      · rw [taken_of_reads?_ne (by simpa [Op.reads?] using hplace)]
        exact backlog_drain_of_ne hplace room
  | hangUp other =>
      show _ = _ ++ []
      rw [List.append_nil]
      exact backlog_mapOutbox_of_ne (fun heq => h (congrArg Op.hangUp heq)) room _

/-- How many lines an operation makes the room hand out at most. -/
def Op.issues : Op → Nat
  | .join _ | .leave _ | .say .. => 1
  | .receive _ | .drain _ | .hangUp _ => 0

theorem length_deliveredTo_deliveries_le (room : Room) (source? : Option ParticipantId)
    (line : String) (place : Place) :
    (deliveredTo place (deliveries room.registry source? line)).length ≤ 1 := by
  rw [deliveredTo_deliveries]
  cases room.seat? place with
  | none => simp
  | some seat =>
      dsimp only
      split <;> simp

/-- Whoever joins finds a line in the queue at most, which is the announcement. -/
theorem length_backlog_join_next_le (room : Room) (name : String) :
    ((room.join name).room.backlog room.nextPlace).length ≤ 1 := by
  rw [join_room, backlog_round, backlog_enrol, backlog_of_seat?_eq_none room.seat?_nextPlace,
    List.nil_append]
  exact length_deliveredTo_deliveries_le _ none _ _

theorem length_deliveredTo_perform_le (room : Room) (op : Op) (place : Place) :
    (deliveredTo place (room.perform op).events).length ≤ op.issues := by
  cases op with
  | join name =>
      show (deliveredTo place (room.join name).events).length ≤ 1
      rw [join_events]
      exact length_deliveredTo_deliveries_le _ none _ place
  | leave id =>
      show (deliveredTo place (room.leave id).events).length ≤ 1
      cases hmember : room.member? id with
      | none =>
          rw [leave_of_not_member hmember]
          exact Nat.zero_le _
      | some member =>
          rw [leave_of_member hmember]
          exact length_deliveredTo_deliveries_le _ none _ place
  | say id fallback text =>
      show (deliveredTo place (room.say id fallback text).events).length ≤ 1
      rw [say_events]
      exact length_deliveredTo_deliveries_le room (some id) _ place
  | receive _ | drain _ | hangUp _ => exact Nat.zero_le _

/-- A queue grows by a line at most. -/
theorem length_backlog_perform_le (room : Room) (op : Op) (place : Place) :
    ((room.perform op).room.backlog place).length
      ≤ (room.backlog place).length + op.issues := by
  -- only hanging up loses lines, so everything else is bounded by what it delivers
  by_cases hop : op = .hangUp place
  · subst hop
    have hempty : ((room.mapOutbox place Outbox.dropped).backlog place) = [] := by
      cases hseat : room.seat? place with
      | none => rw [mapOutbox_eq_adjust, backlog_adjust, hseat]; rfl
      | some seat => rw [backlog_mapOutbox_self hseat]; rfl
    show ((room.mapOutbox place Outbox.dropped).backlog place).length ≤ _
    rw [hempty]
    exact Nat.zero_le _
  · have hlaw := congrArg List.length (taken_append_backlog hop room)
    have hdelivered := room.length_deliveredTo_perform_le op place
    rw [List.length_append, List.length_append] at hlaw
    omega

/-! ## Keeping a seat -/

/-- What becomes of the seat at a place when an operation is carried out. -/
structure Keeps (room : Room) (place : Place) (op : Op) (seat seat' : Seat) : Prop where
  id : seat'.id = seat.id
  name : seat'.name = seat.name
  color : seat'.color = seat.color
  registered : seat'.registered = true
    ↔ seat.registered = true ∧ room.strikes? op ≠ some seat.id
  receiving : seat'.outbox.receiving = true
    ↔ seat.outbox.receiving = true ∧ op ≠ .hangUp place

theorem Keeps.refl {room : Room} {place : Place} {op : Op} (seat : Seat)
    (hstrikes : room.strikes? op = some seat.id → seat.registered = false)
    (hhang : op ≠ .hangUp place) : Keeps room place op seat seat where
  id := rfl
  name := rfl
  color := rfl
  registered := by
    constructor
    · exact fun hreg => ⟨hreg, fun hop => by simp [hstrikes hop] at hreg⟩
    · exact fun hreg => hreg.1
  receiving := ⟨fun hrec => ⟨hrec, hhang⟩, fun hrec => hrec.1⟩

section
variable {room : Room} {place : Place} {op : Op} {seat : Seat}

/-- A line that goes round leaves the ends of every queue as they are. -/
theorem seat?_round (hseat : room.seat? place = some seat) (source? : Option ParticipantId)
    (line : String) :
    ∃ seat', (room.adjust fun _ => afterRound source? line).seat? place = some seat'
      ∧ seat'.id = seat.id ∧ seat'.name = seat.name ∧ seat'.color = seat.color
      ∧ seat'.registered = seat.registered ∧ seat'.outbox.receiving = seat.outbox.receiving := by
  refine ⟨{ seat with outbox := afterRound source? line seat }, ?_, rfl, rfl, rfl, ?_, ?_⟩
  · rw [seat?_adjust, hseat]
    rfl
  · exact afterRound_sending source? line seat
  · exact afterRound_receiving source? line seat

theorem seat?_mapOutbox_of_ne {other : Place} (hseat : room.seat? place = some seat)
    (hne : other ≠ place) (f : Outbox → Outbox) :
    (room.mapOutbox other f).seat? place = some seat := by
  rw [mapOutbox_eq_adjust, seat?_adjust, hseat, Option.map_some, if_neg hne.symm]

theorem seat?_mapOutbox_self (hseat : room.seat? place = some seat) (f : Outbox → Outbox) :
    (room.mapOutbox place f).seat? place = some { seat with outbox := f seat.outbox } := by
  rw [mapOutbox_eq_adjust, seat?_adjust, hseat, Option.map_some, if_pos rfl]

theorem exists_keeps_of_round (hseat : room.seat? place = some seat)
    (source? : Option ParticipantId) (line : String) (hstrikes : room.strikes? op = none)
    (hhang : op ≠ .hangUp place) :
    ∃ seat', (room.adjust fun _ => afterRound source? line).seat? place = some seat'
      ∧ Keeps room place op seat seat' := by
  obtain ⟨seat', hseat', hid, hname, hcolor, hreg, hrec⟩ := seat?_round hseat source? line
  exact ⟨seat', hseat', hid, hname, hcolor, by simp [hreg, hstrikes], by simp [hrec, hhang]⟩

/-- Striking a number closes the room's end of the queue that goes with it. -/
theorem exists_keeps_of_struck {room' : Room} {id : ParticipantId}
    (hseat : room.seat? place = some seat)
    (hroom' : room'.seat? place = (room.struck id).seat? place) (line : String)
    (hstrikes : room.strikes? op = some id) (hhang : op ≠ .hangUp place) :
    ∃ seat', (room'.adjust fun _ => afterRound none line).seat? place = some seat'
      ∧ Keeps room place op seat seat' := by
  rw [seat?_struck, hseat, Option.map_some] at hroom'
  obtain ⟨seat', hseat', hid, hname, hcolor, hreg, hrec⟩ := seat?_round hroom' none line
  refine ⟨seat', hseat', hid, hname, hcolor, ?_, ?_⟩
  · rw [hreg, hstrikes]
    by_cases hthis : seat.id = id
    · simp [Seat.registered, hthis, Outbox.closed]
    · have hother : ¬ id = seat.id := fun heq => hthis heq.symm
      simp [Seat.registered, hthis, hother]
  · rw [hrec]
    by_cases hthis : seat.id = id <;> simp [hthis, hhang, Outbox.closed]

theorem outbox_receive_sending (box : Outbox) : box.receive.2.sending = box.sending := by
  unfold Outbox.receive
  split
  · rfl
  · split <;> rfl

theorem outbox_receive_receiving (box : Outbox) : box.receive.2.receiving = box.receiving := by
  unfold Outbox.receive
  split
  · rfl
  · split <;> rfl

/-- Reading takes nothing but lines. -/
theorem exists_keeps_of_read {other : Place} (hseat : room.seat? place = some seat)
    (f : Outbox → Outbox) (hsending : ∀ box, (f box).sending = box.sending)
    (hreceiving : ∀ box, (f box).receiving = box.receiving) (hstrikes : room.strikes? op = none)
    (hhang : op ≠ .hangUp place) :
    ∃ seat', (room.mapOutbox other f).seat? place = some seat'
      ∧ Keeps room place op seat seat' := by
  by_cases hother : other = place
  · subst hother
    refine ⟨_, seat?_mapOutbox_self hseat f, rfl, rfl, rfl, ?_, ?_⟩
    · simp [Seat.registered, hsending, hstrikes]
    · simp [hreceiving, hhang]
  · exact ⟨seat, seat?_mapOutbox_of_ne hseat hother f, .refl seat (by simp [hstrikes]) hhang⟩

theorem seat?_leave (hseat : room.seat? place = some seat) (id : ParticipantId) :
    ∃ seat', (room.leave id).room.seat? place = some seat'
      ∧ Keeps room place (.leave id) seat seat' := by
  cases hmember : room.member? id with
  | none =>
      rw [leave_of_not_member hmember]
      refine ⟨seat, hseat, .refl seat (fun hop => ?_) nofun⟩
      exact (room.member?_eq_none_iff id).1 hmember place seat hseat (Option.some.inj hop).symm
  | some member =>
      rw [leave_room hmember]
      exact exists_keeps_of_struck hseat rfl _ rfl nofun

/-- A seat stays where it is. Striking its number alone takes it out of the registry, and only
    hanging up closes the reader's end. -/
theorem seat?_perform (op : Op) (hseat : room.seat? place = some seat) :
    ∃ seat', (room.perform op).room.seat? place = some seat' ∧ Keeps room place op seat seat' := by
  cases op with
  | join name =>
      show ∃ seat', (room.join name).room.seat? place = some seat' ∧ _
      rw [join_room]
      exact exists_keeps_of_struck hseat (by rw [seat?_enrol, if_neg (ne_nextPlace hseat)]) _ rfl
        nofun
  | leave id => exact seat?_leave hseat id
  | say id fallback text =>
      show ∃ seat', (room.say id fallback text).room.seat? place = some seat' ∧ _
      rw [say_room]
      exact exists_keeps_of_round hseat _ _ rfl nofun
  | receive other =>
      show ∃ seat', (room.receive other).2.seat? place = some seat' ∧ _
      unfold receive
      cases room.seat? other with
      | none => exact ⟨seat, hseat, .refl seat nofun nofun⟩
      | some read =>
          exact exists_keeps_of_read hseat _ outbox_receive_sending outbox_receive_receiving rfl nofun
  | drain other =>
      show ∃ seat', (room.drain other).2.seat? place = some seat' ∧ _
      unfold drain
      cases (room.seat? other).filter fun seat => seat.outbox.receiving with
      | none => exact ⟨seat, hseat, .refl seat nofun nofun⟩
      | some read => exact exists_keeps_of_read hseat _ (fun _ => rfl) (fun _ => rfl) rfl nofun
  | hangUp other =>
      show ∃ seat', (room.hangUp other).seat? place = some seat' ∧ _
      by_cases hother : other = place
      · subst hother
        refine ⟨_, seat?_mapOutbox_self hseat _, rfl, rfl, rfl, ?_, ?_⟩
        · simp [Seat.registered, Outbox.dropped, strikes?]
        · simp [Outbox.dropped]
      · exact ⟨seat, seat?_mapOutbox_of_ne hseat hother _,
          .refl seat nofun fun hop => hother (Op.hangUp.inj hop)⟩

end

end LineChat.Room
