import LineChat.Proofs.Room.Registry

set_option autoImplicit false

/-! # Nobody is held up by the others

Whether a participant reads slowly, not at all, or has given up the queue, is nobody else's
business. `seenFrom` is the room as it looks from one place: the queue there as it is, and of the
other queues no more than whether the room still holds its end. Whatever is asked of the room, and
whatever is read at this place, depends on nothing else (`answer_seenFrom`, `seenFrom_perform`), and
reading anywhere else does not change it (`seenFrom_of_aside`).

So two histories that differ only in what is read elsewhere give the same account
(`account_eq_of_filter_eq`): the same answers, and as many online after each of them. -/

namespace LineChat

/-- A queue as it looks to those who do not read it. -/
def Outbox.unread (box : Outbox) : Outbox :=
  ⟨[], box.sending, true⟩

namespace Room

/-! ## The room as it looks from a place -/

/-- The queue of a seat, as it looks from a place. -/
def glimpse (place other : Place) (seat : Seat) : Outbox :=
  if other = place then seat.outbox else seat.outbox.unread

/-- The room as it looks from a place. -/
def seenFrom (place : Place) (room : Room) : Room :=
  room.adjust (glimpse place)

theorem glimpse_sending (place other : Place) (seat : Seat) :
    (glimpse place other seat).sending = seat.outbox.sending := by
  unfold glimpse
  split <;> rfl

/-- From its own place everybody sees the seat as it is. -/
theorem seat?_seenFrom (place : Place) (room : Room) :
    (room.seenFrom place).seat? place = room.seat? place := by
  rw [seenFrom, seat?_adjust]
  simp [glimpse]

theorem online_seenFrom (place : Place) (room : Room) :
    (room.seenFrom place).online = room.online := by
  rw [← length_entries, ← length_entries, seenFrom,
    entries_adjust_of_sending (glimpse_sending place)]

/-- The names are the same from every place. -/
theorem label_seenFrom (place : Place) (room : Room) (id : ParticipantId) (fallback : String) :
    (room.seenFrom place).label id fallback = room.label id fallback := by
  rw [label_eq, label_eq, listed?, seenFrom, entries_adjust_of_sending (glimpse_sending place)]
  rfl

theorem member?_seenFrom (place : Place) (room : Room) (id : ParticipantId) :
    (room.seenFrom place).member? id
      = (room.member? id).map fun member =>
          ⟨member.place, { member.seat with outbox := glimpse place member.place member.seat }⟩ := by
  have hkeep : ∀ other seat, (glimpse place other seat).sending = (seat.outbox.sending && true) :=
    fun other seat => by rw [glimpse_sending, Bool.and_true]
  rw [member?, seenFrom, registry_adjust (fun _ => true) hkeep, List.filter_true, List.find?_map]
  rfl

/-- If queues are changed, it shows as it would if there were no more of the room than can be seen,
    as long as the ends that the room holds depend on nothing but those. -/
theorem seenFrom_adjust {place : Place} {f : Place → Seat → Outbox}
    (h : ∀ other seat, other ≠ place →
      (f other { seat with outbox := seat.outbox.unread }).sending = (f other seat).sending)
    (room : Room) :
    ((room.seenFrom place).adjust f).seenFrom place = (room.adjust f).seenFrom place := by
  rw [seenFrom, seenFrom, seenFrom, adjust_adjust, adjust_adjust, adjust_adjust]
  refine adjust_congr fun other seat _ => ?_
  by_cases hplace : other = place
  · simp [glimpse, hplace]
  · simp only [glimpse, hplace, if_false, Outbox.unread]
    rw [← h other seat hplace]
    rfl

/-- Nothing more is to be seen at a second look. -/
theorem seenFrom_seenFrom (place : Place) (room : Room) :
    (room.seenFrom place).seenFrom place = room.seenFrom place := by
  have hsame : ((room.seenFrom place).adjust fun _ seat => seat.outbox).seenFrom place
      = (room.adjust fun _ seat => seat.outbox).seenFrom place :=
    seenFrom_adjust (fun _ _ _ => rfl) room
  rwa [adjust_self, adjust_self] at hsame

theorem seenFrom_round (place : Place) (room : Room) (source? : Option ParticipantId)
    (line : String) :
    ((room.seenFrom place).adjust fun _ => afterRound source? line).seenFrom place
      = (room.adjust fun _ => afterRound source? line).seenFrom place := by
  refine seenFrom_adjust (fun _ seat _ => ?_) room
  rw [afterRound_sending, afterRound_sending]
  rfl

theorem seenFrom_struck (place : Place) (room : Room) (id : ParticipantId) :
    ((room.seenFrom place).struck id).seenFrom place = (room.struck id).seenFrom place := by
  rw [struck_eq_adjust, struck_eq_adjust]
  refine seenFrom_adjust (fun _ seat _ => ?_) room
  by_cases hid : seat.id = id <;> simp [hid, Outbox.closed, Outbox.unread]

/-- What is done to the queue at the place itself. -/
theorem seenFrom_mapOutbox (place : Place) (room : Room) (f : Outbox → Outbox) :
    ((room.seenFrom place).mapOutbox place f).seenFrom place
      = (room.mapOutbox place f).seenFrom place := by
  rw [mapOutbox_eq_adjust, mapOutbox_eq_adjust]
  refine seenFrom_adjust (fun other seat hother => ?_) room
  rw [if_neg hother, if_neg hother]
  rfl

/-- What is done to another queue, but for the end that the room holds. -/
theorem seenFrom_mapOutbox_of_ne {place other : Place} (hother : other ≠ place)
    {f : Outbox → Outbox} (h : ∀ box, (f box).sending = box.sending) (room : Room) :
    (room.mapOutbox other f).seenFrom place = room.seenFrom place := by
  rw [mapOutbox_eq_adjust, seenFrom, seenFrom, adjust_adjust]
  refine adjust_congr fun third seat _ => ?_
  by_cases hthird : third = other
  · simp [glimpse, hthird, hother, Outbox.unread, h]
  · simp [hthird]

theorem enrol_seenFrom (place : Place) (room : Room) (name : String) :
    ((room.seenFrom place).enrol name).2 = (room.enrol name).2 := by
  have hlength : (room.seenFrom place).seats.length = room.seats.length := List.length_mapIdx
  show Ticket.mk _ _ _ ⟨(room.seenFrom place).seats.length⟩ = Ticket.mk _ _ _ ⟨room.seats.length⟩
  rw [hlength]
  rfl

theorem seenFrom_enrol (place : Place) (room : Room) (name : String) :
    ((room.seenFrom place).enrol name).1.seenFrom place = (room.enrol name).1.seenFrom place := by
  have hnew : (room.seenFrom place).newSeat name = room.newSeat name := by
    rw [newSeat, enrol_seenFrom, newSeat]
  have hid : (room.seenFrom place).nextId = room.nextId := rfl
  have hold := congrArg Room.seats (seenFrom_struck place room room.nextId)
  have hlength := congrArg List.length hold
  simp only [seenFrom, adjust, List.length_mapIdx] at hold hlength
  simp only [seenFrom, adjust, Room.mk.injEq] at hid hnew ⊢
  refine ⟨rfl, rfl, rfl, ?_⟩
  rw [enrol_seats, enrol_seats, hid, hnew, List.mapIdx_concat, List.mapIdx_concat, hold, hlength]

/-! ## Operations -/

/-- Whether an operation shows from a place: it does unless it reads another queue. -/
def Op.showsFrom (place : Place) (op : Op) : Bool :=
  op.reads?.all fun other => other == place

/-- Whatever shows changes what is seen by what is seen. -/
theorem seenFrom_perform {place : Place} {op : Op} (hop : op.showsFrom place = true)
    (room : Room) :
    ((room.seenFrom place).perform op).room.seenFrom place
      = (room.perform op).room.seenFrom place := by
  cases op with
  | join name =>
      show ((room.seenFrom place).join name).room.seenFrom place
        = (room.join name).room.seenFrom place
      have hline : (room.seenFrom place).joinLine name = room.joinLine name := by
        rw [joinLine, enrol_seenFrom]
        rfl
      rw [join_room, join_room, hline, ← seenFrom_round, seenFrom_enrol, seenFrom_round]
  | leave id =>
      show ((room.seenFrom place).leave id).room.seenFrom place
        = (room.leave id).room.seenFrom place
      have hmember' := room.member?_seenFrom place id
      cases hmember : room.member? id with
      | none =>
          rw [hmember, Option.map_none] at hmember'
          rw [leave_of_not_member hmember, leave_of_not_member hmember']
          exact seenFrom_seenFrom place room
      | some member =>
          rw [hmember, Option.map_some] at hmember'
          rw [leave_room hmember, leave_room hmember', ← seenFrom_round, seenFrom_struck,
            seenFrom_round]
          rfl
  | say id fallback text =>
      show ((room.seenFrom place).say id fallback text).room.seenFrom place
        = (room.say id fallback text).room.seenFrom place
      have hline : (room.seenFrom place).sayLine id fallback text
          = room.sayLine id fallback text := by
        rw [sayLine, label_seenFrom]
        rfl
      rw [say_room, say_room, hline, seenFrom_round]
  | receive other =>
      obtain rfl : other = place := by simpa [Op.showsFrom, Op.reads?] using hop
      show ((room.seenFrom other).receive other).2.seenFrom other
        = (room.receive other).2.seenFrom other
      rw [receive, receive, seat?_seenFrom]
      cases room.seat? other with
      | none => exact seenFrom_seenFrom other room
      | some seat => exact seenFrom_mapOutbox other room _
  | drain other =>
      obtain rfl : other = place := by simpa [Op.showsFrom, Op.reads?] using hop
      show ((room.seenFrom other).drain other).2.seenFrom other
        = (room.drain other).2.seenFrom other
      rw [drain, drain, seat?_seenFrom]
      cases (room.seat? other).filter fun seat => seat.outbox.receiving with
      | none => exact seenFrom_seenFrom other room
      | some seat => exact seenFrom_mapOutbox other room _
  | hangUp other =>
      obtain rfl : other = place := by simpa [Op.showsFrom, Op.reads?] using hop
      exact seenFrom_mapOutbox other room Outbox.dropped

/-- The answer is made out from what is seen. -/
theorem answer_seenFrom {place : Place} {op : Op} (hop : op.showsFrom place = true)
    (room : Room) :
    ((room.seenFrom place).perform op).answer = (room.perform op).answer := by
  cases op with
  | join name => exact congrArg Answer.joined (room.enrol_seenFrom place name)
  | leave id => rfl
  | say id fallback text =>
      show Answer.said ((room.seenFrom place).sayLine id fallback text)
        = Answer.said (room.sayLine id fallback text)
      rw [sayLine, label_seenFrom]
      rfl
  | receive other =>
      obtain rfl : other = place := by simpa [Op.showsFrom, Op.reads?] using hop
      show Answer.received ((room.seenFrom other).receive other).1
        = Answer.received (room.receive other).1
      rw [receive, receive, seat?_seenFrom]
      cases room.seat? other <;> rfl
  | drain other =>
      obtain rfl : other = place := by simpa [Op.showsFrom, Op.reads?] using hop
      show Answer.drained ((room.seenFrom other).drain other).1
        = Answer.drained (room.drain other).1
      rw [drain, drain, seat?_seenFrom]
      cases (room.seat? other).filter fun seat => seat.outbox.receiving <;> rfl
  | hangUp other =>
      obtain rfl : other = place := by simpa [Op.showsFrom, Op.reads?] using hop
      show Answer.hungUp ((room.seenFrom other).isRead other) = Answer.hungUp (room.isRead other)
      rw [isRead, isRead, seat?_seenFrom]

/-- Reading another queue, or giving it up, does not show. -/
theorem seenFrom_of_aside {place : Place} {op : Op} (hop : op.showsFrom place = false)
    (room : Room) : (room.perform op).room.seenFrom place = room.seenFrom place := by
  cases op with
  | join _ | leave _ | say _ _ _ => simp [Op.showsFrom, Op.reads?] at hop
  | receive other =>
      have hother : other ≠ place := by simpa [Op.showsFrom, Op.reads?] using hop
      show (room.receive other).2.seenFrom place = _
      rw [receive]
      cases room.seat? other with
      | none => rfl
      | some seat => exact seenFrom_mapOutbox_of_ne hother outbox_receive_sending room
  | drain other =>
      have hother : other ≠ place := by simpa [Op.showsFrom, Op.reads?] using hop
      show (room.drain other).2.seenFrom place = _
      rw [drain]
      cases (room.seat? other).filter fun seat => seat.outbox.receiving with
      | none => rfl
      | some seat => exact seenFrom_mapOutbox_of_ne hother (f := Outbox.emptied) (fun _ => rfl) room
  | hangUp other =>
      have hother : other ≠ place := by simpa [Op.showsFrom, Op.reads?] using hop
      exact seenFrom_mapOutbox_of_ne hother (f := Outbox.dropped) (fun _ => rfl) room

/-! ## Two histories -/

/-- Two rooms that look the same from a place, the time apart. -/
def Alike (place : Place) (room room' : Room) : Prop :=
  ∀ time, (room.stamped time).seenFrom place = (room'.stamped time).seenFrom place

/-- What comes back in the course of a history, as far as it shows from a place: the answers, and
    after each how many are online. -/
def account (place : Place) (room : Room) : List Deed → List (Answer × Nat)
  | [] => []
  | deed :: deeds =>
    let turn := room.doing deed
    (if deed.op.showsFrom place then [(turn.answer, turn.room.online)] else [])
      ++ account place turn.room deeds

theorem Alike.doing {place : Place} {room room' : Room} (h : Alike place room room')
    {deed : Deed} (hop : deed.op.showsFrom place = true) :
    (room.doing deed).answer = (room'.doing deed).answer
      ∧ (room.doing deed).room.online = (room'.doing deed).room.online
      ∧ Alike place (room.doing deed).room (room'.doing deed).room := by
  have hseen : (room.doing deed).room.seenFrom place = (room'.doing deed).room.seenFrom place := by
    rw [Room.doing, Room.doing, ← seenFrom_perform hop, h deed.stamp, seenFrom_perform hop]
  refine ⟨?_, ?_, fun time => congrArg (fun room => room.stamped time) hseen⟩
  · rw [Room.doing, Room.doing, ← answer_seenFrom hop, h deed.stamp, answer_seenFrom hop]
  · rw [← online_seenFrom place, hseen, online_seenFrom]

theorem Alike.doing_aside {place : Place} {room room' : Room} (h : Alike place room room')
    {deed : Deed} (hop : deed.op.showsFrom place = false) :
    Alike place (room.doing deed).room room' := by
  intro time
  have hseen : (room.doing deed).room.seenFrom place
      = (room.stamped deed.stamp).seenFrom place := seenFrom_of_aside hop _
  have hstamped := congrArg (fun room => room.stamped time) hseen
  exact hstamped.trans (h time)

/-- What does not show can as well be left out. -/
theorem account_filter {place : Place} {room room' : Room} (h : Alike place room room')
    (deeds : List Deed) :
    account place room deeds
      = account place room' (deeds.filter fun deed => deed.op.showsFrom place) := by
  induction deeds generalizing room room' with
  | nil => rfl
  | cons deed deeds ih =>
      by_cases hop : deed.op.showsFrom place = true
      · obtain ⟨hanswer, honline, hafter⟩ := h.doing hop
        rw [List.filter_cons, if_pos hop, account, account, hanswer, honline, ih hafter]
      · have hafter := h.doing_aside (Bool.eq_false_iff.2 hop)
        rw [List.filter_cons, if_neg hop, account, if_neg hop, List.nil_append, ih hafter]

/-- Two histories with the same joining, leaving and saying, and the same reading at one place, give
    that place the same account, whatever is read or given up elsewhere. -/
theorem account_eq_of_filter_eq (place : Place) (room : Room) (deeds deeds' : List Deed)
    (h : (deeds.filter fun deed => deed.op.showsFrom place)
      = deeds'.filter fun deed => deed.op.showsFrom place) :
    account place room deeds = account place room deeds' := by
  have hself : Alike place room room := fun _ => rfl
  rw [account_filter hself, h, ← account_filter hself]

/-- Once bob lets his queue fill up, and once he reads it and then gives it up: he is still counted,
    and for ann it is the same. -/
theorem account_eq_of_filter_eq_of_idle_reader :
    let opened := empty "10:00" .plain
    let joining : List Deed := [⟨"10:00", .join "ann"⟩, ⟨"10:00", .join "bob"⟩]
    let talk : List Deed := List.replicate 17 ⟨"10:01", .say ⟨3⟩ "cat" "hey"⟩
    let reading : List Deed := [⟨"10:02", .drain ⟨1⟩⟩, ⟨"10:02", .hangUp ⟨1⟩⟩]
    let ending : List Deed := [⟨"10:03", .say ⟨2⟩ "" "bye"⟩, ⟨"10:03", .drain ⟨0⟩⟩]
    let idle := joining ++ talk ++ ending
    let busy := joining ++ reading ++ talk ++ reading ++ ending
    account ⟨0⟩ opened idle = account ⟨0⟩ opened busy
      ∧ (account ⟨0⟩ opened busy).map Prod.snd = 1 :: List.replicate 20 2
      ∧ ((opened.after idle).backlog ⟨1⟩).length = 16
      ∧ (opened.after busy).isRead ⟨1⟩ = false := by
  intro opened joining talk reading ending idle busy
  have hsame : (idle.filter fun deed => deed.op.showsFrom ⟨0⟩)
      = busy.filter fun deed => deed.op.showsFrom ⟨0⟩ := rfl
  refine ⟨account_eq_of_filter_eq ⟨0⟩ opened idle busy hsame, ?_, ?_, ?_⟩ <;> decide +kernel

end Room

end LineChat
