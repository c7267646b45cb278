import LineChat.Proofs.Room.Backlog

set_option autoImplicit false

/-! # Who is not reached

Three kinds of queues take nothing: the queue of somebody who has left, that of the one who says
something, and the queue that is not there. A session that reads its own queue relies on all three. -/

namespace LineChat.Room

/-! ## Those who have left -/

/-- Whoever had the place has left the room. -/
def Gone (room : Room) (place : Place) : Prop :=
  ∃ seat, room.seat? place = some seat ∧ seat.registered = false

/-- Whoever is in the registry has not left. -/
theorem not_gone_of_mem_registry {room : Room} {place : Place} {seat : Seat}
    (h : ⟨place, seat⟩ ∈ room.registry) : ¬ room.Gone place := by
  obtain ⟨hseat, hreg⟩ := (room.mem_registry_iff _).1 h
  rintro ⟨other, hother, hgone⟩
  obtain rfl := Option.some.inj (hseat.symm.trans hother)
  exact nomatch hreg.symm.trans hgone

theorem Gone.deliveredTo_round {room : Room} {place : Place} (h : room.Gone place)
    (source? : Option ParticipantId) (line : String) :
    deliveredTo place (deliveries room.registry source? line) = [] := by
  obtain ⟨seat, hseat, hreg⟩ := h
  rw [deliveredTo_deliveries, hseat]
  simp [hreg]

theorem Gone.struck {room : Room} {place : Place} (h : room.Gone place) (id : ParticipantId) :
    (room.struck id).Gone place := by
  obtain ⟨seat, hseat, hreg⟩ := h
  refine ⟨_, by rw [seat?_struck, hseat, Option.map_some], ?_⟩
  show (if seat.id = id then seat.outbox.closed else seat.outbox).sending = false
  split
  · rfl
  · exact hreg

/-- Whoever has a number that is struck from the registry is gone. -/
theorem gone_struck {room : Room} {place : Place} {seat : Seat}
    (hseat : room.seat? place = some seat) : (room.struck seat.id).Gone place := by
  refine ⟨_, by rw [seat?_struck, hseat, Option.map_some], ?_⟩
  show (if seat.id = seat.id then seat.outbox.closed else seat.outbox).sending = false
  rw [if_pos rfl]
  rfl

theorem Gone.enrol {room : Room} {place : Place} (h : room.Gone place) (name : String) :
    (room.enrol name).1.Gone place := by
  obtain ⟨seat', hseat', hreg'⟩ := h.struck room.nextId
  obtain ⟨seat, hseat, -⟩ := h
  exact ⟨seat', by rw [seat?_enrol, if_neg (ne_nextPlace hseat), hseat'], hreg'⟩

/-- Whoever has left gets nothing more, and stays away. -/
theorem Gone.perform {room : Room} {place : Place} (h : room.Gone place) (op : Op) :
    deliveredTo place (room.perform op).events = [] ∧ (room.perform op).room.Gone place := by
  refine ⟨?_, ?_⟩
  · cases op with
    | join name => exact (h.enrol name).deliveredTo_round none _
    | leave id =>
        show deliveredTo place (room.leave id).events = []
        cases hmember : room.member? id with
        | none =>
            rw [leave_of_not_member hmember]
            rfl
        | some member =>
            rw [leave_of_member hmember]
            exact (h.struck id).deliveredTo_round none _
    | say id fallback text => exact h.deliveredTo_round (some id) _
    | receive _ | drain _ | hangUp _ => rfl
  · obtain ⟨seat, hseat, hreg⟩ := h
    obtain ⟨seat', hseat', hkeeps⟩ := seat?_perform op hseat
    refine ⟨seat', hseat', ?_⟩
    rw [Bool.eq_false_iff]
    intro hreg'
    have hstill := (hkeeps.registered.1 hreg').1
    simp [hreg] at hstill

/-- The notice that somebody has left does not reach the one who has. -/
theorem deliveredTo_leave_self {room : Room} {place : Place} {seat : Seat}
    (hseat : room.seat? place = some seat) :
    deliveredTo place (room.leave seat.id).events = [] := by
  cases hmember : room.member? seat.id with
  | none =>
      rw [leave_of_not_member hmember]
      rfl
  | some member =>
      rw [leave_of_member hmember]
      exact (gone_struck hseat).deliveredTo_round none _

/-- A reader who finds that it is over has taken out everything, and has left. -/
theorem gone_of_receive {room room' : Room} {place : Place} {seat : Seat} {receipt : Receipt}
    (hseat : room.seat? place = some seat) (hrec : seat.outbox.receiving = true)
    (hreceive : room.receive place = (receipt, room'))
    (hend : receipt = .closed ∨ receipt = .dropped) :
    room.backlog place = [] ∧ room.Gone place := by
  obtain rfl : seat.outbox.receive.1 = receipt := by
    rw [receive, hseat] at hreceive
    exact congrArg Prod.fst hreceive
  rw [backlog_of_seat? hseat]
  cases hqueue : seat.outbox.queue with
  | cons line rest => simp [Outbox.receive, hrec, hqueue] at hend
  | nil =>
      refine ⟨rfl, seat, hseat, ?_⟩
      cases hsending : seat.outbox.sending with
      | true => simp [Outbox.receive, hrec, hqueue, hsending] at hend
      | false => exact hsending

/-- A reader who is made to wait has taken out everything, and has not left. -/
theorem present_of_receive {room : Room} {place : Place}
    (h : (room.receive place).1 = .waiting) :
    room.backlog place = [] ∧ ¬ room.Gone place := by
  cases hseat : room.seat? place with
  | none => simp [receive, hseat] at h
  | some seat =>
      rw [receive, hseat] at h
      rw [backlog_of_seat? hseat]
      cases hread : seat.outbox.receiving with
      | false => simp [Outbox.receive, hread] at h
      | true =>
          cases hqueue : seat.outbox.queue with
          | cons line rest => simp [Outbox.receive, hread, hqueue] at h
          | nil =>
              refine ⟨rfl, ?_⟩
              rintro ⟨other, hother, hgone⟩
              obtain rfl := Option.some.inj (hseat.symm.trans hother)
              have hsending : seat.outbox.sending = false := hgone
              simp [Outbox.receive, hread, hqueue, hsending] at h

/-! ## Those who join, and those who speak -/

/-- Whoever joins is the first to be told. -/
theorem deliveredTo_join_self (room : Room) (name : String) :
    deliveredTo room.nextPlace (room.join name).events = [room.joinLine name] := by
  have hnew : (room.enrol name).1.seat? room.nextPlace = some (room.newSeat name) := by
    rw [seat?_enrol, if_pos rfl]
  show deliveredTo room.nextPlace (deliveries (room.enrol name).1.registry none _) = _
  rw [deliveredTo_deliveries, hnew]
  exact if_pos ⟨rfl, nofun, rfl, Nat.zero_lt_succ _⟩

/-- Nobody is told what they say themselves. -/
theorem deliveredTo_say_self {room : Room} {place : Place} {seat : Seat}
    (hseat : room.seat? place = some seat) (fallback text : String) :
    deliveredTo place (room.say seat.id fallback text).events = [] := by
  rw [say_events]
  show deliveredTo place (deliveries room.registry (some seat.id) _) = []
  rw [deliveredTo_deliveries, hseat]
  exact if_neg fun hto => hto.2.1 rfl

/-! ## Queues that are not there -/

theorem taken_of_seat?_eq_none {room : Room} {place : Place} (hseat : room.seat? place = none)
    (op : Op) : taken place op (room.perform op).answer = [] := by
  by_cases hreads : op.reads? = some place
  · cases op with
    | receive other =>
        obtain rfl : other = place := Option.some.inj hreads
        show taken other (.receive other) (.received (room.receive other).1) = []
        rw [receive, hseat]
        rfl
    | drain other =>
        obtain rfl : other = place := Option.some.inj hreads
        show taken other (.drain other) (.drained (room.drain other).1) = []
        rw [drain, hseat]
        rfl
    | join _ | leave _ | say _ _ _ | hangUp _ => rfl
  · exact taken_of_reads?_ne hreads room

theorem deliveredTo_of_seat?_eq_none {room : Room} {op : Op} {place : Place}
    (hseat : room.seat? place = none) (hseat' : (room.perform op).room.seat? place = none) :
    deliveredTo place (room.perform op).events = [] := by
  by_cases hop : op = .hangUp place
  · rw [hop]
    rfl
  · have htaken := taken_append_backlog hop room
    rw [taken_of_seat?_eq_none hseat, backlog_of_seat?_eq_none hseat,
      backlog_of_seat?_eq_none hseat'] at htaken
    exact htaken.symm

end LineChat.Room
