import LineChat.Proofs.Room.Reach

set_option autoImplicit false

/-! # How many are online

Joining and leaving change how many are in the room, and nothing else does. Both tell everybody who
is in the room afterwards. A queue may be too full to take the notice, but then it is not empty
either: so a participant who reads an empty queue has missed no change (`online_perform`). -/

namespace LineChat.Room

theorem length_membersFrom (start : Nat) (seats : List Seat) :
    (membersFrom start seats).length = seats.countP Seat.registered := by
  induction seats generalizing start with
  | nil => rfl
  | cons seat seats ih =>
      rw [membersFrom, List.countP_cons]
      split
      · rw [List.length_cons, ih]
      · rw [ih, Nat.add_zero]

/-- Whatever leaves the room's ends of the queues alone leaves everybody in the room. -/
theorem online_adjust {room : Room} {f : Place → Seat → Outbox}
    (h : ∀ place seat, (f place seat).sending = seat.outbox.sending) :
    (room.adjust f).online = room.online := by
  have hsame : (room.adjust f).seats.map Seat.registered = room.seats.map Seat.registered := by
    refine List.ext_getElem? fun index => ?_
    rw [adjust, List.getElem?_map, List.getElem?_map, List.getElem?_mapIdx, Option.map_map]
    cases room.seats[index]? with
    | none => rfl
    | some seat => exact congrArg some (h ⟨index⟩ seat)
  have hcount : ∀ room : Room, room.online = (room.seats.map Seat.registered).countP id := by
    intro room
    rw [online, registry, length_membersFrom, List.countP_map, Function.id_comp]
  rw [hcount, hcount, hsame]

theorem online_mapOutbox {room : Room} {place : Place} {f : Outbox → Outbox}
    (h : ∀ box, (f box).sending = box.sending) : (room.mapOutbox place f).online = room.online := by
  rw [mapOutbox_eq_adjust]
  refine online_adjust fun place' seat => ?_
  split
  · exact h seat.outbox
  · rfl

/-- A notice that goes round leaves no queue empty that is read by somebody in the room. -/
theorem backlog_round_ne_nil {room : Room} {place : Place} {line : String}
    (hread : (room.adjust fun _ => afterRound none line).isRead place = true)
    (hin : ¬ (room.adjust fun _ => afterRound none line).Gone place) :
    (room.adjust fun _ => afterRound none line).backlog place ≠ [] := by
  cases hseat : room.seat? place with
  | none =>
      rw [isRead, seat?_adjust, hseat] at hread
      exact nomatch hread
  | some seat =>
      have hreg : seat.registered = true := by
        refine Bool.of_not_eq_false fun hout => hin ?_
        refine ⟨_, by rw [seat?_adjust, hseat, Option.map_some], ?_⟩
        exact (afterRound_sending none line seat).trans hout
      have hreceiving : seat.outbox.receiving = true := by
        rw [isRead, seat?_adjust, hseat] at hread
        exact (afterRound_receiving none line seat).symm.trans hread
      have hmeant : (none : Option ParticipantId) ≠ some seat.id := (Option.some_ne_none _).symm
      rw [backlog_adjust, hseat, Option.map_some, Option.getD_some, afterRound,
        if_pos ⟨hreg, hmeant⟩, Outbox.offered_queue_eq]
      by_cases haccepts : seat.outbox.Accepts
      · simp [haccepts]
      · -- a queue that is read and does not take a line is full
        intro hempty
        rw [if_neg haccepts, List.append_nil] at hempty
        exact haccepts ⟨hreceiving, by rw [hempty]; decide⟩

/-- If somebody in the room finds nothing in the queue after an operation, as many are online as
    before. -/
theorem online_perform {room : Room} {op : Op} {place : Place}
    (hread : (room.perform op).room.isRead place = true)
    (hin : ¬ (room.perform op).room.Gone place)
    (hempty : (room.perform op).room.backlog place = []) :
    (room.perform op).room.online = room.online := by
  cases op with
  | join name =>
      rw [show (room.perform (.join name)).room = (room.join name).room from rfl, join_room]
        at hread hin hempty
      exact absurd hempty (backlog_round_ne_nil hread hin)
  | leave id =>
      show (room.leave id).room.online = room.online
      cases hmember : room.member? id with
      | none => rw [leave_of_not_member hmember]
      | some member =>
          rw [show (room.perform (.leave id)).room = (room.leave id).room from rfl,
            leave_room hmember] at hread hin hempty
          exact absurd hempty (backlog_round_ne_nil hread hin)
  | say id fallback text =>
      show (room.say id fallback text).room.online = room.online
      rw [say_room]
      exact online_adjust fun _ seat => afterRound_sending _ _ seat
  | receive other =>
      show (room.receive other).2.online = room.online
      rw [receive]
      split
      · rfl
      · exact online_mapOutbox outbox_receive_sending
  | drain other =>
      show (room.drain other).2.online = room.online
      rw [drain]
      split
      · rfl
      · exact online_mapOutbox fun _ => rfl
  | hangUp other => exact online_mapOutbox fun _ => rfl

end LineChat.Room
