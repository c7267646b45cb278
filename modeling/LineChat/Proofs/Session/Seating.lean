import LineChat.Proofs.Session.Discipline

set_option autoImplicit false

/-! # The seat of a session

A session that has joined keeps its seat, whatever the others do, and once it has left the room its
seat is out of the registry for good. -/

namespace LineChat

namespace Room

/-- The participant has the seat on the ticket, which is out of the registry if the participant has
    left. -/
def Seats (room : Room) (ticket : Ticket) (out : Bool) : Prop :=
  ∃ seat, room.seat? ticket.place = some seat ∧ seat.id = ticket.id
    ∧ (out = true → seat.registered = false)

/-- As long as numbers do not start over, nobody else has the number of somebody who has left. -/
theorem Seats.member?_eq_none {room : Room} {ticket : Ticket} (h : room.Seats ticket true) {n : Nat}
    (hroom : room.Numbered n) (hn : n ≤ 2 ^ 64) : room.member? ticket.id = none := by
  obtain ⟨seat, hseat, hid, hout⟩ := h
  rw [← hid, ← Option.not_isSome_iff_eq_none, hroom.isSome_member?_iff hn hseat, hout rfl]
  exact Bool.false_ne_true

/-- Nobody gets back into the registry, and leaving takes out of it. -/
theorem Seats.perform {room : Room} {ticket : Ticket} {out : Bool} (h : room.Seats ticket out)
    (op : Op) {out' : Bool} (hout : out' = true → out = true ∨ op = .leave ticket.id) :
    (room.perform op).room.Seats ticket out' := by
  obtain ⟨seat, hseat, hid, hgone⟩ := h
  obtain ⟨seat', hseat', hkeeps⟩ := seat?_perform op hseat
  refine ⟨seat', hseat', hkeeps.id.trans hid, fun hout' => ?_⟩
  rw [Bool.eq_false_iff]
  intro hreg
  obtain ⟨hstill, hstay⟩ := hkeeps.registered.1 hreg
  rcases hout hout' with hbefore | hleave
  · simp [hgone hbefore] at hstill
  · rw [hleave, hid] at hstay
    exact hstay rfl

end Room

/-- The session has its seat. -/
def Session.SeatedIn (session : Session) (room : Room) : Prop :=
  ∀ ticket keyLoop relay, session.stage = .seated ticket keyLoop relay →
    room.Seats ticket keyLoop.isOut

theorem Session.SeatedIn.of_stage {session : Session} {room : Room} {ticket : Ticket}
    {keyLoop : KeyLoop} {relay : Relay} (hstage : session.stage = .seated ticket keyLoop relay)
    (h : room.Seats ticket keyLoop.isOut) : session.SeatedIn room :=
  forall_stage (P := fun ticket keyLoop _ => room.Seats ticket keyLoop.isOut) hstage h

theorem Session.SeatedIn.doing {session : Session} {room : Room} {task : Task} {move : Move}
    (h : session.SeatedIn room) (hdoing : session.Doing room task move) :
    move.session.SeatedIn move.room := by
  cases hdoing with
  | answered | deserted => exact h
  | turnedAway => exact fun _ _ _ hstage => nomatch hstage
  | joined =>
      obtain ⟨seat, hseat, hid, -⟩ := room.seat?_join_next session.claimed
      exact .of_stage rfl ⟨seat, hseat, hid, nofun⟩
  | keysCalled hstage | keysHeldUp hstage | keysDrew hstage | opened hstage | ready hstage
  | tookLeave hstage | readOn hstage | enteredBlank hstage | acknowledged hstage | trimmed hstage
  | appended hstage | ignored hstage | closedBlank hstage | readFailed hstage | ended hstage
  | relayCalled hstage | relayHeldUp hstage | relayReady hstage =>
      have hseats := h _ _ _ hstage
      exact .of_stage rfl hseats
  | relayDrew hstage =>
      have hseats := h _ _ _ hstage
      rw [← isOut_admitted] at hseats
      exact .of_stage rfl hseats
  | @keysFailed ticket pen aim relay screen fault hstage =>
      refine .of_stage rfl ?_
      show Room.Seats (if aim = .openRelay then room.hangUp ticket.place else room) ticket false
      split
      · exact (h _ _ _ hstage).perform (.hangUp ticket.place) nofun
      · exact h _ _ _ hstage
  | @entered ticket relay reader turn hstage hread hblank hturn
  | @closed ticket relay reader turn hstage hread hblank hturn =>
      subst hturn
      exact .of_stage rfl ((h _ _ _ hstage).perform (.say _ _ _) Or.inl)
  | left hstage => exact .of_stage rfl ((h _ _ _ hstage).perform (.leave _) fun _ => Or.inr rfl)
  | @fetched ticket keyLoop room' text hstage hreceive
  | @relayEnded ticket keyLoop room' receipt hstage hreceive =>
      refine .of_stage rfl ?_
      show room'.Seats ticket keyLoop.isOut
      rw [show room' = (room.receive ticket.place).2 from (congrArg Prod.snd hreceive).symm]
      exact (h _ _ _ hstage).perform (.receive ticket.place) Or.inl
  | relayFailed hstage =>
      have hseats := h _ _ _ hstage
      rw [← isOut_admitted] at hseats
      exact .of_stage rfl (hseats.perform (.hangUp _) Or.inl)

namespace Scene

/-- In every scene the room is on record. -/
theorem Reachable.recorded {scene : Scene} (h : scene.Reachable) :
    scene.room.Recorded scene.chronicle := by
  refine h.invariant (P := fun scene => scene.room.Recorded scene.chronicle) ?_ ?_
  · exact fun _ _ _ _ _ hroom => hroom
  · intro scene scene' _ hbefore hstep
    cases hstep with
    | @moved _ move hmove =>
        show move.room.Recorded (scene.chronicle ++ roomEvents move.events)
        cases (Session.doing_of_step hmove).touch with
        | none hroom hevents =>
            rw [hroom, hevents, List.append_nil]
            exact hbefore
        | join hroom hevents =>
            rw [hroom, hevents]
            exact hbefore.perform (.join scene.session.claimed)
        | own ticket op hroom hevents =>
            rw [hroom, hevents]
            exact hbefore.perform op
    | disturbed op _ => exact hbefore.perform op
    | clock stamp => exact hbefore.stamped stamp
    | asked _ | askedAll | fed _ | rescripted _ => exact hbefore

/-- In every scene what the session has done in the room is in the chronicle. -/
theorem Reachable.roomEvents_subset {scene : Scene} (h : scene.Reachable) :
    roomEvents scene.events ⊆ scene.chronicle := by
  refine h.invariant (P := fun scene => roomEvents scene.events ⊆ scene.chronicle) ?_ ?_
  · exact fun _ _ _ _ _ _ => List.nil_subset _
  · intro scene scene' _ hbefore hstep
    cases hstep with
    | @moved _ move hmove =>
        show roomEvents (scene.events ++ move.events) ⊆ scene.chronicle ++ roomEvents move.events
        rw [roomEvents_append]
        exact List.append_subset.2 ⟨List.subset_append_of_subset_left _ hbefore,
          List.subset_append_right _ _⟩
    | disturbed _ _ => exact List.subset_append_of_subset_left _ hbefore
    | clock _ | asked _ | askedAll | fed _ | rescripted _ => exact hbefore

/-- In every scene the session has its seat. -/
theorem Reachable.seatedIn {scene : Scene} (h : scene.Reachable) :
    scene.session.SeatedIn scene.room := by
  refine h.invariant (P := fun scene => scene.session.SeatedIn scene.room) ?_ ?_
  · exact fun _ _ _ _ _ _ _ _ _ hstage => nomatch hstage
  · intro scene scene' _ hbefore hstep
    cases hstep with
    | moved hmove => exact hbefore.doing (Session.doing_of_step hmove)
    | disturbed op _ => exact fun _ _ _ hstage => (hbefore _ _ _ hstage).perform op Or.inl
    | clock _ | asked _ | askedAll | fed _ | rescripted _ => exact hbefore

end Scene

end LineChat
