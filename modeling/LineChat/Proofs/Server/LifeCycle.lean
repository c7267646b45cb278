import LineChat.Proofs.Server.World
import LineChat.Proofs.Session.Discipline
import LineChat.Proofs.Session.Seating
import LineChat.Proofs.Session.Terminal

set_option autoImplicit false

/-! # How sessions end

Whatever goes wrong with the connection of a session, and whatever the others do in the meantime, a
session that has joined and come to its end has done the same as every other: it has joined once,
has said a beginning of what was typed, has left, and has shut the connection down. The room has
announced its coming and its going, once each. Then it is at rest for good. -/

namespace LineChat

namespace Scene

/-- What has become of a session that has come to its end. -/
structure Concluded (scene : Scene) (ticket : Ticket) (outcome : Outcome) : Prop where
  joined : tickets scene.events = [ticket]
  /-- It has joined, said a beginning of what is typed, whatever may arrive later, and left. -/
  operations : ∃ said,
    operations scene.events = .join scene.given.claimed
        :: said.map (.say ticket.id ticket.name) ++ [.leave ticket.id]
      ∧ ∀ later, said
          <+: (typed [] (KeyReader.ofEvents (scene.given.input ++ later)).decoded).lines
  unregistered : scene.room.member? ticket.id = none
  joinNotices : Room.joinNotices ticket.id scene.chronicle = 1
  leaveNotices : Room.leaveNotices ticket.id scene.chronicle = 1
  /-- The notices are lines, each handed out to as many as were in the room. -/
  came : Room.Proclaims scene.chronicle (.joined scene.given.claimed ticket)
    (Line.joined ticket.name)
  went : Room.Proclaims scene.chronicle (.left ticket.id ticket.name) (Line.left ticket.name)
  shutdowns : scene.session.screen.sink.shutdowns = 1
  /-- Shutting down is the last that it has done. -/
  record : ∃ before fault?,
    scene.events = before ++ .shutDown :: (Option.map (.shutdownFailed ticket.id) fault?).toList
        ++ [.ended ticket.id outcome]
      ∧ .shutDown ∉ before
  /-- The first thing that went wrong in the key task is how it ended. -/
  outcome : outcome = .ofFaults (faults scene.events)

section
variable {scene : Scene} {ticket : Ticket} {outcome : Outcome} {relay : Relay}

theorem Reachable.tickets_of_stage (h : scene.Reachable) {keyLoop : KeyLoop}
    (hstage : scene.session.stage = .seated ticket keyLoop relay) :
    tickets scene.events = [ticket] := by
  rw [h.tickets_eq, Session.ticket?_of_stage hstage]
  rfl

/-- Whoever is out of the registry was announced on joining and on leaving. -/
theorem Reachable.notices (h : scene.Reachable) (hjoins : scene.joins < 2 ^ 64)
    (hstage : scene.session.stage = .seated ticket (.ended outcome) relay) :
    Room.joinNotices ticket.id scene.chronicle = 1
      ∧ Room.leaveNotices ticket.id scene.chronicle = 1 := by
  obtain ⟨seat, hseat, hid, hgone⟩ := h.seatedIn _ _ _ hstage
  have hplace := h.recorded.numbered.place_eq (Nat.le_of_lt hjoins) hseat
  have hannounced := h.recorded.announced hjoins ticket.id
  rw [← hid] at hannounced ⊢
  simpa only [Room.Announced, hplace, hseat, hgone rfl, Bool.false_eq_true, if_false]
    using hannounced

/-- The coming of a session is on record under the name that it has claimed. -/
theorem Reachable.joined_mem (h : scene.Reachable) {keyLoop : KeyLoop}
    (hstage : scene.session.stage = .seated ticket keyLoop relay) :
    ∃ online, .joined scene.given.claimed ticket online ∈ scene.chronicle := by
  have hticket : ticket ∈ tickets scene.events := by
    rw [h.tickets_of_stage hstage]
    exact List.mem_singleton_self _
  obtain ⟨claimed, online, hjoined⟩ := exists_joined_of_mem_tickets hticket
  -- the only name that a session joins by is the one that it has claimed
  have hop : Room.Op.join claimed ∈ LineChat.operations scene.events :=
    List.mem_filterMap.2 ⟨_, hjoined, rfl⟩
  obtain ⟨said, hcourse, -⟩ := h.disciplined.seated hstage
  obtain rfl : claimed = scene.given.claimed := by
    rw [hcourse, Ticket.course] at hop
    cases keyLoop.isOut <;> simpa using hop
  exact ⟨online, h.roomEvents_subset hjoined⟩

/-- The going of a session is on record under the name on its ticket, whoever brought it about. -/
theorem Reachable.left_mem (h : scene.Reachable) (hjoins : scene.joins < 2 ^ 64)
    (hstage : scene.session.stage = .seated ticket (.ended outcome) relay) :
    ∃ online, .left ticket.id ticket.name online ∈ scene.chronicle := by
  obtain ⟨seat, hseat, hid, -⟩ := h.seatedIn _ _ _ hstage
  have hname : ∀ name, (ticket.id, name) ∈ Room.names scene.chronicle → name = seat.name :=
    fun name hmem => h.recorded.named hjoins ticket.place seat hseat name (hid ▸ hmem)
  have hnotice : Room.leaveNotices ticket.id scene.chronicle ≠ 0 :=
    (h.notices hjoins hstage).2 ▸ Nat.one_ne_zero
  obtain ⟨name, online, hleft, hgoing⟩ := Room.exists_left_of_leaveNotices hnotice
  obtain ⟨_, hjoined⟩ := h.joined_mem hstage
  have hcoming : (ticket.id, ticket.name) ∈ Room.names scene.chronicle :=
    List.mem_filterMap.2 ⟨_, hjoined, rfl⟩
  rw [(hname name hgoing).trans (hname ticket.name hcoming).symm] at hleft
  exact ⟨online, hleft⟩

theorem Reachable.outcome_of_ended (h : scene.Reachable)
    (hstage : scene.session.stage = .seated ticket (.ended outcome) relay) :
    outcome = .ofFaults (faults scene.events) := by
  obtain ⟨said, -, hstands⟩ := h.disciplined.seated hstage
  exact hstands.elim Settled.outcome_eq Broken.outcome

/-- What was said is a beginning of what is intended, even if the session could not go on. -/
theorem Reachable.operations_of_ended (h : scene.Reachable)
    (hstage : scene.session.stage = .seated ticket (.ended outcome) relay) :
    ∃ said, LineChat.operations scene.events = ticket.course scene.given.claimed said true
      ∧ ∀ later, said <+: (scene.given.intended later).lines := by
  obtain ⟨said, hops, hstands⟩ := h.disciplined.seated hstage
  exact ⟨said, hops, hstands.said_prefix⟩

theorem Reachable.concluded (h : scene.Reachable) (hjoins : scene.joins < 2 ^ 64)
    (hstage : scene.session.stage = .seated ticket (.ended outcome) relay) :
    scene.Concluded ticket outcome where
  joined := h.tickets_of_stage hstage
  operations := h.operations_of_ended hstage
  unregistered :=
    (h.seatedIn _ _ _ hstage).member?_eq_none h.recorded.numbered (Nat.le_of_lt hjoins)
  joinNotices := (h.notices hjoins hstage).1
  leaveNotices := (h.notices hjoins hstage).2
  came := by
    obtain ⟨online, hmem⟩ := h.joined_mem hstage
    exact h.recorded.proclaimed.proclaims hmem rfl
  went := by
    obtain ⟨online, hmem⟩ := h.left_mem hjoins hstage
    exact h.recorded.proclaimed.proclaims hmem rfl
  shutdowns := (h.winding.ended _ _ _ hstage).2.2
  record := by
    obtain ⟨before, fault?, hevents, hbefore⟩ := h.closed.ended _ _ _ hstage
    exact ⟨before, fault?, hevents.trans (List.append_assoc ..).symm, hbefore⟩
  outcome := h.outcome_of_ended hstage

end

end Scene

namespace World

/-- A session that has come to its end is at rest from then on. -/
theorem rests_of_run {world world' : World} (hsound : world.Sound) {later : List Happening}
    (hrun : world.run later = some world') {i : Nat} {scene : Scene} (hreach : scene.Reachable)
    (hscene : world.scene? i = some scene) (hover : scene.session.isOver = true) :
    ∃ scene', world'.scene? i = some scene' ∧ scene.Rests scene' := by
  obtain ⟨scene', hscene', hsteps⟩ := (leads_of_run hsound hrun).steps i scene hscene
  exact ⟨scene', hscene', hreach.rests hover hsteps⟩

/-- However the connection of a session fails, and whatever the others do, a session that has joined
    and come to its end is concluded. Nothing was written since its connection was shut down, and
    nothing will be. -/
theorem concluded_of_run {stamp : String} {picker : ColorPicker} {history : List Happening}
    {world : World} {i : Nat} {scene : Scene} {ticket : Ticket} {outcome : Outcome} {relay : Relay}
    (hrun : (start stamp picker).run history = some world) (hscene : world.scene? i = some scene)
    (hjoins : scene.joins < 2 ^ 64)
    (hstage : scene.session.stage = .seated ticket (.ended outcome) relay) :
    scene.Concluded ticket outcome
      ∧ (∀ earlier later past before, history = earlier ++ later →
          (start stamp picker).run earlier = some past → past.scene? i = some before →
          before.session.screen.sink.shutdowns ≠ 0 → before.Rests scene)
      ∧ ∀ later future, world.run later = some future →
          ∃ after, future.scene? i = some after ∧ scene.Rests after := by
  have hreach := reachable_of_run hrun hscene
  refine ⟨hreach.concluded hjoins hstage, ?_, ?_⟩
  · rintro earlier later past before rfl hpast hbefore hshut
    have hreach' := reachable_of_run hpast hbefore
    -- the connection is not shut down before the end
    have hover : before.session.isOver = true := by
      rw [← Bool.not_eq_false]
      exact fun hopen => hshut (hreach'.winding.unended hopen)
    have hrest : past.run later = some world := by
      rw [run_append, hpast] at hrun
      exact hrun
    obtain ⟨scene', hscene', hrests⟩ :=
      rests_of_run (sound_of_run hpast) hrest hreach' hbefore hover
    rw [hscene] at hscene'
    exact Option.some.inj hscene' ▸ hrests
  · intro later future hlater
    have hover : scene.session.isOver = true := by rw [Session.isOver, hstage]
    exact rests_of_run (sound_of_run hrun) hlater hreach hscene hover

/-- Somebody joins over a broken connection, and is removed from the room before the session can
    leave it. -/
theorem concluded_of_run_of_removed :
    let broken := Manner.script ⟨false, some 0, false, none, true, true, .ofKind .brokenPipe⟩
    let keys := Happening.move ⟨0, .keys⟩
    ∃ world scene ticket,
      (start "12:00" .plain).run
          [.stimulus (.connect "ann" [.shell] false [.data [104, 105, 13]] broken),
            .move ⟨0, .requests⟩, keys, .stimulus (.room [.leave ⟨1⟩]), keys, keys, keys, keys]
        = some world
      ∧ world.scene? 0 = some scene
      ∧ scene.Concluded ticket (.failed (.io (.ofKind .brokenPipe))) := by
  intro broken keys
  have hend : (((start "12:00" .plain).run
        [.stimulus (.connect "ann" [.shell] false [.data [104, 105, 13]] broken),
          .move ⟨0, .requests⟩, keys, .stimulus (.room [.leave ⟨1⟩]), keys, keys, keys, keys]).bind
        (·.scene? 0)).map (fun scene => (scene.joins, scene.session.stage))
      = some (1, .seated ⟨⟨1⟩, "ann", ⟨""⟩, ⟨0⟩⟩ (.ended (.failed (.io (.ofKind .brokenPipe))))
          .absent) := by
    decide +kernel
  obtain ⟨scene, hbind, hpair⟩ := Option.map_eq_some_iff.1 hend
  obtain ⟨world, hrun, hscene⟩ := Option.bind_eq_some_iff.1 hbind
  obtain ⟨hone, hstage⟩ := Prod.mk.inj hpair
  have hjoins : scene.joins < 2 ^ 64 := by omega
  obtain ⟨hconcluded, -, -⟩ := concluded_of_run hrun hscene hjoins hstage
  exact ⟨world, scene, _, hrun, hscene, hconcluded⟩

end World

end LineChat
