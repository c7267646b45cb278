import LineChat.Proofs.Server.LineDiscipline
import LineChat.Proofs.Session.Hearing

set_option autoImplicit false

/-! # Who is listening when every task waits

A session whose connection holds nothing up is in one of two states when every task waits: it reads,
and has read all that there is, or it has come to its end. If it cannot write a line that it shows of
its own accord, it comes to its end. If it cannot write a line that the room has sent, it reads on:
it stays in the registry, and nobody takes out what is sent to it. -/

namespace LineChat

namespace Scene

section
variable {scene : Scene} {ticket : Ticket} {keyLoop : KeyLoop} {relay : Relay}

/-- A task that waits, and does not read the queue, holds nothing and is in line for nothing. -/
theorem Reachable.relay_of_waiting (h : scene.Reachable)
    (hwait : ∀ task, scene.session.step scene.room task = none)
    (hprompt : scene.session.screen.sink.stalled = false)
    (hstage : scene.session.stage = .seated ticket keyLoop relay) :
    relay.isOver = true ∨ relay = .waiting ∧ (scene.room.receive ticket.place).1 = .waiting := by
  have hrelay : scene.session.relayStep scene.room = none := hwait .relay
  simp only [Session.relayStep, hstage] at hrelay
  cases relay with
  | absent | finished => exact Or.inl rfl
  | waiting =>
      refine Or.inr ⟨rfl, ?_⟩
      rcases hreceive : scene.room.receive ticket.place with ⟨receipt, room⟩
      cases receipt with
      | waiting => rfl
      | line text | closed | dropped => simp [Session.fetchLine, hreceive] at hrelay
  | drawing pen =>
      exfalso
      rcases Pen.waiting_of_step (Option.map_eq_none_iff.1 hrelay) with
        ⟨draw, later, rfl⟩ | ⟨-, hstalled⟩
      · -- the key task would have to hold the terminal, and it draws nothing
        have hholds := (h.orderly _ _ _ hstage).relayWaits rfl
        rcases h.keyLoop_of_waiting hwait hprompt hstage with ⟨rfl, -⟩ | hout
        · simp [KeyLoop.holds] at hholds
        · cases keyLoop with
          | drawing _ _ | reading | leaving _ => simp [KeyLoop.isOut] at hout
          | draining _ | ended _ => simp [KeyLoop.holds] at hholds
      · simp [hprompt] at hstalled

/-- A session that has nothing to do either reads, and has read everything, or has ended. -/
theorem Reachable.reading_or_ended (h : scene.Reachable)
    (hwait : ∀ task, scene.session.step scene.room task = none)
    (hprompt : scene.session.screen.sink.stalled = false)
    (hstage : scene.session.stage = .seated ticket keyLoop relay) :
    keyLoop = .reading ∧ scene.session.reader.step = none
      ∨ ∃ outcome, keyLoop = .ended outcome := by
  rcases h.keyLoop_of_waiting hwait hprompt hstage with hreads | hout
  · exact Or.inl hreads
  · refine Or.inr ?_
    cases keyLoop with
    | drawing _ _ | reading | leaving _ => simp [KeyLoop.isOut] at hout
    | ended outcome => exact ⟨outcome, rfl⟩
    | draining outcome =>
        exfalso
        have hkeys : scene.session.keyStep scene.room = none := hwait .keys
        rcases h.relay_of_waiting hwait hprompt hstage with hover | ⟨rfl, hreceive⟩
        · simp [Session.keyStep, hstage, hover] at hkeys
        · -- whoever has left the room is told so by the queue
          obtain ⟨seat, hseat, -, hgone⟩ := h.seatedIn _ _ _ hstage
          exact (Room.present_of_receive hreceive).2 ⟨seat, hseat, hgone rfl⟩

/-- Once something has been typed that ends the session, it has ended. -/
theorem Reachable.ended_of_ending? (h : scene.Reachable)
    (hend : (scene.given.intended []).ending?.isSome = true)
    (hwait : ∀ task, scene.session.step scene.room task = none)
    (hprompt : scene.session.screen.sink.stalled = false)
    (hstage : scene.session.stage = .seated ticket keyLoop relay) :
    ∃ outcome, keyLoop = .ended outcome := by
  rcases h.reading_or_ended hwait hprompt hstage with ⟨rfl, hread⟩ | hended
  · -- a reader that waits has given all there is, and nothing of it has ended the typing
    obtain ⟨said, -, hstands⟩ := h.disciplined.seated hstage
    have hrunning : Running scene.given.intended _ _ _ said := hstands
    rw [hrunning.typing [], KeyReader.followedBy_nil, KeyReader.decoded_of_waiting hread] at hend
    simp [typed] at hend
  · exact hended

/-- A session that reads and is in the registry has a relay that reads its queue, unless that relay
    could not draw a line. -/
theorem Reachable.relay_of_reading (h : scene.Reachable)
    (hwait : ∀ task, scene.session.step scene.room task = none)
    (hprompt : scene.session.screen.sink.stalled = false)
    (hstage : scene.session.stage = .seated ticket .reading relay)
    (hin : ¬ scene.room.Gone ticket.place) :
    relay = .waiting ∧ scene.room.isRead ticket.place = true ∧ drawFaults .relay scene.events = []
      ∨ relay = .finished ∧ scene.room.isRead ticket.place = false
        ∧ drawFaults .relay scene.events ≠ [] := by
  have hhears := h.hears.seated _ _ _ hstage
  rcases h.relay_of_waiting hwait hprompt hstage with hover | ⟨rfl, -⟩
  · cases relay with
    | waiting | drawing _ => exact nomatch hover
    | absent => exact nomatch hhears.absent rfl rfl
    | finished =>
        have hfault := (hhears.finished rfl).resolve_left hin
        exact Or.inr ⟨rfl, (hhears.relayFailed hfault).2, hfault⟩
  · refine Or.inl ⟨rfl, ?_, ?_⟩
    · exact Bool.of_not_eq_false fun hdeaf => nomatch (hhears.deaf hdeaf).1
    · by_contra hfault
      exact nomatch (hhears.relayFailed hfault).1

end

end Scene

namespace World

/-- When every task waits and the connection of a session holds nothing up: if the session reads and
    is registered, its relay waits for lines with the reader's end of its queue, provided that the
    relay has drawn all that it was sent; if the relay has failed to, it is at its end, and nobody
    reads the queue any more. A session that failed to draw something of its own has ended and is
    out of the registry. -/
theorem listening_of_run {stamp : String} {picker : ColorPicker} {history : List Happening}
    {world : World} {i : Nat} {scene : Scene} {ticket : Ticket} {keyLoop : KeyLoop} {relay : Relay}
    (hrun : (start stamp picker).run history = some world) (hrest : world.server.atRest = true)
    (hscene : world.scene? i = some scene)
    (hprompt : scene.session.screen.sink.stalled = false)
    (hstage : scene.session.stage = .seated ticket keyLoop relay) :
    (keyLoop.readsOn = true → (∃ seat, ⟨ticket.place, seat⟩ ∈ scene.room.registry) →
        (drawFaults .relay scene.events = [] →
          relay = .waiting ∧ scene.room.isRead ticket.place = true)
        ∧ (drawFaults .relay scene.events ≠ [] →
          relay = .finished ∧ scene.room.isRead ticket.place = false))
      ∧ (drawFaults .keys scene.events ≠ [] →
          (∃ outcome, keyLoop = .ended outcome)
            ∧ ∀ seat, ⟨ticket.place, seat⟩ ∉ scene.room.registry) := by
  have hreach := reachable_of_run hrun hscene
  have hwait := waiting_of_atRest hrest hscene
  have hstands := hreach.reading_or_ended hwait hprompt hstage
  constructor
  · rintro hreads ⟨seat, hmem⟩
    have hin := Room.not_gone_of_mem_registry hmem
    rcases hstands with ⟨rfl, -⟩ | ⟨outcome, rfl⟩
    · rcases hreach.relay_of_reading hwait hprompt hstage hin with
        ⟨hrelay, hread, hnone⟩ | ⟨hrelay, hread, hsome⟩
      · exact ⟨fun _ => ⟨hrelay, hread⟩, fun hsome => absurd hnone hsome⟩
      · exact ⟨fun hnone => absurd hnone hsome, fun _ => ⟨hrelay, hread⟩⟩
    · exact nomatch hreads
  · intro hfault
    have hout := (hreach.hears.seated _ _ _ hstage).keysFailed hfault
    rcases hstands with ⟨rfl, -⟩ | ⟨outcome, rfl⟩
    · exact nomatch hout
    · refine ⟨⟨outcome, rfl⟩, fun seat hmem => ?_⟩
      obtain ⟨other, hother, -, hgone⟩ := hreach.seatedIn _ _ _ hstage
      exact Room.not_gone_of_mem_registry hmem ⟨other, hother, hgone rfl⟩

/-- The connection of ann fails at one write and works again. If that is the notice that bob has
    joined, she stays in the room, and nobody reads her queue any more. -/
theorem exists_run_of_deaf :
    ∃ history world scene ticket seat, (start "12:00" .plain).run history = some world
      ∧ world.server.atRest = true
      ∧ (∀ session ∈ world.server.sessions, session.screen.sink.stalled = false)
      ∧ world.scene? 0 = some scene ∧ scene.session.stage = .seated ticket .reading .finished
      ∧ ⟨ticket.place, seat⟩ ∈ scene.room.registry ∧ seat.outbox.receiving = false
      ∧ drawFaults .relay scene.events = [.ofKind .brokenPipe] := by
  let failsOnce := Manner.script ⟨false, some 0, true, none, false, false, .ofKind .brokenPipe⟩
  let stimuli : List Server.Stimulus :=
    [.connect "ann" [.shell] true [] .willing, .rescript 0 failsOnce, .room [.join "bob"]]
  let ann : Seat := ⟨⟨1⟩, "ann", ⟨""⟩, ⟨[], true, false⟩⟩
  let bob : Seat := ⟨⟨2⟩, "bob", ⟨""⟩, ⟨["[12:00] [system] bob joined the chat"], true, true⟩⟩
  have hend : ((start "12:00" .plain).reactions stimuli).bind (fun world =>
        (world.scene? 0).map fun scene =>
          (world.server.atRest, world.server.sessions.all (!·.screen.sink.stalled),
            scene.session.stage, scene.room.registry, drawFaults .relay scene.events))
      = some (true, true, .seated ⟨⟨1⟩, "ann", ⟨""⟩, ⟨0⟩⟩ .reading .finished,
          [⟨⟨0⟩, ann⟩, ⟨⟨1⟩, bob⟩], [.ofKind .brokenPipe]) := by
    decide +kernel
  obtain ⟨world, hworld, hthis⟩ := Option.bind_eq_some_iff.1 hend
  obtain ⟨scene, hscene, hparts⟩ := Option.map_eq_some_iff.1 hthis
  simp only [Prod.mk.injEq] at hparts
  obtain ⟨hrest, hprompt, hstage, hregistry, hfaults⟩ := hparts
  obtain ⟨history, hrun⟩ := exists_run_of_reactions hworld
  refine ⟨history, world, scene, _, ann, hrun, hrest, ?_, hscene, hstage, ?_, rfl, hfaults⟩
  · simpa using hprompt
  · rw [hregistry]
    exact List.mem_cons_self

/-- The connection of ann fails for good before she types a key, and she leaves the room. -/
theorem listening_of_run_of_broken :
    ∃ history world scene ticket keyLoop relay, (start "12:00" .plain).run history = some world
      ∧ world.server.atRest = true ∧ world.scene? 0 = some scene
      ∧ scene.session.stage = .seated ticket keyLoop relay
      ∧ (∃ outcome, keyLoop = .ended outcome)
      ∧ ∀ seat, ⟨ticket.place, seat⟩ ∉ scene.room.registry := by
  let broken := Manner.script ⟨false, some 0, false, none, false, false, .ofKind .brokenPipe⟩
  let stimuli : List Server.Stimulus :=
    [.connect "ann" [.shell] true [] .willing, .rescript 0 broken, .feed 0 (.data [104])]
  have hend : ((start "12:00" .plain).reactions stimuli).bind (fun world =>
        (world.scene? 0).map fun scene =>
          (world.server.atRest, scene.session.screen.sink.stalled, scene.session.stage,
            drawFaults .keys scene.events))
      = some (true, false,
          .seated ⟨⟨1⟩, "ann", ⟨""⟩, ⟨0⟩⟩ (.ended (.failed (.io (.ofKind .brokenPipe)))) .finished,
          [.ofKind .brokenPipe]) := by
    decide +kernel
  obtain ⟨world, hworld, hthis⟩ := Option.bind_eq_some_iff.1 hend
  obtain ⟨scene, hscene, hparts⟩ := Option.map_eq_some_iff.1 hthis
  simp only [Prod.mk.injEq] at hparts
  obtain ⟨hrest, hprompt, hstage, hfaults⟩ := hparts
  obtain ⟨history, hrun⟩ := exists_run_of_reactions hworld
  obtain ⟨-, hleaves⟩ := listening_of_run hrun hrest hscene hprompt hstage
  obtain ⟨hended, hout⟩ := hleaves (by simp [hfaults])
  exact ⟨history, world, scene, _, _, _, hrun, hrest, hscene, hstage, hended, hout⟩

end World

end LineChat
