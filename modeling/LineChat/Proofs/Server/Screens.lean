import LineChat.Proofs.Server.Listening
import LineChat.Proofs.Session.Freshness

set_option autoImplicit false

/-! # What is on the screens when every task waits

When every task waits, all that was asked for is drawn, and there is nothing in the queues of those who
read them. So the terminal of whoever is in the room ends with the prompt as it should be: the status
line says how many are in the room, and below stands the line as it has been edited. Nothing is said
about how this came about, and many a coming and going may have been shown by one prompt, or have found
the queue full, or the terminal busy with an older prompt that the connection did not take. -/

namespace LineChat

/-- When every task of a session waits that is in the room and has drawn all that it wanted to, its
    terminal shows all that it has drawn, and the prompt last. -/
theorem Scene.Reachable.prompt_of_waiting {scene : Scene} {ticket : Ticket} {keyLoop : KeyLoop}
    {relay : Relay} (h : scene.Reachable)
    (hwait : ∀ task, scene.session.step scene.room task = none)
    (hprompt : scene.session.screen.sink.stalled = false)
    (hstage : scene.session.stage = .seated ticket keyLoop relay)
    (hin : ¬ scene.room.Gone ticket.place)
    (hwell : ∀ task, drawFaults task scene.events = []) :
    scene.session.screen.Renders (drawn scene.events) []
      ∧ (drawn scene.events).getLast?
        = some (.prompt (Line.online scene.room.online) scene.session.draft.text) := by
  rcases h.reading_or_ended hwait hprompt hstage with ⟨rfl, -⟩ | ⟨outcome, rfl⟩
  · obtain ⟨rfl, -⟩ | ⟨-, -, hsome⟩ := h.relay_of_reading hwait hprompt hstage hin
    · have hempty : scene.room.backlog ticket.place = [] := by
        rcases h.relay_of_waiting hwait hprompt hstage with hover | ⟨-, hreceive⟩
        · exact nomatch hover
        · exact (Room.present_of_receive hreceive).1
      -- neither pen has anything to do, so all that was asked for is drawn
      have hrenders := ((h.renders hwell).seated _ _ _ hstage).here rfl
      have hlatest := (h.fresh hwell _ _ _ hstage).latest rfl rfl hin rfl rfl hempty
      simp only [KeyLoop.pen, Relay.pen, Pen.asked, Pen.held, Pen.awaited, List.append_nil]
        at hrenders hlatest
      exact ⟨hrenders, hlatest⟩
    · exact absurd (hwell .relay) hsome
  · -- a session that has ended has left
    obtain ⟨seat, hseat, -, hgone⟩ := h.seatedIn _ _ _ hstage
    exact absurd ⟨seat, hseat, hgone rfl⟩ hin

namespace World

/-- When every task waits, whatever has joined, left and been said: the terminal of a session that is
    in the registry, over a connection that has not failed and holds nothing up, has been given a
    number of drawings whole. The last status line says how many are in the room, and what was written
    last is that status line, and then the prompt with the line as it has been edited. -/
theorem screen_of_run {stamp : String} {picker : ColorPicker} {history : List Happening}
    {world : World} {i : Nat} {scene : Scene} {ticket : Ticket} {keyLoop : KeyLoop} {relay : Relay}
    (hrun : (start stamp picker).run history = some world) (hrest : world.server.atRest = true)
    (hscene : world.scene? i = some scene)
    (hstage : scene.session.stage = .seated ticket keyLoop relay)
    (hin : ∃ seat, ⟨ticket.place, seat⟩ ∈ scene.room.registry)
    (hwell : ∀ task, drawFaults task scene.events = [])
    (hprompt : scene.session.screen.sink.stalled = false) :
    let output := scene.session.screen.sink.accepted.toList
    let pieces := Draw.ink false (drawn scene.events)
    output = (Draw.transcript false (drawn scene.events)).flatMap Utf8.encode
      ∧ (pieces.filterMap Piece.header?).getLast?
        = some ("Users online: " ++ toString scene.room.online)
      ∧ Utf8.encode ("\x1b7\x1b[s\x1b[H\x1b[2K" ++ ("Users online: " ++ toString scene.room.online)
            ++ "\x1b[u\x1b8" ++ ("\r> " ++ scene.session.draft.text ++ "\x1b[K"))
          <:+ output := by
  intro output pieces
  obtain ⟨seat, hmem⟩ := hin
  obtain ⟨hrenders, hlatest⟩ := (reachable_of_run hrun hscene).prompt_of_waiting
    (waiting_of_atRest hrest hscene) hprompt hstage (Room.not_gone_of_mem_registry hmem) hwell
  have hbytes : output = (pieces.map Piece.text).flatMap Utf8.encode :=
    hrenders.accepted.trans (Piece.flatMap_bytes pieces)
  obtain ⟨before, hpieces⟩ := Draw.ink_of_getLast? hlatest false
  refine ⟨?_, ?_, ?_⟩
  · rw [hbytes, Draw.map_text_ink]
  · rw [show pieces = _ from hpieces, List.filterMap_append]
    exact List.getLast?_concat
  · rw [hbytes, show pieces = _ from hpieces, List.map_append, List.flatMap_append, List.map_cons,
      List.map_singleton, List.flatMap_cons, List.flatMap_singleton, Piece.text_status,
      Piece.text_prompt, ← Utf8.encode_append]
    exact List.suffix_append _ _

/-- The connection of ann stops in the middle of the prompt that shows bob's coming. He fills her queue
    and eve joins, of which ann is not told. When the connection goes on, ann sees that they are
    three. -/
theorem screen_of_run_of_full_queue :
    ∃ history world scene, (start "12:00" .plain).run history = some world
      ∧ world.server.atRest = true ∧ world.scene? 0 = some scene
      ∧ .refused ⟨1⟩ .queueFull ∈ scene.chronicle
      ∧ ((Draw.ink false (drawn scene.events)).filterMap Piece.header?).getLast?
        = some "Users online: 3"
      ∧ Utf8.encode "\x1b7\x1b[s\x1b[H\x1b[2KUsers online: 3\x1b[u\x1b8\r> h\x1b[K"
          <:+ scene.session.screen.sink.accepted.toList := by
  let halting : Script :=
    { onWrite := fun call =>
        if call = 0 then .take none else if call = 1 then .take (some 20) else .stall
      onFlush := fun _ => none
      onShutdown := none
      interruptions := fun _ => 0
      resumes := by
        intro call
        repeat' split
        all_goals rfl }
  let stimuli : List Server.Stimulus :=
    [.connect "ann" [.shell] true [.data [104]] .willing, .rescript 0 halting, .room [.join "bob"],
      .room (List.replicate 16 (.say ⟨2⟩ "bob" "x") ++ [.join "eve"]), .rescript 0 .willing]
  have hend : ((start "12:00" .plain).reactions stimuli).bind (fun world =>
        (world.scene? 0).map fun scene =>
          (world.server.atRest && !scene.session.screen.sink.stalled
              && scene.chronicle.contains (.refused ⟨1⟩ .queueFull),
            [.requests, .keys, .relay].map fun task => drawFaults task scene.events,
            scene.session.stage, scene.session.draft.text, scene.room.registry.map Member.place))
      = some (true, [[], [], []], .seated ⟨⟨1⟩, "ann", ⟨""⟩, ⟨0⟩⟩ .reading .waiting, "h",
          [⟨0⟩, ⟨1⟩, ⟨2⟩]) := by
    decide +kernel
  obtain ⟨world, hworld, hthis⟩ := Option.bind_eq_some_iff.1 hend
  obtain ⟨scene, hscene, hparts⟩ := Option.map_eq_some_iff.1 hthis
  simp only [Prod.mk.injEq, Bool.and_eq_true, Bool.not_eq_true', List.contains_iff_mem,
    List.map_cons, List.map_nil, List.cons.injEq] at hparts
  obtain ⟨⟨⟨hrest, hprompt⟩, hrefused⟩, ⟨hrequests, hkeys, hrelay, -⟩, hstage, hdraft, hregistry⟩ :=
    hparts
  obtain ⟨history, hrun⟩ := exists_run_of_reactions hworld
  have honline : scene.room.online = 3 := by
    rw [Room.online, ← List.length_map Member.place, hregistry]
    rfl
  have hin : ∃ seat, ⟨⟨0⟩, seat⟩ ∈ scene.room.registry := by
    obtain ⟨⟨_, seat⟩, hmem, rfl⟩ := List.mem_map.1 (hregistry ▸ List.mem_cons_self)
    exact ⟨seat, hmem⟩
  have hwell : ∀ task, drawFaults task scene.events = [] := by
    intro task
    cases task with
    | requests => exact hrequests
    | keys => exact hkeys
    | relay => exact hrelay
  obtain ⟨-, hstatus, hlast⟩ := screen_of_run hrun hrest hscene hstage hin hwell hprompt
  have hletters : "\x1b7\x1b[s\x1b[H\x1b[2K" ++ ("Users online: " ++ toString 3) ++ "\x1b[u\x1b8"
        ++ ("\r> " ++ "h" ++ "\x1b[K")
      = "\x1b7\x1b[s\x1b[H\x1b[2KUsers online: 3\x1b[u\x1b8\r> h\x1b[K" := by
    decide +kernel
  rw [honline] at hstatus
  rw [honline, hdraft, hletters] at hlast
  exact ⟨history, world, scene, hrun, hrest, hscene, hrefused, hstatus, hlast⟩

end World

end LineChat
