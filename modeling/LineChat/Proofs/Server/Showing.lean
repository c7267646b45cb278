import LineChat.Proofs.Server.Rest
import LineChat.Proofs.Session.Discipline
import LineChat.Proofs.Session.Drawing

set_option autoImplicit false

/-! # What a session has shown

Two tasks draw on one terminal. The key task shows the lines of the session itself and the relay those
that the room has sent, and neither waits for the other longer than a drawing takes. So what is on
the terminal is made of the two, each in its own order, and over a connection that does not fail
nothing is missing from either when the session comes to its end. A line is shown when all of it is
written and flushed, so what is shown can be read off the bytes that the connection has taken. -/

namespace LineChat

/-! ## Two lists in one -/

/-- A list that is made of two others, each of them in its own order. -/
inductive Interleaving {α : Type} : List α → List α → List α → Prop
  | nil : Interleaving [] [] []
  | left {x : α} {xs ys zs : List α} (h : Interleaving xs ys zs) : Interleaving (x :: xs) ys (x :: zs)
  | right {y : α} {xs ys zs : List α} (h : Interleaving xs ys zs) : Interleaving xs (y :: ys) (y :: zs)

/-- What is shown is shown by one of the two tasks. -/
theorem interleaving_shown {events : List Event} (h : ∀ draw, .drew .requests draw ∉ events) :
    Interleaving (shownBy .keys events) (shownBy .relay events) (shown events) := by
  induction events with
  | nil => exact .nil
  | cons event events ih =>
      have ih := ih fun draw hmem => h draw (List.mem_cons_of_mem _ hmem)
      cases event with
      | drew task draw =>
          cases draw with
          | clear | prompt _ _ => exact ih
          | line text =>
              cases task with
              | requests => exact absurd List.mem_cons_self (h _)
              | keys => exact .left ih
              | relay => exact .right ih
      | _ => exact ih

/-! ## The session -/

/-- The task that answers requests does not draw. -/
theorem Session.Doing.requests_silent {session : Session} {room : Room} {task : Task} {move : Move}
    (h : session.Doing room task move) (draw : Draw) : .drew .requests draw ∉ move.events := by
  cases h with
  | joined | entered | left => exact not_mem_map_room _ (by simp)
  | closed =>
      intro hmem
      exact not_mem_map_room _ (by simp) ((List.mem_cons.1 hmem).resolve_left nofun)
  | ended => cases session.screen.shutdown.1 <;> simp
  | _ => simp

namespace Scene

theorem Reachable.requests_silent {scene : Scene} (h : scene.Reachable) (draw : Draw) :
    .drew .requests draw ∉ scene.events := by
  refine h.invariant (P := fun scene => .drew .requests draw ∉ scene.events) ?_ ?_
  · exact fun _ _ _ _ _ _ => List.not_mem_nil
  · intro scene scene' _ hbefore hstep
    cases hstep with
    | moved hmove =>
        have hsilent := (Session.doing_of_step hmove).requests_silent draw
        exact fun hmem => (List.mem_append.1 hmem).elim hbefore hsilent
    | disturbed _ _ | clock _ | asked _ | askedAll | fed _ | rescripted _ => exact hbefore

section
variable {scene : Scene} {ticket : Ticket} {keyLoop : KeyLoop} {relay : Relay} {outcome : Outcome}

/-- At any moment a beginning of either sequence is shown. -/
theorem Reachable.shown_prefix (h : scene.Reachable)
    (hwell : ∀ script ∈ scene.given.scripts, script.Faultless)
    (hstage : scene.session.stage = .seated ticket keyLoop relay) :
    shownBy .keys scene.events <+: ticket.ownLines scene.events
      ∧ shownBy .relay scene.events <+: Room.deliveredTo ticket.place scene.chronicle := by
  have hown := ((h.tells hwell).seated _ _ _ hstage).lines
  have hsent := ((h.relays hwell).seated _ _ _ hstage).lines
  rw [List.append_assoc] at hsent
  exact ⟨⟨_, hown⟩, ⟨_, hsent⟩⟩

/-- When the session has come to its end, everything is shown. -/
theorem Reachable.shown_eq (h : scene.Reachable)
    (hwell : ∀ script ∈ scene.given.scripts, script.Faultless)
    (hstage : scene.session.stage = .seated ticket (.ended outcome) relay) :
    shownBy .keys scene.events = ticket.ownLines scene.events
      ∧ shownBy .relay scene.events = Room.deliveredTo ticket.place scene.chronicle := by
  have hown := ((h.tells hwell).seated _ _ _ hstage).lines
  have hsent := (h.relays hwell).seated _ _ _ hstage
  have hrelay : relay = .finished := by
    have hover := (h.winding.ended _ _ _ hstage).1
    cases relay with
    | absent => exact nomatch hsent.absent.1 rfl
    | finished => rfl
    | waiting | drawing _ => exact nomatch hover
  subst hrelay
  have hempty := (hsent.finished rfl).1
  refine ⟨?_, ?_⟩
  · rwa [KeyLoop.lines, List.append_nil] at hown
  · rw [← hsent.lines, hempty, Relay.lines, List.append_nil, List.append_nil]

/-- When the session has come to its end, nothing is left of what it has drawn. -/
theorem Reachable.accepted_eq (h : scene.Reachable)
    (hwell : ∀ task, drawFaults task scene.events = [])
    (hstage : scene.session.stage = .seated ticket (.ended outcome) relay) :
    scene.session.screen.sink.accepted.toList
      = (Draw.transcript false (drawn scene.events)).flatMap Utf8.encode := by
  have hrelay : relay.pen.holds = false := by
    have hover := (h.winding.ended _ _ _ hstage).1
    cases relay with
    | absent | finished => rfl
    | waiting | drawing _ => exact nomatch hover
  have hscreen := ((h.renders hwell).seated _ _ _ hstage).here hrelay
  rw [KeyLoop.pen, Pen.held, List.append_nil, Pen.strokes] at hscreen
  rw [hscreen.accepted, Piece.flatMap_bytes, Draw.map_text_ink]

/-- The farewell is the one that is due. -/
theorem Reachable.farewells_eq (h : scene.Reachable)
    (hwell : ∀ script ∈ scene.given.scripts, script.Faultless)
    (hstage : scene.session.stage = .seated ticket (.ended outcome) relay) :
    ∃ ending, (scene.given.intended []).ending? = some ending
      ∧ farewells scene.events = ending.farewells := by
  obtain ⟨said, -, hstands⟩ := h.disciplined.seated hstage
  obtain ⟨ending, -, -, hfarewells, hintended⟩ :=
    settled_of_well (h.no_drawFailed hwell .keys) hstands
  exact ⟨ending, by rw [hintended []], hfarewells⟩

end

end Scene

namespace World

/-- Over a connection that does not fail, though it may take its time, what a session has shown is at
    any moment made of a beginning of its own lines and a beginning of the lines that its queue has
    taken; when the session has come to its end, it was made of all of them before the connection was
    shut down. The queue takes the announcement first, and of what the session itself does nothing
    else. What is shown is what the connection has taken, but for the beginning of one drawing. -/
theorem shown_of_run {stamp : String} {picker : ColorPicker} {history : List Happening}
    {world : World} {i : Nat} {scene : Scene}
    (hrun : (start stamp picker).run history = some world) (hscene : world.scene? i = some scene)
    (hwriter : ∀ script ∈ scene.given.scripts, script.Faultless) :
    scene.Written
      ∧ (tickets scene.events = [] → shown scene.events = [])
      ∧ ∀ ticket, tickets scene.events = [ticket] →
        let own := [Line.welcome ticket.name, Line.instructions] ++ saidLines scene.events
          ++ farewells scene.events
        let sent := Room.deliveredTo ticket.place scene.chronicle
        (∃ own' sent', own' <+: own ∧ sent' <+: sent
            ∧ Interleaving own' sent' (shown scene.events))
          ∧ (∃ stamp,
              Room.deliveredTo ticket.place (roomEvents scene.events)
                  = [Line.notice stamp (Line.joined ticket.name)]
                ∧ [Line.notice stamp (Line.joined ticket.name)] <+: sent)
          ∧ ∀ outcome relay, scene.session.stage = .seated ticket (.ended outcome) relay →
            (∃ ending, (typed [] (KeyReader.ofEvents scene.given.input).decoded).ending? = some ending
                ∧ farewells scene.events = ending.farewells)
              ∧ ∃ before fault?, scene.events
                    = before ++ .shutDown :: (Option.map (.shutdownFailed ticket.id) fault?).toList
                      ++ [.ended ticket.id outcome]
                  ∧ Interleaving own sent (shown before)
                  ∧ scene.session.screen.sink.accepted.toList
                    = (Draw.transcript false (drawn before)).flatMap Utf8.encode := by
  have hreach := reachable_of_run hrun hscene
  have hwell : ∀ task, drawFaults task scene.events = [] := fun task =>
    drawFaults_eq_nil_iff.2 (hreach.no_drawFailed hwriter task)
  have hmade := interleaving_shown hreach.requests_silent
  refine ⟨hreach.written hwell, ?_, ?_⟩
  · intro hnone
    have hseat : scene.session.ticket? = none := by
      rw [hreach.tickets_eq] at hnone
      exact Option.toList_eq_nil_iff.1 hnone
    rw [((hreach.tells hwriter).unseated hseat).1, ((hreach.relays hwriter).unseated hseat).1]
      at hmade
    generalize shown scene.events = lines at hmade
    cases hmade
    rfl
  · intro ticket hticket own sent
    obtain ⟨keyLoop, relay, hstage⟩ := Session.exists_stage_of_ticket? (hreach.ticket?_eq hticket)
    refine ⟨?_, ((hreach.relays hwriter).seated _ _ _ hstage).own, ?_⟩
    · obtain ⟨hown, hsent⟩ := hreach.shown_prefix hwriter hstage
      exact ⟨_, _, hown, hsent, hmade⟩
    · intro outcome relay hstage
      obtain ⟨ending, hending, hfarewells⟩ := hreach.farewells_eq hwriter hstage
      rw [Given.intended, List.append_nil] at hending
      obtain ⟨before, fault?, hevents, -⟩ := hreach.closed.ended _ _ _ hstage
      have hbefore : shown scene.events = shown before := by
        rw [hevents, shown_append, shown_closing, List.append_nil]
      have hdrawn : drawn scene.events = drawn before := by
        rw [hevents, drawn_append, drawn_closing, List.append_nil]
      obtain ⟨hown, hsent⟩ := hreach.shown_eq hwriter hstage
      rw [hown, hsent, hbefore] at hmade
      exact ⟨⟨ending, hending, hfarewells⟩, before, fault?, hevents.trans (List.append_assoc ..).symm,
        hmade, hdrawn ▸ hreach.accepted_eq hwell hstage⟩

/-- Somebody says a line and interrupts, over a connection that takes three bytes at a time. -/
theorem shown_of_run_of_chat :
    let connect := Server.Stimulus.connect "ann" [.shell] false [.data [104, 13, 3]]
      (Manner.script ⟨false, none, false, some 3, false, true, .ofKind .brokenPipe⟩)
    ∃ history world scene before,
      (start "12:00" .plain).run (.stimulus connect :: history) = some world
      ∧ world.scene? 0 = some scene ∧ scene.Written ∧ before <+: scene.events
      ∧ Interleaving [Line.welcome "ann", Line.instructions, "[12:00] ann: h", "^C"]
          ["[12:00] [system] ann joined the chat"] (shown before) := by
  intro connect
  let world : World := ⟨(start "12:00" .plain).server.receive connect,
    (start "12:00" .plain).givenAfter connect⟩
  obtain ⟨refs, hrefs⟩ := world.run_settled
  have hrun : (start "12:00" .plain).run (.stimulus connect :: refs.map .move) = some world.settled :=
    hrefs
  have hend : (world.settled.scene? 0).map
        (fun scene => (tickets scene.events, scene.session.stage))
      = some ([⟨⟨1⟩, "ann", ⟨""⟩, ⟨0⟩⟩],
          .seated ⟨⟨1⟩, "ann", ⟨""⟩, ⟨0⟩⟩ (.ended .well) .finished) := by
    decide +kernel
  have hlines : (world.settled.scene? 0).map
        (fun scene => (saidLines scene.events, farewells scene.events,
          Room.deliveredTo ⟨0⟩ scene.chronicle))
      = some (["[12:00] ann: h"], ["^C"], ["[12:00] [system] ann joined the chat"]) := by
    decide +kernel
  obtain ⟨scene, hscene, hthis⟩ := Option.map_eq_some_iff.1 hend
  rw [hscene, Option.map_some, Option.some.injEq, Prod.mk.injEq, Prod.mk.injEq] at hlines
  obtain ⟨hsaid, hfarewells, hsent⟩ := hlines
  simp only [Prod.mk.injEq] at hthis
  obtain ⟨hticket, hstage⟩ := hthis
  have hwriter : ∀ script ∈ scene.given.scripts, script.Faultless := by
    intro script hmem
    have hgiven := ((world.settled.scene?_eq_some_iff 0 scene).1 hscene).1
    rw [← Option.some.inj hgiven] at hmem
    obtain rfl := List.mem_singleton.1 hmem
    exact ⟨fun _ _ => nofun, fun _ => nofun, fun _ => rfl⟩
  obtain ⟨hwritten, -, hshown⟩ := shown_of_run hrun hscene hwriter
  obtain ⟨-, -, hwhole⟩ := hshown _ hticket
  obtain ⟨-, before, fault?, hevents, hmade, -⟩ := hwhole _ _ hstage
  rw [hsaid, hfarewells, hsent] at hmade
  refine ⟨_, _, scene, before, hrun, hscene, hwritten, ?_, hmade⟩
  rw [hevents, List.append_assoc]
  exact List.prefix_append _ _

end World

end LineChat
