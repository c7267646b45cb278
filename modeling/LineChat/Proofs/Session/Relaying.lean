import LineChat.Proofs.Session.Hearing

set_option autoImplicit false

/-! # What a relay shows over any connection

As long as the relay can draw, what it has shown, what it is drawing and what is still queued are
together all that the queue has taken. When a drawing has failed the queue may be given up, and then
what was not shown by that time never will be (`Session.Deaf`). So a relay shows a beginning of what
its queue has taken, whatever becomes of the connection. -/

namespace LineChat

/-! ## What the key task leaves of the relay -/

/-- A move that is not made by the relay: it shows nothing of what is sent, and at most lets the relay
    have the terminal. -/
structure Move.Aside (move : Move) (ticket : Ticket) (relay : Relay) : Prop where
  stage : ∃ keyLoop' relay', move.session.stage = .seated ticket keyLoop' relay'
    ∧ (relay' = relay ∨ ∃ screen, relay' = relay.admitted screen)
  shown : shownBy .relay move.events = []

theorem Session.Doing.aside {session : Session} {room : Room} {task : Task} {move : Move}
    {ticket : Ticket} {keyLoop : KeyLoop} {relay : Relay} (h : session.Doing room task move)
    (hstage : session.stage = .seated ticket keyLoop relay)
    (hidle : task ≠ .relay ∨ relay.isOver = true) (hopens : keyLoop.opens = false) :
    move.Aside ticket relay := by
  have hthis : ∀ {ticket' keyLoop' relay'}, session.stage = .seated ticket' keyLoop' relay' →
      ticket' = ticket ∧ keyLoop' = keyLoop ∧ relay' = relay :=
    fun hstage' => Stage.seated.inj (hstage'.symm.trans hstage)
  cases h with
  | answered | deserted => exact ⟨⟨keyLoop, relay, hstage, Or.inl rfl⟩, rfl⟩
  | joined hlobby | turnedAway hlobby => exact nomatch hlobby.symm.trans hstage
  | keysCalled hstage' | keysHeldUp hstage' | ready hstage' | tookLeave hstage' | readOn hstage'
  | enteredBlank hstage' | acknowledged hstage' | trimmed hstage' | appended hstage'
  | ignored hstage' | closedBlank hstage' | readFailed hstage' =>
      obtain ⟨rfl, rfl, rfl⟩ := hthis hstage'
      exact ⟨⟨_, _, rfl, Or.inl rfl⟩, rfl⟩
  | entered hstage' | left hstage' =>
      obtain ⟨rfl, rfl, rfl⟩ := hthis hstage'
      exact ⟨⟨_, _, rfl, Or.inl rfl⟩, shownBy_map_room _ _⟩
  | closed hstage' =>
      obtain ⟨rfl, rfl, rfl⟩ := hthis hstage'
      exact ⟨⟨_, _, rfl, Or.inl rfl⟩, shownBy_map_room _ _⟩
  | ended hstage' =>
      obtain ⟨rfl, rfl, rfl⟩ := hthis hstage'
      exact ⟨⟨_, _, rfl, Or.inl rfl⟩, shownBy_closing ..⟩
  | keysDrew hstage' =>
      obtain ⟨rfl, rfl, rfl⟩ := hthis hstage'
      exact ⟨⟨_, _, rfl, Or.inr ⟨_, rfl⟩⟩, shownBy_drew_of_ne (by decide) _⟩
  | keysFailed hstage' =>
      obtain ⟨rfl, rfl, rfl⟩ := hthis hstage'
      exact ⟨⟨_, _, rfl, Or.inr ⟨_, rfl⟩⟩, rfl⟩
  | opened hstage' =>
      obtain ⟨rfl, rfl, rfl⟩ := hthis hstage'
      exact nomatch hopens
  | fetched hstage' | relayEnded hstage' | relayCalled hstage' | relayHeldUp hstage'
  | relayDrew hstage' | relayFailed hstage' | relayReady hstage' =>
      obtain ⟨rfl, rfl, rfl⟩ := hthis hstage'
      rcases hidle with htask | hover
      · exact absurd rfl htask
      · exact nomatch hover

/-! ## Nobody reads -/

/-- The reader's end of the queue has been given up, as a drawing has failed, and a beginning of what
    the queue has taken is shown. -/
structure Session.Deaf (session : Session) (room : Room) (chronicle : List Room.Event)
    (events : List Event) : Prop where
  seated : ∃ ticket keyLoop relay, session.stage = .seated ticket keyLoop relay
    ∧ room.isRead ticket.place = false ∧ relay.isOver = true
    ∧ shownBy .relay events <+: Room.deliveredTo ticket.place chronicle
  failed : ∃ task, drawFaults task events ≠ []

namespace Session

variable {session : Session} {room : Room} {task : Task} {move : Move}
variable {chronicle : List Room.Event} {events : List Event}

/-- Nobody gets the reader's end back. -/
theorem isRead_of_touch {ticket : Ticket} (htouch : session.Touch room move)
    (hticket : session.ticket? = some ticket) {seat : Seat}
    (hseat : room.seat? ticket.place = some seat) (hdeaf : room.isRead ticket.place = false) :
    move.room.isRead ticket.place = false := by
  cases htouch with
  | none hroom => rwa [hroom]
  | join _ _ hnone => exact nomatch hnone.symm.trans hticket
  | own _ op hroom =>
      rw [hroom]
      by_cases hop : op = .hangUp ticket.place
      · subst hop
        exact Room.isRead_hangUp hseat
      · rw [Room.isRead_perform hseat op hop, hdeaf]

theorem Deaf.doing (h : session.Deaf room chronicle events) (hseated : session.SeatedIn room)
    (hhears : session.Hears room events) (hdoing : session.Doing room task move) :
    move.session.Deaf move.room (chronicle ++ roomEvents move.events) (events ++ move.events) := by
  obtain ⟨⟨ticket, keyLoop, relay, hstage, hdeaf, hover, hshown⟩, faulty, hfault⟩ := h
  obtain ⟨seat, hseat, -⟩ := hseated _ _ _ hstage
  have hbefore := hhears.seated _ _ _ hstage
  have hopens : keyLoop.opens = false := by
    refine Bool.eq_false_iff.2 fun hopens => ?_
    have hrelay := (hbefore.deaf hdeaf).2 (KeyLoop.readsOn_of_opens hopens)
    exact nomatch (hbefore.opens hopens).symm.trans (hbefore.relayFailed hrelay).1
  obtain ⟨⟨keyLoop', relay', hstage', hrelay'⟩, hnone⟩ := hdoing.aside hstage (Or.inr hover) hopens
  refine ⟨⟨ticket, keyLoop', relay', hstage',
    isRead_of_touch hdoing.touch (ticket?_of_stage hstage) hseat hdeaf, ?_, ?_⟩, faulty, ?_⟩
  · rcases hrelay' with rfl | ⟨screen, rfl⟩
    · exact hover
    · cases relay with
      | absent | finished => rfl
      | waiting | drawing _ => exact nomatch hover
  · rw [shownBy_append, hnone, List.append_nil, Room.deliveredTo_append]
    exact hshown.trans (List.prefix_append _ _)
  · rw [drawFaults_append]
    exact List.append_ne_nil_of_left_ne_nil hfault _

theorem Relays.deaf_of_hangUp (h : session.Relays room chronicle events) {ticket : Ticket}
    {keyLoop : KeyLoop} {relay : Relay} (hstage : session.stage = .seated ticket keyLoop relay)
    (hroom : move.room = room.hangUp ticket.place) {keyLoop' : KeyLoop} {relay' : Relay}
    (hstage' : move.session.stage = .seated ticket keyLoop' relay') (hover : relay'.isOver = true)
    (hshown : shownBy .relay move.events = []) (hfault : ∃ task, drawFaults task move.events ≠ []) :
    move.session.Deaf move.room (chronicle ++ roomEvents move.events) (events ++ move.events) := by
  have hshows := h.seated _ _ _ hstage
  obtain ⟨seat, hseat, -⟩ := hshows.reads
  obtain ⟨task, hfault⟩ := hfault
  refine ⟨⟨ticket, keyLoop', relay', hstage', ?_, hover, ?_⟩, task, ?_⟩
  · rw [hroom]
    exact Room.isRead_hangUp hseat
  · rw [shownBy_append, hshown, List.append_nil, Room.deliveredTo_append, ← hshows.lines,
      List.append_assoc, List.append_assoc]
    exact List.prefix_append _ _
  · rw [drawFaults_append]
    exact List.append_ne_nil_of_right_ne_nil _ hfault

/-- A drawing that fails costs a session the queue, unless it has come to a relay already. -/
theorem Relays.doing_or_deaf (h : session.Relays room chronicle events)
    (hrecorded : room.Recorded chronicle) (hdoing : session.Doing room task move) :
    move.session.Relays move.room (chronicle ++ roomEvents move.events) (events ++ move.events)
      ∨ move.session.Deaf move.room (chronicle ++ roomEvents move.events)
          (events ++ move.events) := by
  by_cases hwell : ∀ task fault, .drawFailed task fault ∉ move.events
  · exact Or.inl (h.doing hrecorded hwell hdoing)
  · cases hdoing with
    | @keysFailed ticket pen aim relay screen fault hstage =>
        have hshows := h.seated _ _ _ hstage
        by_cases haim : aim = .openRelay
        · subst haim
          obtain rfl := hshows.absent.2 rfl
          exact Or.inr (h.deaf_of_hangUp hstage rfl rfl rfl rfl ⟨.keys, nofun⟩)
        · have hopens : (KeyLoop.drawing pen aim).opens = false := by
            cases aim with
            | openRelay => exact absurd rfl haim
            | readKeys | leave _ => rfl
          have hrest : ShowsSent room chronicle ticket (.leaving (aim.outcomeOnFault fault))
              (relay.admitted screen) (events ++ [.drawFailed .keys fault]) :=
            hshows.draw (relay.lines_admitted screen) rfl hopens.symm
              (relay.admitted_eq_absent screen) (relay.admitted_eq_finished screen).1
          refine Or.inl ?_
          rw [show (if aim = .openRelay then room.hangUp ticket.place else room) = room from
            if_neg haim, show chronicle ++ roomEvents [.drawFailed .keys fault] = chronicle from
            List.append_nil _]
          exact .of_stage rfl hrest
    | relayFailed hstage =>
        exact Or.inr (h.deaf_of_hangUp hstage rfl rfl rfl rfl ⟨.relay, nofun⟩)
    | joined | entered | left => exact absurd (fun _ _ => not_mem_map_room _ (by simp)) hwell
    | closed =>
        refine absurd (fun _ _ hmem => ?_) hwell
        exact not_mem_map_room _ (by simp) ((List.mem_cons.1 hmem).resolve_left nofun)
    | ended =>
        refine absurd (fun _ _ => ?_) hwell
        cases session.screen.shutdown.1 <;> simp
    | answered | deserted | turnedAway | keysCalled | keysHeldUp | keysDrew | opened | ready
    | tookLeave | readOn | enteredBlank | acknowledged | trimmed | appended | ignored | closedBlank
    | readFailed | fetched | relayEnded | relayCalled | relayHeldUp | relayDrew | relayReady =>
        exact absurd (by simp) hwell

end Session

namespace Scene

/-- In every scene a session shows what it is sent, or it has given its queue up. -/
theorem Reachable.relays_or_deaf {scene : Scene} (h : scene.Reachable) :
    scene.session.Relays scene.room scene.chronicle scene.events
      ∨ scene.session.Deaf scene.room scene.chronicle scene.events := by
  refine h.invariant (P := fun scene =>
    scene.session.Relays scene.room scene.chronicle scene.events
      ∨ scene.session.Deaf scene.room scene.chronicle scene.events) ?_ ?_
  · exact fun _ _ _ _ _ _ => Or.inl ⟨fun _ => ⟨rfl, rfl⟩, fun _ _ _ hstage => nomatch hstage⟩
  · intro scene scene' hscene hbefore hstep
    rcases hbefore with hrelays | hdeaf
    · cases hstep with
      | moved hmove =>
          exact hrelays.doing_or_deaf hscene.recorded (Session.doing_of_step hmove)
      | disturbed op hreads =>
          refine Or.inl ⟨hrelays.unseated, fun ticket _ _ hstage => ?_⟩
          have hother := hreads ticket (Session.ticket?_of_stage hstage)
          exact (hrelays.seated _ _ _ hstage).perform hother
      | clock stamp =>
          refine Or.inl ⟨hrelays.unseated, fun ticket _ _ hstage => ?_⟩
          obtain ⟨hreads, hlines, habsent, hfinished, hown⟩ := hrelays.seated _ _ _ hstage
          exact ⟨hreads, hlines, habsent, hfinished, hown⟩
      | asked _ | askedAll | fed _ | rescripted _ =>
          exact Or.inl ⟨hrelays.unseated, hrelays.seated⟩
    · refine Or.inr ?_
      cases hstep with
      | moved hmove =>
          exact hdeaf.doing hscene.seatedIn hscene.hears (Session.doing_of_step hmove)
      | disturbed op hreads =>
          obtain ⟨⟨ticket, keyLoop, relay, hstage, hread, hover, hshown⟩, hfailed⟩ := hdeaf
          obtain ⟨seat, hseat, -⟩ := hscene.seatedIn _ _ _ hstage
          have hhang : op ≠ .hangUp ticket.place := by
            rintro rfl
            exact hreads ticket (Session.ticket?_of_stage hstage) rfl
          refine ⟨⟨ticket, keyLoop, relay, hstage, ?_, hover, ?_⟩, hfailed⟩
          · exact (Room.isRead_perform hseat op hhang).trans hread
          · show _ <+: Room.deliveredTo _ (scene.chronicle ++ _)
            rw [Room.deliveredTo_append]
            exact hshown.trans (List.prefix_append _ _)
      | clock _ | asked _ | askedAll | fed _ | rescripted _ => exact ⟨hdeaf.seated, hdeaf.failed⟩

section
variable {scene : Scene} {ticket : Ticket} {keyLoop : KeyLoop} {relay : Relay}

/-- As long as somebody reads the queue, no line is lost that it has taken. -/
theorem Reachable.showsSent_of_isRead (h : scene.Reachable)
    (hstage : scene.session.stage = .seated ticket keyLoop relay)
    (hread : scene.room.isRead ticket.place = true) :
    ShowsSent scene.room scene.chronicle ticket keyLoop relay scene.events := by
  rcases h.relays_or_deaf with hrelays | ⟨⟨_, _, _, hstage', hdeaf, -⟩, -⟩
  · exact hrelays.seated _ _ _ hstage
  · obtain ⟨rfl, -⟩ := Stage.seated.inj (hstage'.symm.trans hstage)
    exact nomatch hread.symm.trans hdeaf

/-- Nor is one lost over a connection that has not failed. -/
theorem Reachable.showsSent_of_well (h : scene.Reachable)
    (hstage : scene.session.stage = .seated ticket keyLoop relay)
    (hwell : ∀ task, drawFaults task scene.events = []) :
    ShowsSent scene.room scene.chronicle ticket keyLoop relay scene.events := by
  rcases h.relays_or_deaf with hrelays | ⟨-, task, hfault⟩
  · exact hrelays.seated _ _ _ hstage
  · exact absurd (hwell task) hfault

/-- The relay never shows anything but a beginning of what the queue has taken. -/
theorem Reachable.shownBy_relay_prefix (h : scene.Reachable)
    (hstage : scene.session.stage = .seated ticket keyLoop relay) :
    shownBy .relay scene.events <+: Room.deliveredTo ticket.place scene.chronicle := by
  rcases h.relays_or_deaf with hrelays | ⟨⟨_, _, _, hstage', -, -, hshown⟩, -⟩
  · have hlines := (hrelays.seated _ _ _ hstage).lines
    rw [List.append_assoc] at hlines
    exact ⟨_, hlines⟩
  · obtain ⟨rfl, -⟩ := Stage.seated.inj (hstage'.symm.trans hstage)
    exact hshown

end

end Scene

end LineChat
