import LineChat.Proofs.Session.SentLines

set_option autoImplicit false

/-! # Who reads the queue of a session

The relay of a session holds the reader's end of its queue from the moment when the screen has been
cleared until the session is out of the room. Only a drawing that fails comes in between. If it is
one of the key task, the session leaves. If it is one of the relay, the relay gives the queue up and
comes to its end, and the key task goes on as if nothing had happened: the session stays in the room
and hears nothing more. -/

namespace LineChat

/-! ## Drawings that have failed -/

/-- The fault by which a drawing of a task has failed. -/
def Event.drawFault? (task : Task) : Event → Option IoFault
  | .drawFailed task' fault => if task' = task then some fault else none
  | _ => none

/-- The faults by which drawings of a task have failed, in order. -/
def drawFaults (task : Task) (events : List Event) : List IoFault :=
  events.filterMap (Event.drawFault? task)

theorem drawFaults_eq_nil_iff {task : Task} {events : List Event} :
    drawFaults task events = [] ↔ ∀ fault, .drawFailed task fault ∉ events := by
  constructor
  · intro hnone fault hmem
    exact nomatch (List.filterMap_eq_nil_iff.1 hnone _ hmem).symm.trans (if_pos rfl)
  · refine fun hnone => List.filterMap_eq_nil_iff.2 fun event hmem => ?_
    cases event with
    | drawFailed task' fault =>
        refine if_neg ?_
        rintro rfl
        exact hnone fault hmem
    | room | replied | requestsEnded | turnedAway | drew | acknowledged | inputClosed | readFailed
    | relayStopped | relayFinished | shutDown | shutdownFailed | ended => rfl

@[simp] theorem drawFaults_append (task : Task) (events events' : List Event) :
    drawFaults task (events ++ events') = drawFaults task events ++ drawFaults task events' :=
  List.filterMap_append

@[simp] theorem drawFaults_map_room (task : Task) (events : List Room.Event) :
    drawFaults task (events.map .room) = [] := by
  simp [drawFaults, List.filterMap_map, Function.comp_def, Event.drawFault?]

@[simp] theorem drawFaults_closing (task : Task) (ticket : Ticket) (outcome : Outcome)
    (fault? : Option IoFault) : drawFaults task (ticket.closing outcome fault?) = [] := by
  cases fault? <;> rfl

/-! ## The reader's end -/

namespace Room

theorem isRead_of_seat? {room : Room} {place : Place} {seat : Seat}
    (hseat : room.seat? place = some seat) : room.isRead place = seat.outbox.receiving := by
  rw [isRead, hseat]

/-- Nobody but the reader gives up the reader's end of a queue. -/
theorem isRead_perform {room : Room} {place : Place} {seat : Seat}
    (hseat : room.seat? place = some seat) (op : Op) (hop : op ≠ .hangUp place) :
    (room.perform op).room.isRead place = room.isRead place := by
  obtain ⟨seat', hseat', hkeeps⟩ := seat?_perform op hseat
  rw [isRead_of_seat? hseat, isRead_of_seat? hseat', Bool.eq_iff_iff, hkeeps.receiving]
  simp [hop]

theorem isRead_hangUp {room : Room} {place : Place} {seat : Seat}
    (hseat : room.seat? place = some seat) : (room.hangUp place).isRead place = false := by
  rw [hangUp, isRead_of_seat? (seat?_mapOutbox_self hseat Outbox.dropped)]
  rfl

/-- A reader who has its end, and is told that nothing will come, has left. -/
theorem gone_of_isRead {room room' : Room} {place : Place} {seat : Seat} {receipt : Receipt}
    (hseat : room.seat? place = some seat) (hread : room.isRead place = true)
    (hreceive : room.receive place = (receipt, room'))
    (hend : receipt = .closed ∨ receipt = .dropped) : room'.Gone place := by
  have hgone := (gone_of_receive hseat (isRead_of_seat? hseat ▸ hread) hreceive hend).2
  rw [show room' = (room.perform (.receive place)).room from (congrArg Prod.snd hreceive).symm]
  exact (hgone.perform (.receive place)).2

end Room

/-! ## Hearing -/

theorem KeyLoop.readsOn_of_opens {keyLoop : KeyLoop} (h : keyLoop.opens = true) :
    keyLoop.readsOn = true := by
  cases keyLoop with
  | drawing pen aim => cases aim <;> first | rfl | exact nomatch h
  | reading | leaving _ | draining _ | ended _ => exact nomatch h

/-- Who reads the queue of a session that has a seat. -/
structure Hears (room : Room) (ticket : Ticket) (keyLoop : KeyLoop) (relay : Relay)
    (events : List Event) : Prop where
  opens : keyLoop.opens = true → relay = .absent
  absent : relay = .absent → keyLoop.readsOn = true → keyLoop.opens = true
  /-- The queue is given up by a session that is leaving, or by its relay. -/
  deaf : room.isRead ticket.place = false →
    relay.isOver = true ∧ (keyLoop.readsOn = true → drawFaults .relay events ≠ [])
  finished : relay = .finished → room.Gone ticket.place ∨ drawFaults .relay events ≠ []
  relayFailed : drawFaults .relay events ≠ [] →
    relay = .finished ∧ room.isRead ticket.place = false
  keysFailed : drawFaults .keys events ≠ [] → keyLoop.readsOn = false

namespace Hears

variable {room : Room} {ticket : Ticket} {keyLoop keyLoop' : KeyLoop} {relay relay' : Relay}
variable {events news : List Event} {seat : Seat}

/-- What the others do, and what the session itself does in the room, leaves the queue to its
    reader. -/
theorem perform (h : Hears room ticket keyLoop relay events)
    (hseat : room.seat? ticket.place = some seat) (op : Room.Op)
    (hop : op ≠ .hangUp ticket.place) :
    Hears (room.perform op).room ticket keyLoop relay events where
  opens := h.opens
  absent := h.absent
  deaf := by
    rw [Room.isRead_perform hseat op hop]
    exact h.deaf
  finished := fun hfinished => (h.finished hfinished).imp (fun hgone => (hgone.perform op).2) id
  relayFailed := by
    rw [Room.isRead_perform hseat op hop]
    exact h.relayFailed
  keysFailed := h.keysFailed

/-- A move by which nothing fails, no relay is started and none comes to its end. -/
theorem quiet (h : Hears room ticket keyLoop relay events)
    (hwell : ∀ task, drawFaults task news = [])
    (hkeys : keyLoop'.readsOn = true →
      keyLoop.readsOn = true ∧ keyLoop'.opens = keyLoop.opens)
    (habsent : relay' = .absent ↔ relay = .absent)
    (hfinished : relay' = .finished ↔ relay = .finished) :
    Hears room ticket keyLoop' relay' (events ++ news) := by
  have hsame : ∀ task, drawFaults task (events ++ news) = drawFaults task events := by
    intro task
    rw [drawFaults_append, hwell, List.append_nil]
  have hover : relay.isOver = true → relay'.isOver = true := by
    intro hover
    cases relay with
    | absent => rw [habsent.2 rfl, Relay.isOver]
    | finished => rw [hfinished.2 rfl, Relay.isOver]
    | waiting | drawing _ => exact nomatch hover
  refine ⟨fun hopens => ?_, fun hnone hreads => ?_, fun hdeaf => ?_, fun hend => ?_,
    fun hfault => ?_, fun hfault => ?_⟩
  · exact habsent.2 (h.opens ((hkeys (KeyLoop.readsOn_of_opens hopens)).2 ▸ hopens))
  · obtain ⟨hbefore, hopens⟩ := hkeys hreads
    exact hopens.trans (h.absent (habsent.1 hnone) hbefore)
  · obtain ⟨hthis, hfault⟩ := h.deaf hdeaf
    exact ⟨hover hthis, fun hreads => hsame .relay ▸ hfault (hkeys hreads).1⟩
  · exact hsame .relay ▸ h.finished (hfinished.1 hend)
  · obtain ⟨hend, hdeaf⟩ := h.relayFailed (hsame .relay ▸ hfault)
    exact ⟨hfinished.2 hend, hdeaf⟩
  · have hout := h.keysFailed (hsame .keys ▸ hfault)
    exact Bool.eq_false_iff.2 fun hreads => by simp [(hkeys hreads).1] at hout

/-- The key task goes on by itself. -/
theorem keys (h : Hears room ticket keyLoop relay events)
    (hwell : ∀ task, drawFaults task news = [])
    (hkeys : keyLoop'.readsOn = true →
      keyLoop.readsOn = true ∧ keyLoop'.opens = keyLoop.opens) :
    Hears room ticket keyLoop' relay (events ++ news) :=
  h.quiet hwell hkeys Iff.rfl Iff.rfl

/-- The relay goes on by itself. -/
theorem relays (h : Hears room ticket keyLoop relay events)
    (hwell : ∀ task, drawFaults task news = []) (habsent : relay' = .absent ↔ relay = .absent)
    (hfinished : relay' = .finished ↔ relay = .finished) :
    Hears room ticket keyLoop relay' (events ++ news) :=
  h.quiet hwell (fun hreads => ⟨hreads, rfl⟩) habsent hfinished

/-- A task that cannot draw leaves. If it has not started the relay, it gives the queue up. -/
theorem breaks (h : Hears room ticket keyLoop relay events)
    (hseat : room.seat? ticket.place = some seat) {room' : Room} {screen : Screen} {fault : IoFault}
    {outcome : Outcome}
    (hroom' : room' = room ∨ room' = room.hangUp ticket.place ∧ keyLoop.opens = true) :
    Hears room' ticket (.leaving outcome) (relay.admitted screen)
      (events ++ [.drawFailed .keys fault]) := by
  have hrelay : drawFaults .relay (events ++ [.drawFailed .keys fault]) = drawFaults .relay events := by
    rw [drawFaults_append]
    exact List.append_nil _
  have hover : relay.isOver = true → (relay.admitted screen).isOver = true := by
    cases relay <;> exact id
  refine ⟨nofun, nofun, fun hdeaf => ⟨hover ?_, nofun⟩, fun hend => ?_, fun hfault => ?_,
    fun _ => rfl⟩
  · rcases hroom' with rfl | ⟨rfl, hopens⟩
    · exact (h.deaf hdeaf).1
    · rw [h.opens hopens]
      rfl
  · rw [hrelay]
    refine (h.finished ((Relay.admitted_eq_finished screen relay).1 hend)).imp (fun hgone => ?_) id
    rcases hroom' with rfl | ⟨rfl, -⟩
    · exact hgone
    · exact (hgone.perform (.hangUp ticket.place)).2
  · rw [hrelay] at hfault
    obtain ⟨hend, hdeaf⟩ := h.relayFailed hfault
    refine ⟨(Relay.admitted_eq_finished screen relay).2 hend, ?_⟩
    rcases hroom' with rfl | ⟨rfl, -⟩
    · exact hdeaf
    · exact Room.isRead_hangUp hseat

/-- A relay that cannot draw gives the queue up, whatever the key task is at. -/
theorem stop {pen : Pen} (h : Hears room ticket keyLoop (.drawing pen) events)
    (hseat : room.seat? ticket.place = some seat) (screen : Screen) {fault : IoFault}
    (hfault : drawFaults .relay news = [fault]) (hwell : drawFaults .keys news = []) :
    Hears (room.hangUp ticket.place) ticket (keyLoop.admitted screen) .finished (events ++ news) := by
  have hsome : drawFaults .relay (events ++ news) ≠ [] := by
    rw [drawFaults_append, hfault]
    exact List.append_ne_nil_of_right_ne_nil _ (List.cons_ne_nil _ _)
  refine ⟨fun hopens => ?_, nofun, fun _ => ⟨rfl, fun _ => hsome⟩, fun _ => Or.inr hsome,
    fun _ => ⟨rfl, Room.isRead_hangUp hseat⟩, fun hkeys => ?_⟩
  · rw [KeyLoop.opens_admitted] at hopens
    exact nomatch h.opens hopens
  · rw [drawFaults_append, hwell, List.append_nil] at hkeys
    rw [KeyLoop.readsOn_admitted]
    exact h.keysFailed hkeys

/-- The relay comes to its end when the session is out of the room, and not before. -/
theorem finish (h : Hears room ticket keyLoop .waiting events)
    (hseat : room.seat? ticket.place = some seat) {room' : Room} {receipt : Receipt}
    (hreceive : room.receive ticket.place = (receipt, room'))
    (hreceipt : receipt = .closed ∨ receipt = .dropped)
    (hwell : ∀ task, drawFaults task news = []) :
    Hears room' ticket keyLoop .finished (events ++ news) := by
  have hsame : ∀ task, drawFaults task (events ++ news) = drawFaults task events := by
    intro task
    rw [drawFaults_append, hwell, List.append_nil]
  -- as long as the relay goes on, the queue is read
  have hread : room.isRead ticket.place = true :=
    Bool.of_not_eq_false fun hdeaf => nomatch (h.deaf hdeaf).1
  have hread' : room'.isRead ticket.place = true := by
    rw [show room' = (room.perform (.receive ticket.place)).room from
      (congrArg Prod.snd hreceive).symm, Room.isRead_perform hseat (.receive ticket.place) nofun, hread]
  refine ⟨fun hopens => (nomatch h.opens hopens), nofun, fun hdeaf => ?_, fun _ => ?_,
    fun hfault => ?_, fun hfault => ?_⟩
  · exact absurd (hread'.symm.trans hdeaf) nofun
  · exact Or.inl (Room.gone_of_isRead hseat hread hreceive hreceipt)
  · exact nomatch (h.relayFailed (hsame .relay ▸ hfault)).1
  · exact h.keysFailed (hsame .keys ▸ hfault)

end Hears

/-! ## Moves -/

/-- The relay of a session reads its queue as it should; without a seat nothing has failed. -/
structure Session.Hears (session : Session) (room : Room) (events : List Event) : Prop where
  unseated : session.ticket? = none → ∀ task, drawFaults task events = []
  seated : ∀ ticket keyLoop relay, session.stage = .seated ticket keyLoop relay →
    LineChat.Hears room ticket keyLoop relay events

namespace Session

theorem Hears.of_stage {session : Session} {room : Room} {events : List Event} {ticket : Ticket}
    {keyLoop : KeyLoop} {relay : Relay} (hstage : session.stage = .seated ticket keyLoop relay)
    (h : LineChat.Hears room ticket keyLoop relay events) : session.Hears room events where
  unseated := fun hnone => by simp [ticket?_of_stage hstage] at hnone
  seated := forall_stage
    (P := fun ticket keyLoop relay => LineChat.Hears room ticket keyLoop relay events) hstage h

/-- Events that have nothing to do with drawing change nothing. -/
theorem Hears.silent {session : Session} {room : Room} {events news : List Event}
    (h : session.Hears room events) (hwell : ∀ task, drawFaults task news = []) :
    session.Hears room (events ++ news) where
  unseated := by
    intro hnone task
    rw [drawFaults_append, h.unseated hnone, hwell, List.append_nil]
  seated := fun _ _ _ hstage => (h.seated _ _ _ hstage).keys hwell fun hreads => ⟨hreads, rfl⟩

theorem Hears.doing {session : Session} {room : Room} {task : Task} {move : Move}
    {events : List Event} (h : session.Hears room events) (hseated : session.SeatedIn room)
    (hdoing : session.Doing room task move) :
    move.session.Hears move.room (events ++ move.events) := by
  cases hdoing with
  | @answered kind =>
      have hsilent : session.Hears room (events ++ [.replied kind kind.granted]) :=
        h.silent fun _ => rfl
      exact ⟨hsilent.unseated, hsilent.seated⟩
  | deserted =>
      have hsilent : session.Hears room (events ++ [.requestsEnded]) := h.silent fun _ => rfl
      exact ⟨hsilent.unseated, hsilent.seated⟩
  | turnedAway hstage =>
      have hsilent : session.Hears room (events ++ [.turnedAway session.claimed]) :=
        h.silent fun _ => rfl
      exact ⟨fun _ => hsilent.unseated (ticket?_of_lobby hstage), fun _ _ _ hstage' => nomatch hstage'⟩
  | joined hstage =>
      have hnone : ∀ task, drawFaults task (events ++ (room.join session.claimed).events.map .room)
          = [] := by
        intro task
        rw [drawFaults_append, h.unseated (ticket?_of_lobby hstage), drawFaults_map_room]
        rfl
      obtain ⟨seat, hseat, -, -, -, hread⟩ := room.seat?_join_next session.claimed
      refine .of_stage rfl ⟨fun _ => rfl, fun _ _ => rfl, fun hdeaf => ?_, nofun, fun hfault => ?_,
        fun hfault => ?_⟩
      · have hopen : (room.join session.claimed).room.isRead room.nextPlace = true := by
          rw [Room.isRead_of_seat? hseat]
          exact hread
        exact absurd (hopen.symm.trans hdeaf) nofun
      · exact absurd (hnone .relay) hfault
      · exact absurd (hnone .keys) hfault
  | @keysCalled ticket pen pen' aim relay hstage hpen =>
      exact .of_stage rfl ((h.seated _ _ _ hstage).keys (fun _ => rfl) fun hreads =>
        ⟨KeyLoop.readsOn_drawing pen pen' aim ▸ hreads, KeyLoop.opens_drawing pen pen' aim⟩)
  | @keysHeldUp ticket pen pen' aim relay screen hstage hpen =>
      exact .of_stage rfl ((h.seated _ _ _ hstage).keys (fun _ => rfl) fun hreads =>
        ⟨KeyLoop.readsOn_drawing pen pen' aim ▸ hreads, KeyLoop.opens_drawing pen pen' aim⟩)
  | @keysDrew ticket pen pen' aim relay screen draw hstage hpen =>
      exact .of_stage rfl ((h.seated _ _ _ hstage).quiet (fun _ => rfl) (fun hreads =>
        ⟨KeyLoop.readsOn_drawing pen pen' aim ▸ hreads, KeyLoop.opens_drawing pen pen' aim⟩)
        (Relay.admitted_eq_absent screen relay) (Relay.admitted_eq_finished screen relay))
  | @keysFailed ticket pen aim relay screen fault hstage hpen =>
      obtain ⟨seat, hseat, -⟩ := hseated _ _ _ hstage
      refine .of_stage rfl ((h.seated _ _ _ hstage).breaks hseat ?_)
      by_cases hopen : aim = .openRelay
      · exact Or.inr ⟨if_pos hopen, by rw [hopen]; rfl⟩
      · exact Or.inl (if_neg hopen)
  | opened hstage =>
      have hbefore := h.seated _ _ _ hstage
      obtain rfl := hbefore.opens rfl
      have hwell : drawFaults .relay events = [] := by
        by_contra hfault
        exact nomatch (hbefore.relayFailed hfault).1
      refine .of_stage rfl ⟨nofun, nofun, fun hdeaf => ?_, nofun, fun hfault => ?_, fun hfault => ?_⟩
      · exact absurd hwell ((hbefore.deaf hdeaf).2 rfl)
      · exact absurd (by rw [List.append_nil, hwell]) hfault
      · rw [List.append_nil] at hfault
        exact nomatch hbefore.keysFailed hfault
  | ready hstage | readOn hstage | enteredBlank hstage | trimmed hstage | appended hstage
  | ignored hstage =>
      exact .of_stage rfl ((h.seated _ _ _ hstage).keys (fun _ => rfl) fun _ => ⟨rfl, rfl⟩)
  | tookLeave hstage | acknowledged hstage | closedBlank hstage | readFailed hstage =>
      exact .of_stage rfl ((h.seated _ _ _ hstage).keys (fun _ => rfl) nofun)
  | ended hstage =>
      exact .of_stage rfl ((h.seated _ _ _ hstage).keys (fun _ => drawFaults_closing ..) nofun)
  | @entered ticket relay reader turn hstage hread hblank hturn =>
      subst hturn
      obtain ⟨seat, hseat, -⟩ := hseated _ _ _ hstage
      have hsaid := (h.seated _ _ _ hstage).perform hseat
        (.say ticket.id ticket.name (Text.trim session.draft.text)) nofun
      exact .of_stage rfl (hsaid.keys (fun _ => drawFaults_map_room ..) fun _ => ⟨rfl, rfl⟩)
  | @closed ticket relay reader turn hstage hread hblank hturn =>
      subst hturn
      obtain ⟨seat, hseat, -⟩ := hseated _ _ _ hstage
      have hsaid := (h.seated _ _ _ hstage).perform hseat
        (.say ticket.id ticket.name (Text.trim session.draft.text)) nofun
      exact .of_stage rfl (hsaid.keys (fun task => drawFaults_map_room task _) nofun)
  | @left ticket relay outcome hstage =>
      obtain ⟨seat, hseat, -⟩ := hseated _ _ _ hstage
      have hleft := (h.seated _ _ _ hstage).perform hseat (.leave ticket.id) nofun
      exact .of_stage rfl (hleft.keys (fun _ => drawFaults_map_room ..) nofun)
  | @fetched ticket keyLoop room' text hstage hreceive =>
      obtain ⟨seat, hseat, -⟩ := hseated _ _ _ hstage
      have hread := (h.seated _ _ _ hstage).perform hseat (.receive ticket.place) nofun
      rw [show (room.perform (.receive ticket.place)).room = room' from congrArg Prod.snd hreceive]
        at hread
      exact .of_stage rfl (hread.relays (fun _ => rfl) ⟨nofun, nofun⟩ ⟨nofun, nofun⟩)
  | relayEnded hstage hreceive hreceipt =>
      obtain ⟨seat, hseat, -⟩ := hseated _ _ _ hstage
      exact .of_stage rfl ((h.seated _ _ _ hstage).finish hseat hreceive hreceipt fun _ => rfl)
  | relayCalled hstage | relayHeldUp hstage | relayReady hstage =>
      exact .of_stage rfl
        ((h.seated _ _ _ hstage).relays (fun _ => rfl) ⟨nofun, nofun⟩ ⟨nofun, nofun⟩)
  | @relayDrew ticket keyLoop pen pen' screen draw hstage hpen =>
      exact .of_stage rfl ((h.seated _ _ _ hstage).quiet (fun _ => rfl) (fun hreads =>
        ⟨KeyLoop.readsOn_admitted screen keyLoop ▸ hreads, KeyLoop.opens_admitted screen keyLoop⟩)
        ⟨nofun, nofun⟩ ⟨nofun, nofun⟩)
  | relayFailed hstage hpen =>
      obtain ⟨seat, hseat, -⟩ := hseated _ _ _ hstage
      exact .of_stage rfl ((h.seated _ _ _ hstage).stop hseat _ rfl rfl)

end Session

/-- In every scene the relay of the session reads the queue as it should. -/
theorem Scene.Reachable.hears {scene : Scene} (h : scene.Reachable) :
    scene.session.Hears scene.room scene.events := by
  refine h.invariant (P := fun scene => scene.session.Hears scene.room scene.events) ?_ ?_
  · exact fun _ _ _ _ _ _ => ⟨fun _ _ => rfl, fun _ _ _ hstage => nomatch hstage⟩
  · intro scene scene' hscene hbefore hstep
    cases hstep with
    | moved hmove => exact hbefore.doing hscene.seatedIn (Session.doing_of_step hmove)
    | disturbed op hreads =>
        refine ⟨hbefore.unseated, fun ticket _ _ hstage => ?_⟩
        obtain ⟨seat, hseat, -⟩ := hscene.seatedIn _ _ _ hstage
        refine (hbefore.seated _ _ _ hstage).perform hseat op ?_
        rintro rfl
        exact hreads ticket (Session.ticket?_of_stage hstage) rfl
    | clock _ =>
        refine ⟨hbefore.unseated, fun ticket _ _ hstage => ?_⟩
        obtain ⟨hopens, habsent, hdeaf, hfinished, hrelay, hkeys⟩ := hbefore.seated _ _ _ hstage
        exact ⟨hopens, habsent, hdeaf, hfinished, hrelay, hkeys⟩
    | asked _ | askedAll | fed _ | rescripted _ => exact ⟨hbefore.unseated, hbefore.seated⟩

end LineChat
