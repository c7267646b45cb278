import LineChat.Proofs.Session.OwnLines
import LineChat.Proofs.Session.Seating

set_option autoImplicit false

/-! # What a session shows of what it is sent

Whatever the room puts into the queue of a session is shown by the relay, in the same order and each
line once. Nobody else reads the queue, so at every moment the lines that are shown, the one that is
being drawn and those that are still queued are together all that the queue has taken. What the
session itself says is not among them. -/

namespace LineChat

/-! ## The relay and the queue -/

/-- The lines that the relay is drawing. -/
def Relay.lines : Relay → List String
  | drawing pen => pen.lines
  | absent | waiting | finished => []

/-- Whether the task has yet to start the relay. -/
def KeyLoop.opens : KeyLoop → Bool
  | drawing _ .openRelay => true
  | drawing _ .readKeys | drawing _ (.leave _) | reading | leaving _ | draining _ | ended _ => false

theorem KeyLoop.opens_drawing (pen pen' : Pen) (aim : Aim) :
    (drawing pen' aim).opens = (drawing pen aim).opens := by
  cases aim <;> rfl

theorem KeyLoop.opens_admitted (screen : Screen) (keyLoop : KeyLoop) :
    (keyLoop.admitted screen).opens = keyLoop.opens := by
  cases keyLoop with
  | drawing pen aim => exact opens_drawing pen _ aim
  | reading | leaving _ | draining _ | ended _ => rfl

namespace Relay

theorem lines_admitted (screen : Screen) (relay : Relay) :
    (relay.admitted screen).lines = relay.lines := by
  cases relay with
  | drawing pen => exact pen.lines_admitted screen
  | absent | waiting | finished => rfl

theorem admitted_eq_absent (screen : Screen) (relay : Relay) :
    relay.admitted screen = .absent ↔ relay = .absent := by
  cases relay <;> simp [admitted]

theorem admitted_eq_finished (screen : Screen) (relay : Relay) :
    relay.admitted screen = .finished ↔ relay = .finished := by
  cases relay <;> simp [admitted]

end Relay

/-- What has come through the queue of a participant, and what is in it. -/
structure ShowsSent (room : Room) (chronicle : List Room.Event) (ticket : Ticket)
    (keyLoop : KeyLoop) (relay : Relay) (events : List Event) : Prop where
  reads : ∃ seat, room.seat? ticket.place = some seat ∧ seat.id = ticket.id
    ∧ seat.outbox.receiving = true
  lines : shownBy .relay events ++ relay.lines ++ room.backlog ticket.place
    = Room.deliveredTo ticket.place chronicle
  absent : relay = .absent ↔ keyLoop.opens = true
  finished : relay = .finished → room.backlog ticket.place = [] ∧ room.Gone ticket.place
  /-- The announcement comes first, and of what the session itself does the queue takes nothing
      else. -/
  own : ∃ stamp,
    Room.deliveredTo ticket.place (roomEvents events)
        = [Line.notice stamp (Line.joined ticket.name)]
      ∧ [Line.notice stamp (Line.joined ticket.name)] <+: Room.deliveredTo ticket.place chronicle

namespace ShowsSent

variable {room : Room} {chronicle : List Room.Event} {ticket : Ticket} {keyLoop keyLoop' : KeyLoop}
variable {relay relay' : Relay} {events news : List Event}

/-- An operation that leaves the queue to its reader only adds to it. -/
theorem perform (h : ShowsSent room chronicle ticket keyLoop relay events) {op : Room.Op}
    (hreads : op.reads? ≠ some ticket.place) :
    ShowsSent (room.perform op).room (chronicle ++ (room.perform op).events) ticket keyLoop relay
      events := by
  obtain ⟨seat, hseat, hid, hrec⟩ := h.reads
  have hhang : op ≠ .hangUp ticket.place := by
    rintro rfl
    exact hreads rfl
  have hbacklog : (room.perform op).room.backlog ticket.place
      = room.backlog ticket.place ++ Room.deliveredTo ticket.place (room.perform op).events := by
    rw [← Room.taken_append_backlog hhang, Room.taken_of_reads?_ne hreads, List.nil_append]
  refine ⟨?_, ?_, h.absent, fun hfinished => ?_, ?_⟩
  · obtain ⟨seat', hseat', hkeeps⟩ := Room.seat?_perform op hseat
    exact ⟨seat', hseat', hkeeps.id.trans hid, hkeeps.receiving.2 ⟨hrec, hhang⟩⟩
  · rw [hbacklog, ← List.append_assoc, h.lines, Room.deliveredTo_append]
  · -- nothing comes into the queue of somebody who has left
    obtain ⟨hempty, hgone⟩ := h.finished hfinished
    obtain ⟨hnothing, hgone'⟩ := hgone.perform op
    exact ⟨by rw [hbacklog, hempty, hnothing, List.append_nil], hgone'⟩
  · obtain ⟨stamp, hown, hfirst⟩ := h.own
    rw [Room.deliveredTo_append]
    exact ⟨stamp, hown, hfirst.trans (List.prefix_append _ _)⟩

/-- What the session does besides leaves the queue alone, and draws what there is to draw. -/
theorem draw (h : ShowsSent room chronicle ticket keyLoop relay events)
    (hshown : shownBy .relay news ++ relay'.lines = relay.lines)
    (hown : Room.deliveredTo ticket.place (roomEvents news) = [])
    (hopens : keyLoop'.opens = keyLoop.opens) (habsent : relay' = .absent ↔ relay = .absent)
    (hfinished : relay' = .finished → relay = .finished) :
    ShowsSent room chronicle ticket keyLoop' relay' (events ++ news) where
  reads := h.reads
  lines := by
    rw [shownBy_append, List.append_assoc (shownBy .relay events), hshown]
    exact h.lines
  absent := by rw [habsent, hopens, h.absent]
  finished := fun hthis => h.finished (hfinished hthis)
  own := by
    obtain ⟨stamp, honce, hfirst⟩ := h.own
    refine ⟨stamp, ?_, hfirst⟩
    rw [roomEvents_append, Room.deliveredTo_append, honce, hown]
    rfl

/-- The keys are read while the relay goes on. -/
theorem keys (h : ShowsSent room chronicle ticket keyLoop relay events)
    (hshown : shownBy .relay news = [])
    (hown : Room.deliveredTo ticket.place (roomEvents news) = [])
    (hopens : keyLoop'.opens = keyLoop.opens) :
    ShowsSent room chronicle ticket keyLoop' relay (events ++ news) :=
  h.draw (by rw [hshown]; rfl) hown hopens Iff.rfl id

/-- The relay goes on drawing. -/
theorem pen {pen pen' : Pen} (h : ShowsSent room chronicle ticket keyLoop (.drawing pen) events)
    (hlines : shownBy .relay news ++ pen'.lines = pen.lines) (hnone : roomEvents news = [])
    (hopens : keyLoop'.opens = keyLoop.opens) :
    ShowsSent room chronicle ticket keyLoop' (.drawing pen') (events ++ news) :=
  h.draw hlines (by rw [hnone]; rfl) hopens ⟨nofun, nofun⟩ nofun

/-- The session carries out an operation that does not concern its own queue. -/
theorem act (h : ShowsSent room chronicle ticket keyLoop relay events) (op : Room.Op)
    (hreads : op.reads? ≠ some ticket.place)
    (hown : Room.deliveredTo ticket.place (room.perform op).events = [])
    (hnews : roomEvents news = (room.perform op).events) (hshown : shownBy .relay news = [])
    (hopens : keyLoop'.opens = keyLoop.opens) :
    ShowsSent (room.perform op).room (chronicle ++ roomEvents news) ticket keyLoop' relay
      (events ++ news) := by
  rw [← hnews] at hown
  rw [hnews]
  exact (h.perform hreads).keys hshown hown hopens

/-- The relay starts when the task has cleared the screen. -/
theorem start (h : ShowsSent room chronicle ticket keyLoop .absent events)
    (hopens : keyLoop'.opens = false) : ShowsSent room chronicle ticket keyLoop' .waiting events where
  reads := h.reads
  lines := h.lines
  absent := by
    rw [hopens]
    exact ⟨nofun, nofun⟩
  finished := nofun
  own := h.own

/-- The oldest line in the queue is the next one to be shown. -/
theorem fetch (h : ShowsSent room chronicle ticket keyLoop .waiting events) {room' : Room}
    {text : String} (hreceive : room.receive ticket.place = (.line text, room')) :
    ShowsSent room' chronicle ticket keyLoop (.drawing (.ready [.line text, .prompt])) events := by
  obtain ⟨seat, hseat, hid, hrec⟩ := h.reads
  obtain ⟨seat', hseat', hkeeps⟩ := Room.seat?_perform (.receive ticket.place) hseat
  have hroom' : (room.perform (.receive ticket.place)).room = room' := congrArg Prod.snd hreceive
  rw [hroom'] at hseat'
  refine ⟨⟨seat', hseat', hkeeps.id.trans hid, hkeeps.receiving.2 ⟨hrec, nofun⟩⟩, ?_, ?_, nofun,
    h.own⟩
  · have hlines := h.lines
    rw [Room.backlog_of_receive hreceive] at hlines
    rw [← hlines]
    simp [Relay.lines, Pen.lines, Call.line?]
  · rw [← h.absent]
    exact ⟨nofun, nofun⟩

/-- The relay ends when there is nothing left in the queue and nothing will come. -/
theorem finish (h : ShowsSent room chronicle ticket keyLoop .waiting events) {room' : Room}
    {receipt : Receipt} (hreceive : room.receive ticket.place = (receipt, room'))
    (hreceipt : receipt = .closed ∨ receipt = .dropped) :
    ShowsSent room' chronicle ticket keyLoop .finished events := by
  obtain ⟨seat, hseat, hid, hrec⟩ := h.reads
  obtain ⟨hempty, hgone⟩ := Room.gone_of_receive hseat hrec hreceive hreceipt
  obtain ⟨seat', hseat', hkeeps⟩ := Room.seat?_perform (.receive ticket.place) hseat
  have hroom' : (room.perform (.receive ticket.place)).room = room' := congrArg Prod.snd hreceive
  have hgone' := (hgone.perform (.receive ticket.place)).2
  -- what is taken out of an empty queue and what is left there is nothing
  have hhang : Room.Op.receive ticket.place ≠ .hangUp ticket.place := nofun
  have hnone := Room.taken_append_backlog hhang room
  rw [hempty, hroom'] at hnone
  rw [hroom'] at hseat' hgone'
  have hempty' : room'.backlog ticket.place = [] := (List.append_eq_nil_iff.1 hnone).2
  refine ⟨⟨seat', hseat', hkeeps.id.trans hid, hkeeps.receiving.2 ⟨hrec, hhang⟩⟩, ?_, ?_,
    fun _ => ⟨hempty', hgone'⟩, h.own⟩
  · rw [hempty', ← hempty]
    exact h.lines
  · rw [← h.absent]
    exact ⟨nofun, nofun⟩

end ShowsSent

/-! ## Moves -/

/-- What a session is sent is shown as it should be; without a seat there is nothing. -/
structure Session.Relays (session : Session) (room : Room) (chronicle : List Room.Event)
    (events : List Event) : Prop where
  unseated : session.ticket? = none → shownBy .relay events = [] ∧ roomEvents events = []
  seated : ∀ ticket keyLoop relay, session.stage = .seated ticket keyLoop relay →
    ShowsSent room chronicle ticket keyLoop relay events

namespace Session

theorem Relays.of_stage {session : Session} {room : Room} {chronicle : List Room.Event}
    {events : List Event} {ticket : Ticket} {keyLoop : KeyLoop} {relay : Relay}
    (hstage : session.stage = .seated ticket keyLoop relay)
    (h : ShowsSent room chronicle ticket keyLoop relay events) :
    session.Relays room chronicle events where
  unseated := fun hnone => by simp [ticket?_of_stage hstage] at hnone
  seated := forall_stage
    (P := fun ticket keyLoop relay => ShowsSent room chronicle ticket keyLoop relay events) hstage h

/-- Events that have nothing to do with lines change nothing. -/
theorem Relays.silent {session : Session} {room : Room} {chronicle : List Room.Event}
    {events news : List Event} (h : session.Relays room chronicle events)
    (hshown : shownBy .relay news = []) (hroom : roomEvents news = []) :
    session.Relays room chronicle (events ++ news) where
  unseated := by
    intro hnone
    simpa [hshown, hroom] using h.unseated hnone
  seated := by
    intro ticket keyLoop relay hstage
    exact (h.seated _ _ _ hstage).keys hshown (by rw [hroom]; rfl) rfl

/-- Whoever joins finds nothing in the queue but the announcement. -/
theorem Relays.join {session : Session} {room : Room} {chronicle : List Room.Event}
    {events : List Event} (h : session.Relays room chronicle events)
    (hroom : room.Recorded chronicle) (hstage : session.stage = .lobby) (name : String) :
    ShowsSent (room.join name).room (chronicle ++ (room.join name).events) (room.join name).answer
      (.drawing (.ready [.clear]) .openRelay) .absent
      (events ++ (room.join name).events.map .room) := by
  have hplace : (room.join name).answer.place = room.nextPlace := rfl
  have hfree := room.seat?_nextPlace
  have hannounced := room.deliveredTo_join_self name
  obtain ⟨hshown, hnothing⟩ := h.unseated (ticket?_of_lobby hstage)
  obtain ⟨seat, hseat, hid, -, -, hrec⟩ := room.seat?_join_next name
  refine ⟨⟨seat, hseat, hid, hrec⟩, ?_, ⟨fun _ => rfl, fun _ => rfl⟩, nofun, room.stamp, ?_, ?_⟩
  · rw [shownBy_append, hshown, shownBy_map_room, hplace, Room.backlog_join,
      Room.deliveredTo_append, Room.backlog_of_seat?_eq_none hfree, hroom.undelivered _ hfree]
    rfl
  · rw [roomEvents_append, hnothing, roomEvents_map_room]
    exact hannounced
  · rw [Room.deliveredTo_append, hplace, hroom.undelivered _ hfree, hannounced]
    exact List.prefix_refl _

theorem Relays.doing {session : Session} {room : Room} {task : Task} {move : Move}
    {chronicle : List Room.Event} {events : List Event}
    (h : session.Relays room chronicle events) (hroom : room.Recorded chronicle)
    (hwell : ∀ task fault, .drawFailed task fault ∉ move.events)
    (hdoing : session.Doing room task move) :
    move.session.Relays move.room (chronicle ++ roomEvents move.events) (events ++ move.events) := by
  -- a move by which nothing happens in the room
  have hto : ∀ {ticket keyLoop relay}, roomEvents move.events = [] →
      move.session.stage = .seated ticket keyLoop relay →
      ShowsSent move.room chronicle ticket keyLoop relay (events ++ move.events) →
      move.session.Relays move.room (chronicle ++ roomEvents move.events)
        (events ++ move.events) := by
    intro ticket keyLoop relay hnone hstage hshows
    rw [hnone, List.append_nil]
    exact .of_stage hstage hshows
  cases hdoing with
  | @answered kind =>
      have hsilent : session.Relays room chronicle (events ++ [.replied kind kind.granted]) :=
        h.silent rfl rfl
      exact (List.append_nil chronicle).symm ▸ ⟨hsilent.unseated, hsilent.seated⟩
  | deserted =>
      have hsilent : session.Relays room chronicle (events ++ [.requestsEnded]) :=
        h.silent rfl rfl
      exact (List.append_nil chronicle).symm ▸ ⟨hsilent.unseated, hsilent.seated⟩
  | turnedAway hstage =>
      have hsilent : session.Relays room chronicle (events ++ [.turnedAway session.claimed]) :=
        h.silent rfl rfl
      exact ⟨fun _ => hsilent.unseated (ticket?_of_lobby hstage),
        fun _ _ _ hstage' => nomatch hstage'⟩
  | joined hstage =>
      refine .of_stage rfl ?_
      show ShowsSent _ (chronicle ++ roomEvents (List.map .room _)) _ _ _ _
      rw [roomEvents_map_room]
      exact h.join hroom hstage session.claimed
  | @keysCalled ticket pen pen' aim relay hstage hpen
  | @keysHeldUp ticket pen pen' aim relay screen hstage hpen =>
      exact hto rfl rfl ((h.seated _ _ _ hstage).keys rfl rfl (KeyLoop.opens_drawing pen pen' aim))
  | @keysDrew ticket pen pen' aim relay screen draw hstage hpen =>
      refine hto rfl rfl ((h.seated _ _ _ hstage).draw ?_ rfl (KeyLoop.opens_drawing pen pen' aim)
        (relay.admitted_eq_absent screen) (relay.admitted_eq_finished screen).1)
      rw [shownBy_drew_of_ne (by decide), relay.lines_admitted screen]
      rfl
  | keysFailed | relayFailed => exact absurd List.mem_cons_self (hwell _ _)
  | opened hstage =>
      -- there is no relay before it is started here
      have hshows := h.seated _ _ _ hstage
      obtain rfl := hshows.absent.2 rfl
      exact hto rfl rfl ((hshows.start rfl).keys rfl rfl rfl)
  | ready hstage | tookLeave hstage | readOn hstage | enteredBlank hstage | acknowledged hstage
  | trimmed hstage | appended hstage | ignored hstage | closedBlank hstage | readFailed hstage =>
      exact hto rfl rfl ((h.seated _ _ _ hstage).keys rfl rfl rfl)
  | @entered ticket relay reader turn hstage hread hblank hturn
  | @closed ticket relay reader turn hstage hread hblank hturn =>
      subst hturn
      -- the line goes round, but not to the queue of the session itself
      have hshows := h.seated _ _ _ hstage
      obtain ⟨seat, hseat, hid, -⟩ := hshows.reads
      have hnothing := Room.deliveredTo_say_self hseat ticket.name (Text.trim session.draft.text)
      rw [hid] at hnothing
      exact .of_stage rfl (hshows.act (.say ticket.id ticket.name (Text.trim session.draft.text))
        nofun hnothing (roomEvents_map_room _) (shownBy_map_room _ _) rfl)
  | @left ticket relay outcome hstage =>
      have hshows := h.seated _ _ _ hstage
      obtain ⟨seat, hseat, hid, -⟩ := hshows.reads
      have hnothing := Room.deliveredTo_leave_self hseat
      rw [hid] at hnothing
      exact .of_stage rfl (hshows.act (.leave ticket.id) nofun hnothing (roomEvents_map_room _)
        (shownBy_map_room _ _) rfl)
  | @ended ticket relay outcome hstage =>
      have hnone := roomEvents_closing ticket outcome session.screen.shutdown.1
      exact hto hnone rfl ((h.seated _ _ _ hstage).keys (shownBy_closing ..)
        (congrArg (Room.deliveredTo ticket.place) hnone) rfl)
  | fetched hstage hreceive =>
      exact hto rfl rfl (((h.seated _ _ _ hstage).fetch hreceive).keys rfl rfl rfl)
  | relayEnded hstage hreceive hreceipt =>
      exact hto rfl rfl
        (((h.seated _ _ _ hstage).finish hreceive hreceipt).keys rfl rfl rfl)
  | relayCalled hstage hpen =>
      exact hto rfl rfl ((h.seated _ _ _ hstage).pen (Pen.lines_called hpen) rfl rfl)
  | relayHeldUp hstage hpen =>
      exact hto rfl rfl ((h.seated _ _ _ hstage).pen (Pen.lines_heldUp hpen) rfl rfl)
  | @relayDrew ticket keyLoop pen pen' screen draw hstage hpen =>
      have hlines := (Pen.lines_drew hpen).symm
      rw [← shownBy_drew .relay] at hlines
      exact hto rfl rfl ((h.seated _ _ _ hstage).pen hlines rfl
        (keyLoop.opens_admitted screen))
  | relayReady hstage =>
      exact hto rfl rfl ((h.seated _ _ _ hstage).draw rfl rfl rfl ⟨nofun, nofun⟩ nofun)

end Session

/-- Over a connection with which nothing goes wrong, a session shows what it is sent. -/
theorem Scene.Reachable.relays {scene : Scene} (h : scene.Reachable)
    (hwell : ∀ script ∈ scene.given.scripts, script.Faultless) :
    scene.session.Relays scene.room scene.chronicle scene.events := by
  revert hwell
  refine h.invariant (P := fun scene => (∀ script ∈ scene.given.scripts, script.Faultless) →
    scene.session.Relays scene.room scene.chronicle scene.events) ?_ ?_
  · exact fun _ _ _ _ _ _ _ => ⟨fun _ => ⟨rfl, rfl⟩, fun _ _ _ hstage => nomatch hstage⟩
  · intro scene scene' hscene hbefore hstep hwell
    cases hstep with
    | moved hmove =>
        have hdoing := Session.doing_of_step hmove
        exact (hbefore hwell).doing hscene.recorded
          (hdoing.no_drawFailed (hwell _ hscene.script_mem)) hdoing
    | disturbed op hreads =>
        have hthis := hbefore hwell
        refine ⟨hthis.unseated, fun ticket _ _ hstage => ?_⟩
        have hother := hreads ticket (Session.ticket?_of_stage hstage)
        exact (hthis.seated _ _ _ hstage).perform hother
    | clock stamp =>
        have hthis := hbefore hwell
        refine ⟨hthis.unseated, fun ticket _ _ hstage => ?_⟩
        obtain ⟨hreads, hlines, habsent, hfinished, hown⟩ := hthis.seated _ _ _ hstage
        exact ⟨hreads, hlines, habsent, hfinished, hown⟩
    | asked _ | askedAll | fed _ =>
        have hthis := hbefore hwell
        exact ⟨hthis.unseated, hthis.seated⟩
    | rescripted script =>
        have hthis := hbefore fun script hmem => hwell script (List.mem_append_left _ hmem)
        exact ⟨hthis.unseated, hthis.seated⟩

end LineChat
