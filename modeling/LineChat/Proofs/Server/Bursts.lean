import LineChat.Proofs.Server.Happenings
import LineChat.Proofs.Server.Listening
import LineChat.Proofs.Session.Relaying
import Mathlib.Data.List.Induction

set_option autoImplicit false

/-! # Many lines at once

A line that finds the queue full is lost for that session. Here it is followed, from one happening to
the next, what a session holds of the lines that are meant for it while it stays in the room
(`Within`, `invariant_of_present`). If its relay does not run, the queue has the first lines, as many
as it can hold (`unread_of_idle`). If the connection takes nothing and the relay runs after each line,
the relay has the first in hand and the queue has the next (`heldUp_of_stalled`). -/

namespace LineChat

/-! ## A connection that takes nothing -/

/-- A pen writes only when the connection takes what it writes. -/
theorem Pen.prompt_of_step {online : Nat} {draft : String} {screen screen' : Screen} {busy : Bool}
    {pen : Pen} {move : Pen.Move} (h : pen.step online draft screen busy = some move)
    (hscreen : move.screen? = some screen') : screen.sink.stalled = false := by
  cases move with
  | called _ | finished => exact nomatch hscreen
  | heldUp pen' screen'' =>
      obtain ⟨_, _, _, _, -, -, hprompt, -⟩ := heldUp_of_step h
      exact hprompt
  | drew draw pen' screen'' =>
      obtain ⟨_, _, -, -, hprompt, -⟩ := drew_of_step h
      exact hprompt
  | failed fault screen'' =>
      obtain ⟨_, _, _, -, hprompt, -⟩ := failed_of_step h
      exact hprompt

namespace Session

variable {session : Session} {room : Room} {task : Task} {move : Move}

/-- A connection that takes nothing goes on like that, whatever the session does, and nothing fails. -/
theorem Doing.stalled (h : session.Doing room task move)
    (hstalled : session.screen.sink.stalled = true) :
    move.session.screen.sink.stalled = true ∧ ∀ task', drawFaults task' move.events = [] := by
  cases h with
  | keysHeldUp _ hpen | keysDrew _ hpen | keysFailed _ hpen | relayHeldUp _ hpen | relayDrew _ hpen
  | relayFailed _ hpen =>
      exact nomatch hstalled.symm.trans (Pen.prompt_of_step hpen rfl)
  | joined | entered | closed | left => exact ⟨hstalled, fun task' => drawFaults_map_room task' _⟩
  | ended => exact ⟨hstalled, fun _ => drawFaults_closing ..⟩
  | answered | deserted | turnedAway | keysCalled | opened | ready | tookLeave | readOn
  | enteredBlank | acknowledged | trimmed | appended | ignored | closedBlank
  | readFailed | fetched | relayEnded | relayCalled | relayReady =>
      exact ⟨hstalled, fun _ => rfl⟩

/-- What the relay does over a connection that takes nothing: it looks into the queue, or it keeps what
    it has. -/
theorem Doing.relay_of_stalled (h : session.Doing room .relay move)
    (hstalled : session.screen.sink.stalled = true) {ticket : Ticket} {keyLoop : KeyLoop}
    {relay : Relay} (hstage : session.stage = .seated ticket keyLoop relay) :
    ∃ relay', move.session.stage = .seated ticket keyLoop relay'
      ∧ roomEvents move.events = [] ∧ shownBy .relay move.events = []
      ∧ (relay = .waiting ∧ (∃ receipt, room.receive ticket.place = (receipt, move.room)
            ∧ (receipt = .closed ∨ receipt = .dropped ∨ ∃ text, receipt = .line text
              ∧ relay'.lines = [text]))
          ∨ relay ≠ .waiting ∧ move.room = room ∧ relay'.lines = relay.lines) := by
  have hthis : ∀ {ticket' keyLoop' relay'}, session.stage = .seated ticket' keyLoop' relay' →
      ticket' = ticket ∧ keyLoop' = keyLoop ∧ relay' = relay :=
    fun hstage' => Stage.seated.inj (hstage'.symm.trans hstage)
  cases h with
  | relayHeldUp _ hpen | relayDrew _ hpen | relayFailed _ hpen =>
      exact nomatch hstalled.symm.trans (Pen.prompt_of_step hpen rfl)
  | @fetched _ _ room' text hstage' hreceive =>
      obtain ⟨rfl, rfl, rfl⟩ := hthis hstage'
      exact ⟨_, rfl, rfl, rfl,
        Or.inl ⟨rfl, _, hreceive, Or.inr (Or.inr ⟨text, rfl, rfl⟩)⟩⟩
  | relayEnded hstage' hreceive hreceipt =>
      obtain ⟨rfl, rfl, rfl⟩ := hthis hstage'
      exact ⟨_, rfl, rfl, rfl, Or.inl ⟨rfl, _, hreceive, hreceipt.imp id Or.inl⟩⟩
  | relayCalled hstage' hpen =>
      obtain ⟨rfl, rfl, rfl⟩ := hthis hstage'
      exact ⟨_, rfl, rfl, rfl, Or.inr ⟨nofun, rfl, Pen.lines_called hpen⟩⟩
  | relayReady hstage' =>
      obtain ⟨rfl, rfl, rfl⟩ := hthis hstage'
      exact ⟨_, rfl, rfl, rfl, Or.inr ⟨nofun, rfl, rfl⟩⟩

end Session

/-! ## The line in hand -/

/-- How a relay that shows nothing holds the lines that it is sent: it has taken none, and there is one
    at most, or it has the first in hand, and the queue has what it can hold of the others. -/
def Relay.Holds (relay : Relay) (queued lines : List String) : Prop :=
  relay = .waiting ∧ queued = lines ∧ lines.length ≤ 1
    ∨ ∃ line rest, lines = line :: rest ∧ relay.lines = [line] ∧ queued = rest.take Outbox.capacity

namespace Relay.Holds

theorem ne_absent {relay : Relay} {queued lines : List String} (h : relay.Holds queued lines) :
    relay ≠ .absent := by
  rintro rfl
  rcases h with ⟨hwaiting, -⟩ | ⟨_, _, -, hline, -⟩
  · exact nomatch hwaiting
  · exact nomatch hline

variable {relay relay' : Relay} {queued lines news : List String}

/-- If the relay has looked into the queue, one line more is held than the queue can hold. -/
theorem lines_append_queued (h : relay.Holds queued lines)
    (hlooked : relay = .waiting → queued = []) :
    relay.lines ++ queued = lines.take (Outbox.capacity + 1) := by
  rcases h with ⟨rfl, hsame, -⟩ | ⟨line, rest, rfl, hline, rfl⟩
  · obtain rfl := hlooked rfl
    subst hsame
    rfl
  · rw [hline, List.take_succ_cons]
    rfl

theorem length_queued_le (h : relay.Holds queued lines) : queued.length ≤ Outbox.capacity := by
  rcases h with ⟨-, rfl, hle⟩ | ⟨_, _, -, -, rfl⟩
  · exact Nat.le_trans hle (by decide)
  · exact List.length_take_le _ _

/-- Lines come one by one, and each of them only when the relay has looked for it. -/
theorem offer (h : relay.Holds queued lines)
    (hkeeps : relay' = relay ∨ ∃ screen, relay' = relay.admitted screen)
    (hpaced : news ≠ [] → news.length ≤ 1 ∧ (relay = .waiting → queued = [])) :
    relay'.Holds ((queued ++ news).take Outbox.capacity) (lines ++ news) := by
  have hlines : relay'.lines = relay.lines := by
    rcases hkeeps with rfl | ⟨screen, rfl⟩
    · rfl
    · exact relay.lines_admitted screen
  rcases h with ⟨rfl, rfl, hle⟩ | ⟨line, rest, rfl, hline, rfl⟩
  · have hwaiting : relay' = .waiting := by
      rcases hkeeps with rfl | ⟨screen, rfl⟩ <;> rfl
    have hfew : (queued ++ news).length ≤ 1 := by
      by_cases hnews : news = []
      · rwa [hnews, List.append_nil]
      · obtain ⟨hone, hlooked⟩ := hpaced hnews
        rwa [hlooked rfl]
    refine Or.inl ⟨hwaiting, ?_, hfew⟩
    exact List.take_of_length_le (Nat.le_trans hfew (by decide))
  · exact Or.inr ⟨line, rest ++ news, rfl, hlines.trans hline, Room.take_take_append _ _ _⟩

end Relay.Holds

/-! ## Those who stay in the room -/

section
variable {scene scene' : Scene} {ticket : Ticket} {seat : Seat}

/-- What a step does to the room: the time may pass, or somebody carries out an operation. -/
theorem Scene.Step.room_eq (h : scene.Step scene') :
    (∃ stamp, scene'.room = scene.room.stamped stamp)
      ∨ ∃ op, scene'.room = (scene.room.perform op).room := by
  cases h with
  | asked _ | askedAll | fed _ | rescripted _ => exact Or.inl ⟨scene.room.stamp, rfl⟩
  | clock stamp => exact Or.inl ⟨stamp, rfl⟩
  | disturbed op _ => exact Or.inr ⟨op, rfl⟩
  | moved hmove =>
      cases (Session.doing_of_step hmove).touch with
      | none hroom => exact Or.inl ⟨scene.room.stamp, hroom⟩
      | join hroom => exact Or.inr ⟨.join scene.session.claimed, hroom⟩
      | own _ op hroom => exact Or.inr ⟨op, hroom⟩

/-- Whoever is in the room has been there as long as there was a seat. -/
theorem Scene.Steps.present (h : scene.Steps scene')
    (hseat : scene.room.seat? ticket.place = some seat)
    (hpresent : scene'.room.Present ticket) : scene.room.Present ticket := by
  induction h using Relation.ReflTransGen.head_induction_on generalizing seat with
  | refl => exact hpresent
  | @head scene next hfirst _ ih =>
      rcases hfirst.room_eq with ⟨stamp, hroom⟩ | ⟨op, hroom⟩
      · rw [hroom] at ih
        exact ih hseat
      · obtain ⟨seat', hseat', -⟩ := Room.seat?_perform op hseat
        rw [hroom] at ih
        exact (@Room.present_of_doing _ _ ⟨scene.room.stamp, op⟩ _ hseat (ih hseat')).1

end

namespace World

/-! ## In the course of a burst -/

section
variable {stamp : String} {picker : ColorPicker} {history : List Happening} {world : World} {i : Nat}
variable {scene : Scene} {ticket : Ticket}

theorem ticketAt?_of_scene (hscene : world.scene? i = some scene) {keyLoop : KeyLoop}
    {relay : Relay} (hstage : scene.session.stage = .seated ticket keyLoop relay) :
    world.ticketAt? i = some ticket := by
  obtain ⟨-, hsession, -⟩ := (world.scene?_eq_some_iff i scene).1 hscene
  rw [ticketAt?, hsession]
  exact Session.ticket?_of_stage hstage

/-- One thing that happens in the course of a burst, to a session that stays in the room. -/
structure Within (world : World) (i : Nat) (ticket : Ticket) (sooner : List Happening)
    (happening : Happening) (past next : World) (before after : Scene) : Prop where
  run : world.run sooner = some past
  happen : past.happen happening = some next
  scene : past.scene? i = some before
  scene' : next.scene? i = some after
  sound : past.Sound
  reach : before.Reachable
  seated : past.ticketAt? i = some ticket
  present : after.room.Present ticket

/-- What holds of a session now, and is kept by whatever happens while it is in the room, holds of it
    as long as it stays. -/
theorem invariant_of_present {P : List Happening → Scene → Prop}
    (hrun : (start stamp picker).run history = some world) (hscene : world.scene? i = some scene)
    (hticket : scene.session.ticket? = some ticket) (hnow : P [] scene)
    (hstep : ∀ sooner happening past next before after,
      Within world i ticket sooner happening past next before after → P sooner before →
      P (sooner ++ [happening]) after)
    {burst : List Happening} {world' : World} {scene' : Scene}
    (hburst : world.run burst = some world') (hscene' : world'.scene? i = some scene')
    (hpresent : scene'.room.Present ticket) : P burst scene' := by
  induction burst using List.reverseRecOn generalizing world' scene' with
  | nil =>
      obtain rfl := Option.some.inj hburst
      obtain rfl := Option.some.inj (hscene.symm.trans hscene')
      exact hnow
  | append_singleton sooner happening ih =>
      rw [run_append] at hburst
      obtain ⟨past, hpast, hlast⟩ := Option.bind_eq_some_iff.1 hburst
      obtain ⟨next, hnext, hdone⟩ := Option.bind_eq_some_iff.1 hlast
      obtain rfl := Option.some.inj hdone
      have hway : (start stamp picker).run (history ++ sooner) = some past := by
        rw [run_append, hrun, Option.bind_some, hpast]
      have hleads := leads_of_run (sound_of_run hrun) hpast
      obtain ⟨before, hbefore, hsteps⟩ := hleads.steps i scene hscene
      obtain ⟨after, hafter, honward⟩ := (leads_happen hleads.sound hnext).steps i before hbefore
      obtain rfl := Option.some.inj (hscene'.symm.trans hafter)
      -- whoever is there in the end has been there all the time
      obtain ⟨keyLoop, relay, hstage⟩ :=
        Session.exists_stage_of_ticket? (hsteps.kept.2 ticket hticket)
      have hseated := ticketAt?_of_scene hbefore hstage
      obtain ⟨seat, hseat⟩ := hleads.sound.seated i ticket hseated
      rw [((past.scene?_eq_some_iff i before).1 hbefore).2.2.2.1] at hseat
      exact hstep sooner happening past next before scene'
        ⟨hpast, hnext, hbefore, hscene', hleads.sound, reachable_of_run hway hbefore, hseated,
          hpresent⟩ (ih hpast hbefore (honward.present hseat hpresent))

section
variable {past next : World} {sooner : List Happening} {happening : Happening} {before after : Scene}

/-- Without a move of its own a relay that has been started goes nowhere. -/
theorem Within.aside (h : Within world i ticket sooner happening past next before after)
    (hidle : happening ≠ .move ⟨i, .relay⟩) {keyLoop : KeyLoop} {relay : Relay}
    (hstage : before.session.stage = .seated ticket keyLoop relay) (hrelay : relay ≠ .absent) :
    (∃ keyLoop' relay', after.session.stage = .seated ticket keyLoop' relay'
        ∧ (relay' = relay ∨ ∃ screen, relay' = relay.admitted screen))
      ∧ shownBy .relay after.events = shownBy .relay before.events := by
  rcases scene_happen h.happen h.scene h.scene' with
    ⟨task, move, rfl, hmove, hsession, hevents, -⟩ | ⟨-, hevents, hkept, -⟩
  · have htask : task ≠ .relay := by
      rintro rfl
      exact hidle rfl
    have hopens : keyLoop.opens = false :=
      Bool.eq_false_iff.2 fun hopens => hrelay ((h.reach.hears.seated _ _ _ hstage).opens hopens)
    obtain ⟨hplaces, hnone⟩ :=
      (Session.doing_of_step hmove).aside hstage (Or.inl htask) hopens
    refine ⟨hsession ▸ hplaces, ?_⟩
    rw [hevents, shownBy_append, hnone, List.append_nil]
  · exact ⟨⟨keyLoop, relay, hkept.trans hstage, Or.inl rfl⟩, by rw [hevents]⟩

/-- Nor is anything taken out of the queue. -/
theorem Within.backlog (h : Within world i ticket sooner happening past next before after)
    (hidle : happening ≠ .move ⟨i, .relay⟩)
    (hle : (before.room.backlog ticket.place).length ≤ Outbox.capacity) :
    after.room.backlog ticket.place
      = (before.room.backlog ticket.place
          ++ Room.addressed ticket (past.issuedBy happening)).take Outbox.capacity := by
  have hroom := ((past.scene?_eq_some_iff i before).1 h.scene).2.2.2.1
  have hroom' := ((next.scene?_eq_some_iff i after).1 h.scene').2.2.2.1
  have hpresent := h.present
  rw [← hroom'] at hpresent ⊢
  rw [← hroom] at hle ⊢
  exact h.sound.backlog_happen h.happen h.seated hidle hpresent hle

theorem Within.addressed (h : Within world i ticket sooner happening past next before after) :
    Room.addressed ticket (world.issues (sooner ++ [happening]))
      = Room.addressed ticket (world.issues sooner)
          ++ Room.addressed ticket (past.issuedBy happening) := by
  rw [issues_append h.run, Room.addressed_append, issues, h.happen, Option.map_some,
    Option.getD_some, issues, List.append_nil]

end

/-- Where a session is whose relay has not run, when it has been sent some lines since an earlier
    scene. -/
structure Unread (earlier : Scene) (ticket : Ticket) (lines : List String) (scene : Scene) :
    Prop where
  shown : shownBy .relay scene.events = shownBy .relay earlier.events
  waits : ∃ keyLoop, scene.session.stage = .seated ticket keyLoop .waiting
  queued : scene.room.backlog ticket.place = lines.take Outbox.capacity

theorem Within.unread {past next : World} {sooner : List Happening} {happening : Happening}
    {before after : Scene} (h : Within world i ticket sooner happening past next before after)
    (hidle : happening ≠ .move ⟨i, .relay⟩)
    (hunread : Unread scene ticket (Room.addressed ticket (world.issues sooner)) before) :
    Unread scene ticket (Room.addressed ticket (world.issues (sooner ++ [happening]))) after := by
  obtain ⟨hshown, ⟨keyLoop, hstage⟩, hqueued⟩ := hunread
  obtain ⟨⟨keyLoop', relay, hafter, hrelay⟩, hnone⟩ := h.aside hidle hstage nofun
  refine ⟨hnone.trans hshown, ⟨keyLoop', ?_⟩, ?_⟩
  · rcases hrelay with rfl | ⟨screen, rfl⟩ <;> exact hafter
  · have hle : (before.room.backlog ticket.place).length ≤ Outbox.capacity := by
      rw [hqueued]
      exact List.length_take_le _ _
    rw [h.backlog hidle hle, hqueued, Room.take_take_append, h.addressed]

/-- As long as the relay does not run, the queue keeps the first of the lines that are meant for the
    session. -/
theorem unread_of_idle (hrun : (start stamp picker).run history = some world)
    (hscene : world.scene? i = some scene) {keyLoop : KeyLoop}
    (hstage : scene.session.stage = .seated ticket keyLoop .waiting)
    (hempty : scene.room.backlog ticket.place = []) {burst : List Happening} {world' : World}
    {scene' : Scene} (hburst : world.run burst = some world')
    (hscene' : world'.scene? i = some scene') (hpresent : scene'.room.Present ticket)
    (hidle : .move ⟨i, .relay⟩ ∉ burst) :
    Unread scene ticket (Room.addressed ticket (world.issues burst)) scene' := by
  revert hidle
  refine invariant_of_present (P := fun burst scene' => .move ⟨i, .relay⟩ ∉ burst →
    Unread scene ticket (Room.addressed ticket (world.issues burst)) scene')
    hrun hscene (Session.ticket?_of_stage hstage) (fun _ => ⟨rfl, ⟨keyLoop, hstage⟩, hempty⟩) ?_
    hburst hscene' hpresent
  intro sooner happening past next before after hwithin ih hidle
  rw [List.mem_append, not_or, List.mem_singleton] at hidle
  exact hwithin.unread (fun heq => hidle.2 heq.symm) (ih hidle.1)

/-- Whether the relay of a session gets to run after each operation: what the room hands out for the
    session comes line by line, before each line the relay waits, and in the end it waits again. -/
def keepsUp (world : World) (i : Nat) (ticket : Ticket) : List Happening → Bool
  | [] => (world.server.step ⟨i, .relay⟩).isNone
  | happening :: later =>
    let sent := Room.addressed ticket (world.issuedBy happening)
    (sent.isEmpty || sent.length == 1 && (world.server.step ⟨i, .relay⟩).isNone)
      && (world.happen happening).all fun next => next.keepsUp i ticket later

theorem keepsUp_append {past : World} {sooner later : List Happening}
    (hpast : world.run sooner = some past) (h : world.keepsUp i ticket (sooner ++ later) = true) :
    past.keepsUp i ticket later = true := by
  induction sooner generalizing world with
  | nil =>
      obtain rfl := Option.some.inj hpast
      exact h
  | cons happening sooner ih =>
      obtain ⟨next, hnext, hrest⟩ := Option.bind_eq_some_iff.1 hpast
      simp only [List.cons_append, keepsUp, hnext, Option.all_some, Bool.and_eq_true] at h
      exact ih hrest h.2

theorem paced_of_keepsUp {happening : Happening} {later : List Happening}
    (h : world.keepsUp i ticket (happening :: later) = true)
    (hnews : Room.addressed ticket (world.issuedBy happening) ≠ []) :
    (Room.addressed ticket (world.issuedBy happening)).length ≤ 1
      ∧ world.server.step ⟨i, .relay⟩ = none := by
  simp only [keepsUp, Bool.and_eq_true, Bool.or_eq_true, List.isEmpty_iff, beq_iff_eq,
    Option.isNone_iff_eq_none] at h
  obtain ⟨hone, hwaits⟩ := h.1.resolve_left hnews
  exact ⟨Nat.le_of_eq hone, hwaits⟩

/-- A relay that waits for a line has looked into the queue. -/
theorem backlog_of_waiting {past : World} {before : Scene} (hbefore : past.scene? i = some before)
    (hnone : past.server.step ⟨i, .relay⟩ = none) {keyLoop : KeyLoop}
    (hstage : before.session.stage = .seated ticket keyLoop .waiting) :
    before.room.backlog ticket.place = [] := by
  obtain ⟨-, hsession, -, hroom, -⟩ := (past.scene?_eq_some_iff i before).1 hbefore
  simp only [Server.step, hsession, Option.map_eq_none_iff, Session.step, Session.relayStep, hstage,
    hroom] at hnone
  rcases hreceive : before.room.receive ticket.place with ⟨receipt, room⟩
  cases receipt with
  | waiting => exact (Room.present_of_receive (by rw [hreceive])).1
  | line text | closed | dropped => simp [Session.fetchLine, hreceive] at hnone

theorem Within.stalled {past next : World} {sooner : List Happening} {happening : Happening}
    {before after : Scene} (h : Within world i ticket sooner happening past next before after)
    (hscript : ∀ script, happening ≠ .stimulus (.rescript i script))
    (hstalled : before.session.screen.sink.stalled = true) :
    after.session.screen.sink.stalled = true
      ∧ ∀ task, drawFaults task after.events = drawFaults task before.events := by
  rcases scene_happen h.happen h.scene h.scene' with
    ⟨task, move, -, hmove, hsession, hevents, -⟩ | ⟨-, hevents, -, hscreen⟩
  · obtain ⟨hstill, hwell⟩ := (Session.doing_of_step hmove).stalled hstalled
    refine ⟨hsession ▸ hstill, fun task => ?_⟩
    rw [hevents, drawFaults_append, hwell, List.append_nil]
  · rw [hscreen hscript, hevents]
    exact ⟨hstalled, fun _ => rfl⟩

/-- A relay that is told that nothing will come is told so because the session has left. -/
theorem Within.not_present_of_receipt {past next : World} {sooner : List Happening}
    {happening : Happening} {before after : Scene}
    (h : Within world i ticket sooner happening past next before after) {keyLoop : KeyLoop}
    (hstage : before.session.stage = .seated ticket keyLoop .waiting) {receipt : Receipt}
    {room : Room} (hreceive : before.room.receive ticket.place = (receipt, room))
    (hroom : after.room = room) (hreceipt : receipt = .closed ∨ receipt = .dropped) :
    ¬ after.room.Present ticket := by
  rintro ⟨seat', hseat', -, hreg, -⟩
  obtain ⟨seat, hseat, -⟩ := h.reach.seatedIn _ _ _ hstage
  have hread : before.room.isRead ticket.place = true :=
    Bool.of_not_eq_false fun hdeaf =>
      nomatch ((h.reach.hears.seated _ _ _ hstage).deaf hdeaf).1
  obtain ⟨other, hother, hgone⟩ := Room.gone_of_isRead hseat hread hreceive hreceipt
  rw [← hroom] at hother
  obtain rfl := Option.some.inj (hseat'.symm.trans hother)
  exact nomatch hreg.symm.trans hgone

/-- A relay that moves over a connection that takes nothing holds what it held. -/
theorem Within.holds_of_move {past next : World} {sooner : List Happening} {before after : Scene}
    (h : Within world i ticket sooner (.move ⟨i, .relay⟩) past next before after)
    (hstalled : before.session.screen.sink.stalled = true) {keyLoop : KeyLoop} {relay : Relay}
    (hstage : before.session.stage = .seated ticket keyLoop relay) {lines : List String}
    (hholds : relay.Holds (before.room.backlog ticket.place) lines) :
    (∃ relay', after.session.stage = .seated ticket keyLoop relay'
        ∧ relay'.Holds (after.room.backlog ticket.place) lines)
      ∧ shownBy .relay after.events = shownBy .relay before.events
      ∧ Room.addressed ticket (past.issuedBy (.move ⟨i, .relay⟩)) = [] := by
  rcases scene_happen h.happen h.scene h.scene' with
    ⟨task, move, hmoves, hmove, hsession, hevents, hroom⟩ | ⟨hother, -⟩
  · obtain rfl : task = .relay := congrArg TaskRef.task (Happening.move.inj hmoves).symm
    obtain ⟨relay', hstage', hsilent, hnone, hdoes⟩ :=
      (Session.doing_of_step hmove).relay_of_stalled hstalled hstage
    refine ⟨⟨relay', hsession ▸ hstage', ?_⟩, ?_, ?_⟩
    · rw [hroom]
      rcases hdoes with ⟨rfl, receipt, hreceive, hreceipt⟩ | ⟨hbusy, hsame, hlines⟩
      · obtain ⟨hqueued, hle⟩ : before.room.backlog ticket.place = lines ∧ lines.length ≤ 1 := by
          rcases hholds with ⟨-, hqueued, hle⟩ | ⟨_, _, -, hline, -⟩
          · exact ⟨hqueued, hle⟩
          · exact nomatch hline
        rcases hreceipt with hclosed | hdropped | ⟨text, rfl, htext⟩
        · exact absurd h.present (h.not_present_of_receipt hstage hreceive hroom (Or.inl hclosed))
        · exact absurd h.present (h.not_present_of_receipt hstage hreceive hroom (Or.inr hdropped))
        · rw [Room.backlog_of_receive hreceive] at hqueued
          subst hqueued
          have hshort : (move.room.backlog ticket.place).length ≤ Outbox.capacity :=
            Nat.le_trans (Nat.le_of_succ_le_succ hle) (by decide)
          exact Or.inr ⟨text, _, rfl, htext, (List.take_of_length_le hshort).symm⟩
      · rw [hsame]
        rcases hholds with ⟨hwaiting, -⟩ | ⟨line, rest, hcons, hline, hqueued⟩
        · exact absurd hwaiting hbusy
        · exact Or.inr ⟨line, rest, hcons, hlines.trans hline, hqueued⟩
    · rw [hevents, shownBy_append, hnone, List.append_nil]
    · obtain ⟨-, hthis, -, hsame, -⟩ := (past.scene?_eq_some_iff i before).1 h.scene
      rw [← hsame] at hmove
      rw [issuedBy_move hthis hmove, operations, hsilent]
      rfl
  · exact absurd rfl (hother .relay)

/-- Where a session is behind a connection that takes nothing, when it has been sent some lines since
    an earlier scene. -/
structure HeldUp (earlier : Scene) (ticket : Ticket) (lines : List String) (scene : Scene) :
    Prop where
  stalled : scene.session.screen.sink.stalled = true
  unfailing : ∀ task, drawFaults task scene.events = drawFaults task earlier.events
  shown : shownBy .relay scene.events = shownBy .relay earlier.events
  holds : ∃ keyLoop relay, scene.session.stage = .seated ticket keyLoop relay
    ∧ relay.Holds (scene.room.backlog ticket.place) lines

/-- It stays there if it is sent one line at most, and only after the relay has run. -/
theorem Within.heldUp {past next : World} {sooner : List Happening} {happening : Happening}
    {before after : Scene} (h : Within world i ticket sooner happening past next before after)
    (hscript : ∀ script, happening ≠ .stimulus (.rescript i script)) {later : List Happening}
    (hkeeps : past.keepsUp i ticket (happening :: later) = true)
    (hheld : HeldUp scene ticket (Room.addressed ticket (world.issues sooner)) before) :
    HeldUp scene ticket (Room.addressed ticket (world.issues (sooner ++ [happening]))) after := by
  obtain ⟨hstalled, hwell, hshown, keyLoop, relay, hstage, hholds⟩ := hheld
  obtain ⟨hstill, hnofault⟩ := h.stalled hscript hstalled
  have hwell' := fun task => (hnofault task).trans (hwell task)
  by_cases hmove : happening = .move ⟨i, .relay⟩
  · subst hmove
    obtain ⟨⟨relay', hafter, hheld⟩, hnone, hnothing⟩ := h.holds_of_move hstalled hstage hholds
    refine ⟨hstill, hwell', hnone.trans hshown, keyLoop, relay', hafter, ?_⟩
    rw [h.addressed, hnothing, List.append_nil]
    exact hheld
  · obtain ⟨⟨keyLoop', relay', hafter, hrelay⟩, hnone⟩ := h.aside hmove hstage hholds.ne_absent
    refine ⟨hstill, hwell', hnone.trans hshown, keyLoop', relay', hafter, ?_⟩
    rw [h.addressed, h.backlog hmove hholds.length_queued_le]
    refine hholds.offer hrelay fun hnews => ?_
    obtain ⟨hone, hwaits⟩ := paced_of_keepsUp hkeeps hnews
    refine ⟨hone, ?_⟩
    rintro rfl
    exact backlog_of_waiting h.scene hwaits hstage

/-- Over a connection that takes nothing a relay that gets to run after each line holds one line more
    than the queue. -/
theorem heldUp_of_stalled (hrun : (start stamp picker).run history = some world)
    (hscene : world.scene? i = some scene) {keyLoop : KeyLoop}
    (hstage : scene.session.stage = .seated ticket keyLoop .waiting)
    (hempty : scene.room.backlog ticket.place = []) {burst : List Happening} {world' : World}
    {scene' : Scene} (hburst : world.run burst = some world')
    (hscene' : world'.scene? i = some scene') (hpresent : scene'.room.Present ticket)
    (hstalled : scene.session.screen.sink.stalled = true)
    (hscripts : ∀ script, .stimulus (.rescript i script) ∉ burst)
    (hkeeps : world.keepsUp i ticket burst = true) :
    HeldUp scene ticket (Room.addressed ticket (world.issues burst)) scene' := by
  refine invariant_of_present (P := fun sooner scene' => ∀ later, burst = sooner ++ later →
    HeldUp scene ticket (Room.addressed ticket (world.issues sooner)) scene')
    hrun hscene (Session.ticket?_of_stage hstage) ?_ ?_ hburst hscene' hpresent []
    (List.append_nil burst).symm
  · intro _ _
    exact ⟨hstalled, fun _ => rfl, rfl, keyLoop, .waiting, hstage,
      Or.inl ⟨rfl, hempty, Nat.zero_le _⟩⟩
  · intro sooner happening past next before after hwithin ih later hparts
    rw [List.append_assoc, List.singleton_append] at hparts
    have hscript : ∀ script, happening ≠ .stimulus (.rescript i script) := by
      rintro script rfl
      refine hscripts script ?_
      rw [hparts]
      exact List.mem_append_right _ List.mem_cons_self
    rw [hparts] at hkeeps
    exact hwithin.heldUp hscript (keepsUp_append hwithin.run hkeeps) (ih _ hparts)

end

end World

end LineChat
