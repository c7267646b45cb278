import LineChat.Proofs.Room.Online
import LineChat.Proofs.Session.Drawing

set_option autoImplicit false

/-! # How fresh a screen is

A prompt shows how many are online and how the line reads at the moment when it is asked for.
Whatever changes either of them is followed by another prompt: a key is, as its task goes on to draw
one, and so is somebody's coming or going, as there is something in the queue then. That need not be
the notice of it. Where the notice was not taken, the queue was full, and any line that the relay
takes out will do.

So as soon as nothing is left to be asked for, and nothing in the queue, the last thing that was
asked for is the prompt as it should be (`Fresh`). This goes for a session that reads and is in the
room, and as long as no drawing has failed. -/

namespace LineChat

/-! ## Ending with a prompt -/

/-- The last thing that the task is going to ask for is the prompt. -/
def Pen.EndsWithPrompt (pen : Pen) : Prop :=
  ∀ call, pen.calls.getLast? = some call → call = .prompt

namespace Pen

variable {pen pen' other : Pen} {screen screen' : Screen} {drawn : List Draw} {draw : Draw}
variable {online : Nat} {draft : String} {busy : Bool}

theorem EndsWithPrompt.congr (h : pen.EndsWithPrompt) (hcalls : pen'.calls = pen.calls) :
    pen'.EndsWithPrompt := by
  rw [EndsWithPrompt, hcalls]
  exact h

theorem EndsWithPrompt.called (h : pen.EndsWithPrompt)
    (hstep : pen.step online draft screen busy = some (.called pen')) : pen'.EndsWithPrompt := by
  obtain ⟨call, hcalls⟩ := calls_called hstep
  intro last hlast
  refine h last ?_
  rw [hcalls, List.getLast?_cons, hlast, Option.getD_some]

/-- The last call of all is that for a prompt, as things are at this moment. -/
theorem EndsWithPrompt.latest (h : pen.EndsWithPrompt)
    (hstep : pen.step online draft screen other.holds = some (.called pen'))
    (hline : pen.holds = false → other.inLine = false) (hlast : pen'.calls = []) :
    (asked drawn pen' other).getLast? = some (.prompt (Line.online online) draft) := by
  obtain ⟨last, hcalls⟩ := calls_called hstep
  rw [hlast] at hcalls
  obtain rfl := h last (by rw [hcalls]; rfl)
  obtain ⟨call, later, rfl, rfl⟩ := called_of_step hstep
  obtain ⟨rfl, rfl⟩ := List.cons.inj hcalls
  rw [asked_called .prompt (hline rfl), List.getLast?_concat]
  rfl

end Pen

/-! ## Being fresh -/

/-- A session that has nothing more to ask for has asked for the prompt as it should be. -/
structure Fresh (room : Room) (draft : String) (ticket : Ticket) (keyLoop : KeyLoop) (relay : Relay)
    (drawn : List Draw) : Prop where
  keysEnd : keyLoop.opens = false → keyLoop.pen.EndsWithPrompt
  relayEnds : relay.pen.EndsWithPrompt
  latest : keyLoop.readsOn = true → keyLoop.opens = false → ¬ room.Gone ticket.place →
    keyLoop.pen.calls = [] → relay.pen.calls = [] → room.backlog ticket.place = [] →
      (Pen.asked drawn keyLoop.pen relay.pen).getLast?
        = some (.prompt (Line.online room.online) draft)

namespace Fresh

variable {room : Room} {draft draft' : String} {ticket : Ticket} {keyLoop keyLoop' : KeyLoop}
variable {relay relay' : Relay} {drawn drawn' : List Draw}

/-- What was asked for is drawn, and nothing else is asked for. -/
theorem goOn (h : Fresh room draft ticket keyLoop relay drawn)
    (hasked : Pen.asked drawn' keyLoop'.pen relay'.pen = Pen.asked drawn keyLoop.pen relay.pen)
    (hkeys : keyLoop'.pen.calls = keyLoop.pen.calls) (hrelay : relay'.pen.calls = relay.pen.calls)
    (hreads : keyLoop'.readsOn = keyLoop.readsOn) (hopens : keyLoop'.opens = keyLoop.opens) :
    Fresh room draft ticket keyLoop' relay' drawn' where
  keysEnd := fun hthis => (h.keysEnd (hopens ▸ hthis)).congr hkeys
  relayEnds := h.relayEnds.congr hrelay
  latest := by
    rw [hasked, hkeys, hrelay, hreads, hopens]
    exact h.latest

/-- The key task has something to draw, and the prompt after it. -/
theorem keysDraw (h : Fresh room draft ticket keyLoop relay drawn) {room' : Room} {pen : Pen}
    {aim : Aim} (hlast : pen.calls.getLast? = some .prompt) :
    Fresh room' draft' ticket (.drawing pen aim) relay drawn' where
  keysEnd := fun _ _ hcall => (Option.some.inj (hlast.symm.trans hcall)).symm
  relayEnds := h.relayEnds
  latest := by
    intro _ _ _ hnone
    rw [show pen.calls = [] from hnone] at hlast
    exact nomatch hlast

/-- The key task is about to leave. -/
theorem keysLeave (h : Fresh room draft ticket keyLoop relay drawn) {room' : Room}
    (hpen : keyLoop'.pen = .ready []) (hout : keyLoop'.readsOn = false) :
    Fresh room' draft' ticket keyLoop' relay drawn' where
  keysEnd := fun _ => by
    rw [hpen]
    nofun
  relayEnds := h.relayEnds
  latest := fun hreads => nomatch hreads.symm.trans hout

end Fresh

/-! ## Moves -/

/-- A session with a seat is as fresh as it should be. -/
def Session.Fresh (session : Session) (room : Room) (events : List Event) : Prop :=
  ∀ ticket keyLoop relay, session.stage = .seated ticket keyLoop relay →
    LineChat.Fresh room session.draft.text ticket keyLoop relay (drawn events)

namespace Session

theorem Fresh.of_stage {session : Session} {room : Room} {events : List Event} {ticket : Ticket}
    {keyLoop : KeyLoop} {relay : Relay} (hstage : session.stage = .seated ticket keyLoop relay)
    (h : LineChat.Fresh room session.draft.text ticket keyLoop relay (drawn events)) :
    session.Fresh room events :=
  forall_stage
    (P := fun ticket keyLoop relay =>
      LineChat.Fresh room session.draft.text ticket keyLoop relay (drawn events))
    hstage h

/-- Events that have nothing to do with drawing change nothing. -/
theorem Fresh.silent {session : Session} {room : Room} {events news : List Event}
    (h : session.Fresh room events) (hnews : drawn news = []) :
    session.Fresh room (events ++ news) := by
  rw [Fresh, drawn_append_of_eq_nil events hnews]
  exact h

theorem Fresh.doing {session : Session} {room : Room} {task : Task} {move : Move}
    {events : List Event} (h : session.Fresh room events) (horderly : session.Orderly)
    (hhears : session.Hears room events) (hseated : session.SeatedIn room)
    (hwell : ∀ task, drawFaults task (events ++ move.events) = [])
    (hdoing : session.Doing room task move) :
    move.session.Fresh move.room (events ++ move.events) := by
  have hwell' : ∀ task, drawFaults task move.events = [] := fun task =>
    (List.append_eq_nil_iff.1 (drawFaults_append .. ▸ hwell task)).2
  have horderly' := horderly.doing hdoing
  have hhears' := hhears.doing hseated hdoing
  -- the session, as the record goes on without a drawing
  have hstill : ∀ {ticket keyLoop relay}, session.stage = .seated ticket keyLoop relay →
      drawn move.events = [] →
      LineChat.Fresh room session.draft.text ticket keyLoop relay (drawn (events ++ move.events)) :=
    fun hstage hnews => h.silent hnews _ _ _ hstage
  cases hdoing with
  | @answered kind =>
      have hsilent : session.Fresh room (events ++ [.replied kind kind.granted]) := h.silent rfl
      exact hsilent
  | deserted =>
      have hsilent : session.Fresh room (events ++ [.requestsEnded]) := h.silent rfl
      exact hsilent
  | turnedAway => exact fun _ _ _ hstage => nomatch hstage
  | joined => exact .of_stage rfl ⟨nofun, nofun, fun _ hopens => nomatch hopens⟩
  | @keysCalled ticket pen pen' aim relay hstage hpen =>
      have hbefore := hstill hstage rfl
      rw [← relay.holds_pen] at hpen
      refine .of_stage rfl ⟨fun hopens => ?_, hbefore.relayEnds, fun _ hopens _ hnone _ _ => ?_⟩
      · exact (hbefore.keysEnd (KeyLoop.opens_drawing pen pen' aim ▸ hopens)).called hpen
      · have hends := hbefore.keysEnd (KeyLoop.opens_drawing pen pen' aim ▸ hopens)
        exact hends.latest hpen (horderly _ _ _ hstage).relay_ready hnone
  | @keysHeldUp ticket pen pen' aim relay screen hstage hpen =>
      exact .of_stage rfl ((hstill hstage rfl).goOn (Pen.asked_heldUp hpen) (Pen.calls_heldUp hpen)
        rfl (KeyLoop.readsOn_drawing pen pen' aim) (KeyLoop.opens_drawing pen pen' aim))
  | @keysDrew ticket pen pen' aim relay screen draw hstage hpen =>
      have hfree := (horderly _ _ _ hstage).free_of_keys (Pen.holds_of_drew hpen)
      refine .of_stage rfl ((h _ _ _ hstage).goOn ?_ (Pen.calls_drew hpen) ?_
        (KeyLoop.readsOn_drawing pen pen' aim) (KeyLoop.opens_drawing pen pen' aim))
      · rw [drawn_append, relay.pen_admitted]
        exact Pen.asked_drew hfree hpen
      · rw [relay.pen_admitted, Pen.calls_admitted]
  | keysFailed => exact nomatch hwell' .keys
  | relayFailed => exact nomatch hwell' .relay
  | opened =>
      exact .of_stage rfl ⟨fun _ _ hcall => (Option.some.inj hcall).symm, nofun,
        fun _ _ _ hnone => nomatch hnone⟩
  | ready hstage | readOn hstage | ignored hstage | relayReady hstage =>
      exact .of_stage rfl ((hstill hstage rfl).goOn rfl rfl rfl rfl rfl)
  | tookLeave hstage | closedBlank hstage =>
      exact .of_stage rfl ((hstill hstage rfl).keysLeave rfl rfl)
  | left hstage => exact .of_stage rfl ((hstill hstage (drawn_map_room _)).keysLeave rfl rfl)
  | ended hstage => exact .of_stage rfl ((hstill hstage (drawn_closing ..)).keysLeave rfl rfl)
  | enteredBlank hstage | acknowledged hstage | trimmed hstage | appended hstage
  | readFailed hstage => exact .of_stage rfl ((hstill hstage rfl).keysDraw rfl)
  | entered hstage | closed hstage =>
      exact .of_stage rfl ((hstill hstage (drawn_map_room _)).keysDraw rfl)
  | fetched hstage =>
      exact .of_stage rfl ⟨(hstill hstage rfl).keysEnd, fun _ hcall => (Option.some.inj hcall).symm,
        fun _ _ _ _ hnone => nomatch hnone⟩
  | relayEnded hstage =>
      -- the relay of a session that is in the room does not come to its end
      have hgone := ((hhears'.seated _ _ _ rfl).finished rfl).resolve_right fun hsome =>
        hsome (hwell .relay)
      exact .of_stage rfl ⟨(hstill hstage rfl).keysEnd, nofun, fun _ _ hin => absurd hgone hin⟩
  | @relayCalled ticket keyLoop pen pen' hstage hpen =>
      have hbefore := hstill hstage rfl
      rw [← keyLoop.holds_pen] at hpen
      refine .of_stage rfl ⟨hbefore.keysEnd, hbefore.relayEnds.called hpen,
        fun _ _ _ _ hnone _ => ?_⟩
      rw [(horderly' _ _ _ rfl).asked_comm]
      exact hbefore.relayEnds.latest hpen (horderly _ _ _ hstage).keys_ready hnone
  | @relayHeldUp ticket keyLoop pen pen' screen hstage hpen =>
      refine .of_stage rfl ((hstill hstage rfl).goOn ?_ rfl (Pen.calls_heldUp hpen) rfl rfl)
      rw [(horderly' _ _ _ rfl).asked_comm, (horderly _ _ _ hstage).asked_comm]
      exact Pen.asked_heldUp hpen
  | @relayDrew ticket keyLoop pen pen' screen draw hstage hpen =>
      have hfree := (horderly _ _ _ hstage).free_of_relay (Pen.holds_of_drew hpen)
      refine .of_stage rfl ((h _ _ _ hstage).goOn ?_ ?_ (Pen.calls_drew hpen)
        (KeyLoop.readsOn_admitted screen keyLoop) (KeyLoop.opens_admitted screen keyLoop))
      · rw [(horderly' _ _ _ rfl).asked_comm, (horderly _ _ _ hstage).asked_comm, drawn_append,
          keyLoop.pen_admitted]
        exact Pen.asked_drew hfree hpen
      · rw [keyLoop.pen_admitted, Pen.calls_admitted]

end Session

namespace Scene

/-- As long as no drawing has failed, a session is as fresh as it should be. -/
theorem Reachable.fresh {scene : Scene} (h : scene.Reachable)
    (hwell : ∀ task, drawFaults task scene.events = []) :
    scene.session.Fresh scene.room scene.events := by
  revert hwell
  refine h.invariant (P := fun scene => (∀ task, drawFaults task scene.events = []) →
    scene.session.Fresh scene.room scene.events) ?_ ?_
  · exact fun _ _ _ _ _ _ _ _ _ _ hstage => nomatch hstage
  · intro scene scene' hscene hbefore hstep hwell
    cases hstep with
    | moved hmove =>
        have hwell' : ∀ task, drawFaults task scene.events = [] := fun task =>
          (List.append_eq_nil_iff.1 (drawFaults_append .. ▸ hwell task)).1
        exact (hbefore hwell').doing hscene.orderly hscene.hears hscene.seatedIn hwell
          (Session.doing_of_step hmove)
    | disturbed op hreads =>
        intro ticket keyLoop relay hstage
        obtain ⟨hkeys, hrelay, hlatest⟩ := hbefore hwell _ _ _ hstage
        refine ⟨hkeys, hrelay, fun hon hopens hin hnone hnone' hempty => ?_⟩
        have hother := hreads ticket (Session.ticket?_of_stage hstage)
        have hhears := (hscene.step (.disturbed op hreads)).hears.seated _ _ _ hstage
        -- the queue is read, so that nothing was offered to it, and nothing was there before
        have hread : (scene.room.perform op).room.isRead ticket.place = true :=
          Bool.of_not_eq_false fun hdeaf => (hhears.deaf hdeaf).2 hon (hwell .relay)
        have hbacklog : scene.room.backlog ticket.place = [] := by
          have hhang : op ≠ .hangUp ticket.place := by
            rintro rfl
            exact hother rfl
          have hlaw := Room.taken_append_backlog hhang scene.room
          rw [Room.taken_of_reads?_ne hother, List.nil_append] at hlaw
          exact (List.append_eq_nil_iff.1 (hlaw.symm.trans hempty)).1
        have hin' : ¬ scene.room.Gone ticket.place := fun hgone => hin (hgone.perform op).2
        have hlast := hlatest hon hopens hin' hnone hnone' hbacklog
        rw [← Room.online_perform hread hin hempty] at hlast
        exact hlast
    | clock _ =>
        intro ticket keyLoop relay hstage
        obtain ⟨hkeys, hrelay, hlatest⟩ := hbefore hwell _ _ _ hstage
        exact ⟨hkeys, hrelay, hlatest⟩
    | asked _ | askedAll | fed _ | rescripted _ => exact hbefore hwell

end Scene

end LineChat
