import LineChat.Proofs.Screen.Running
import LineChat.Proofs.Session.Scene

set_option autoImplicit false

/-! # The terminal of a session

Four things hold of every scene.

* The two tasks share the terminal: they never hold it both, and whoever stands in line waits for the
  other one, who holds it (`Orderly`).
* The connection follows the last script that it was given (`script_mem`), and on a connection with
  which nothing goes wrong no drawing fails (`no_drawFailed`).
* The connection is shut down when the session ends, once and not before, and then nothing is left
  to do (`Winding`). -/

namespace LineChat

/-! ## Sharing the terminal -/

/-- Whether the task stands in line for the terminal. -/
def Pen.inLine : Pen → Bool
  | queued .. => true
  | ready _ | writing .. => false

@[inherit_doc Pen.inLine]
def KeyLoop.inLine : KeyLoop → Bool
  | drawing pen _ => pen.inLine
  | reading | leaving _ | draining _ | ended _ => false

@[inherit_doc Pen.inLine]
def Relay.inLine : Relay → Bool
  | drawing pen => pen.inLine
  | absent | waiting | finished => false

/-- The terminal is held by one task at most, and nobody waits for it without need. -/
structure Orderly (keyLoop : KeyLoop) (relay : Relay) : Prop where
  keysWait : keyLoop.inLine = true → relay.holds = true
  relayWaits : relay.inLine = true → keyLoop.holds = true
  one : keyLoop.holds = true → relay.holds = false

section
variable {keyLoop keyLoop' : KeyLoop} {relay relay' : Relay}

/-- A task that has nothing to do with the terminal does not disturb the other one. -/
theorem Orderly.keys_idle (h : Orderly keyLoop relay) (hholds : keyLoop.holds = false)
    (hholds' : keyLoop'.holds = false) (hline' : keyLoop'.inLine = false) :
    Orderly keyLoop' relay where
  keysWait := fun hline => by simp [hline'] at hline
  relayWaits := fun hline => by simp [h.relayWaits hline] at hholds
  one := fun hthis => by simp [hholds'] at hthis

theorem Orderly.relay_idle (h : Orderly keyLoop relay) (hholds : relay.holds = false)
    (hholds' : relay'.holds = false) (hline' : relay'.inLine = false) : Orderly keyLoop relay' where
  keysWait := fun hline => by simp [h.keysWait hline] at hholds
  relayWaits := fun hline => by simp [hline'] at hline
  one := fun _ => hholds'

theorem inLine_admitted (pen : Pen) (screen : Screen) : (pen.admitted screen).inLine = false := by
  cases pen <;> rfl

/-- A task that lets the terminal go leaves it to the other one. -/
theorem Orderly.keys_done (screen : Screen) (hholds' : keyLoop'.holds = false)
    (hline' : keyLoop'.inLine = false) : Orderly keyLoop' (relay.admitted screen) where
  keysWait := fun hline => by simp [hline'] at hline
  relayWaits := by
    intro hline
    cases relay with
    | drawing pen => simp [Relay.admitted, Relay.inLine, inLine_admitted] at hline
    | absent | waiting | finished => simp [Relay.admitted, Relay.inLine] at hline
  one := fun hthis => by simp [hholds'] at hthis

theorem Orderly.relay_done (screen : Screen) (hholds' : relay'.holds = false)
    (hline' : relay'.inLine = false) : Orderly (keyLoop.admitted screen) relay' where
  keysWait := by
    intro hline
    cases keyLoop with
    | drawing pen aim => simp [KeyLoop.admitted, KeyLoop.inLine, inLine_admitted] at hline
    | reading | leaving _ | draining _ | ended _ =>
        simp [KeyLoop.admitted, KeyLoop.inLine] at hline
  relayWaits := fun hline => by simp [hline'] at hline
  one := fun _ => hholds'

variable {online : Nat} {draft : String} {screen : Screen} {pen pen' : Pen} {aim : Aim}

/-- Who asks for the terminal gets it if it is free, and else gets in line. -/
theorem Orderly.keys_called (h : Orderly (.drawing pen aim) relay)
    (hpen : pen.step online draft screen relay.holds = some (.called pen')) :
    Orderly (.drawing pen' aim) relay := by
  obtain ⟨call, later, rfl, rfl⟩ := Pen.called_of_step hpen
  have hfree : relay.inLine ≠ true := fun hline => nomatch h.relayWaits hline
  cases hbusy : relay.holds with
  | true => exact ⟨fun _ => hbusy, fun hline => absurd hline hfree, nofun⟩
  | false => exact ⟨nofun, fun hline => absurd hline hfree, fun _ => hbusy⟩

theorem Orderly.relay_called (h : Orderly keyLoop (.drawing pen))
    (hpen : pen.step online draft screen keyLoop.holds = some (.called pen')) :
    Orderly keyLoop (.drawing pen') := by
  obtain ⟨call, later, rfl, rfl⟩ := Pen.called_of_step hpen
  have hfree : keyLoop.inLine ≠ true := fun hline => nomatch h.keysWait hline
  cases hbusy : keyLoop.holds with
  | true => exact ⟨fun hline => absurd hline hfree, fun _ => hbusy, fun _ => rfl⟩
  | false => exact ⟨fun hline => absurd hline hfree, nofun, fun hthis => by simp [hbusy] at hthis⟩

end

/-- The tasks of a session share the terminal. -/
def Session.Orderly (session : Session) : Prop :=
  ∀ ticket keyLoop relay, session.stage = .seated ticket keyLoop relay →
    LineChat.Orderly keyLoop relay

theorem Session.Orderly.of_stage {session : Session} {ticket : Ticket} {keyLoop : KeyLoop}
    {relay : Relay} (hstage : session.stage = .seated ticket keyLoop relay)
    (h : LineChat.Orderly keyLoop relay) : session.Orderly :=
  forall_stage (P := fun _ keyLoop relay => LineChat.Orderly keyLoop relay) hstage h

theorem Session.Orderly.doing {session : Session} {room : Room} {task : Task} {move : Move}
    (h : session.Orderly) (hdoing : session.Doing room task move) : move.session.Orderly := by
  cases hdoing with
  | answered | deserted => exact h
  | joined => exact .of_stage rfl ⟨nofun, nofun, nofun⟩
  | turnedAway => exact fun _ _ _ hstage => nomatch hstage
  | keysCalled hstage hpen => exact .of_stage rfl ((h _ _ _ hstage).keys_called hpen)
  | keysHeldUp hstage hpen =>
      obtain ⟨draw, strokes, strokes', later, rfl, rfl, -⟩ := Pen.heldUp_of_step hpen
      have horderly := h _ _ _ hstage
      exact .of_stage rfl ⟨nofun, fun _ => rfl, fun _ => horderly.one rfl⟩
  | keysDrew hstage hpen =>
      obtain ⟨strokes, later, rfl, rfl, -⟩ := Pen.drew_of_step hpen
      exact .of_stage rfl (.keys_done _ rfl rfl)
  | keysFailed => exact .of_stage rfl (.keys_done _ rfl rfl)
  | opened => exact .of_stage rfl ⟨nofun, nofun, fun _ => rfl⟩
  | ready hstage | tookLeave hstage | readOn hstage | enteredBlank hstage | entered hstage
  | acknowledged hstage | trimmed hstage | appended hstage | ignored hstage | closedBlank hstage
  | closed hstage | readFailed hstage | left hstage | ended hstage =>
      exact .of_stage rfl ((h _ _ _ hstage).keys_idle rfl rfl rfl)
  | fetched hstage | relayEnded hstage | relayReady hstage =>
      exact .of_stage rfl ((h _ _ _ hstage).relay_idle rfl rfl rfl)
  | relayCalled hstage hpen => exact .of_stage rfl ((h _ _ _ hstage).relay_called hpen)
  | relayHeldUp hstage hpen =>
      obtain ⟨draw, strokes, strokes', later, rfl, rfl, -⟩ := Pen.heldUp_of_step hpen
      have horderly := h _ _ _ hstage
      exact .of_stage rfl ⟨fun _ => rfl, nofun, horderly.one⟩
  | relayDrew hstage hpen =>
      obtain ⟨strokes, later, rfl, rfl, -⟩ := Pen.drew_of_step hpen
      exact .of_stage rfl (.relay_done _ rfl rfl)
  | relayFailed => exact .of_stage rfl (.relay_done _ rfl rfl)

/-- In every scene the tasks of the session share the terminal. -/
theorem Scene.Reachable.orderly {scene : Scene} (h : scene.Reachable) : scene.session.Orderly := by
  refine h.invariant (P := fun scene => scene.session.Orderly) ?_ ?_
  · exact fun _ _ _ _ _ _ _ _ _ hstage => nomatch hstage
  · intro scene scene' _ hbefore hstep
    cases hstep with
    | moved hmove => exact hbefore.doing (Session.doing_of_step hmove)
    | disturbed _ _ | clock _ | asked _ | askedAll | fed _ | rescripted _ => exact hbefore

/-! ## The connection -/

/-- The terminal after a step of a pen, where the pen has written. -/
def Pen.Move.screen? : Pen.Move → Option Screen
  | heldUp _ screen | drew _ _ screen | failed _ screen => some screen
  | called _ | finished => none

theorem Pen.kept_of_step {online : Nat} {draft : String} {screen screen' : Screen} {busy : Bool}
    {pen : Pen} {move : Pen.Move} (h : pen.step online draft screen busy = some move)
    (hscreen : move.screen? = some screen') :
    screen'.sink.script = screen.sink.script
      ∧ screen'.sink.shutdowns = screen.sink.shutdowns := by
  have hkept : ∀ {strokes drawing}, screen.run strokes = (drawing, screen') →
      screen'.sink.script = screen.sink.script
        ∧ screen'.sink.shutdowns = screen.sink.shutdowns := by
    intro strokes drawing hrun
    have hkept := screen.kept_run strokes
    rwa [hrun] at hkept
  cases move with
  | called _ | finished => exact nomatch hscreen
  | heldUp pen' screen'' =>
      obtain rfl := Option.some.inj hscreen
      obtain ⟨_, _, _, _, -, -, -, hrun⟩ := heldUp_of_step h
      exact hkept hrun
  | drew draw pen' screen'' =>
      obtain rfl := Option.some.inj hscreen
      obtain ⟨_, _, -, -, -, hrun⟩ := drew_of_step h
      exact hkept hrun
  | failed fault screen'' =>
      obtain rfl := Option.some.inj hscreen
      obtain ⟨_, _, _, -, -, hrun⟩ := failed_of_step h
      exact hkept hrun

theorem Session.Doing.script_eq {session : Session} {room : Room} {task : Task} {move : Move}
    (h : session.Doing room task move) :
    move.session.screen.sink.script = session.screen.sink.script := by
  cases h with
  | keysHeldUp hstage hpen | keysDrew hstage hpen | keysFailed hstage hpen
  | relayHeldUp hstage hpen | relayDrew hstage hpen | relayFailed hstage hpen =>
      exact (Pen.kept_of_step hpen rfl).1
  | _ => rfl

theorem Scene.Reachable.script_mem {scene : Scene} (h : scene.Reachable) :
    scene.session.screen.sink.script ∈ scene.given.scripts := by
  refine h.invariant (P := fun scene => scene.session.screen.sink.script ∈ scene.given.scripts)
    ?_ ?_
  · exact fun _ _ _ _ _ _ => List.mem_singleton_self _
  · intro scene scene' _ hbefore hstep
    cases hstep with
    | moved hmove => exact (Session.doing_of_step hmove).script_eq ▸ hbefore
    | disturbed _ _ | clock _ | asked _ | askedAll | fed _ => exact hbefore
    | rescripted script => exact List.mem_append_right _ (List.mem_singleton_self _)

theorem Session.Doing.no_drawFailed {session : Session} {room : Room} {task : Task} {move : Move}
    (h : session.Doing room task move) (hwell : session.screen.sink.script.Faultless)
    (task' : Task) (fault : IoFault) : .drawFailed task' fault ∉ move.events := by
  cases h with
  | keysFailed hstage hpen | relayFailed hstage hpen =>
      obtain ⟨_, _, _, -, -, hrun⟩ := Pen.failed_of_step hpen
      exact absurd hrun (Screen.run_ne_failed hwell _ _ _)
  | joined | entered | left => exact not_mem_map_room _ (by simp)
  | closed =>
      intro hmem
      exact not_mem_map_room _ (by simp) ((List.mem_cons.1 hmem).resolve_left nofun)
  | ended => cases session.screen.shutdown.1 <;> simp
  | answered | deserted | turnedAway | keysCalled | keysHeldUp | keysDrew | opened | ready
  | tookLeave | readOn | enteredBlank | acknowledged | trimmed | appended | ignored | closedBlank
  | readFailed | fetched | relayEnded | relayCalled | relayHeldUp | relayDrew | relayReady => simp

/-- As long as nothing goes wrong with the connection, no drawing fails. -/
theorem Scene.Reachable.no_drawFailed {scene : Scene} (h : scene.Reachable)
    (hwell : ∀ script ∈ scene.given.scripts, script.Faultless) (task : Task) (fault : IoFault) :
    .drawFailed task fault ∉ scene.events := by
  revert hwell
  refine h.invariant (P := fun scene => (∀ script ∈ scene.given.scripts, script.Faultless) →
    .drawFailed task fault ∉ scene.events) ?_ ?_
  · exact fun _ _ _ _ _ _ _ => List.not_mem_nil
  · intro scene scene' hscene hbefore hstep hwell
    cases hstep with
    | moved hmove =>
        have hthis := (Session.doing_of_step hmove).no_drawFailed (hwell _ hscene.script_mem)
        intro hmem
        rcases List.mem_append.1 hmem with hmem | hmem
        · exact hbefore hwell hmem
        · exact hthis task fault hmem
    | disturbed _ _ | clock _ | asked _ | askedAll | fed _ => exact hbefore hwell
    | rescripted script =>
        exact hbefore fun script hmem => hwell script (List.mem_append_left _ hmem)

/-! ## The end -/

/-- Whether the session has ended. -/
def Session.isOver (session : Session) : Bool :=
  match session.stage with
  | .seated _ (.ended _) _ => true
  | .lobby | .turnedAway | .seated .. => false

/-- The connection is shut down with the end of the session, and then nothing is left to do. -/
structure Session.Winding (session : Session) : Prop where
  ended : ∀ ticket outcome relay, session.stage = .seated ticket (.ended outcome) relay →
    relay.isOver = true ∧ session.requests.attended = false ∧ session.screen.sink.shutdowns = 1
  unended : session.isOver = false → session.screen.sink.shutdowns = 0

namespace Session

theorem winding_of_open {session : Session} (hopen : session.isOver = false)
    (hnone : session.screen.sink.shutdowns = 0) : session.Winding where
  ended := fun _ _ _ hstage => by simp [isOver, hstage] at hopen
  unended := fun _ => hnone

theorem isOver_of_stage {session session' : Session} {ticket : Ticket} {keyLoop : KeyLoop}
    {relay relay' : Relay} (h : session.isOver = false)
    (hstage : session.stage = .seated ticket keyLoop relay)
    (hstage' : session'.stage = .seated ticket keyLoop relay'
      ∨ ∃ screen, session'.stage = .seated ticket (keyLoop.admitted screen) relay') :
    session'.isOver = false := by
  cases keyLoop with
  | ended outcome => simp [isOver, hstage] at h
  | drawing _ _ | reading | leaving _ | draining _ =>
      rcases hstage' with hstage' | ⟨screen, hstage'⟩ <;>
        simp [isOver, hstage', KeyLoop.admitted]

/-- A session that has ended makes no more moves. -/
theorem Winding.isOver_of_doing {session : Session} (h : session.Winding) {room : Room}
    {task : Task} {move : Move} (hdoing : session.Doing room task move) :
    session.isOver = false := by
  have hrelay : ∀ {ticket keyLoop relay}, session.stage = .seated ticket keyLoop relay →
      relay.isOver = false → session.isOver = false := by
    intro ticket keyLoop relay hstage hrelay
    cases keyLoop with
    | ended outcome => simp [(h.ended _ _ _ hstage).1] at hrelay
    | drawing _ _ | reading | leaving _ | draining _ => simp [isOver, hstage]
  cases hdoing with
  | answered hattended | deserted hattended =>
      cases hstage : session.stage with
      | lobby | turnedAway => simp [isOver, hstage]
      | seated ticket keyLoop relay =>
          cases keyLoop with
          | ended outcome => simp [(h.ended _ _ _ hstage).2.1] at hattended
          | drawing _ _ | reading | leaving _ | draining _ => simp [isOver, hstage]
  | fetched hstage | relayEnded hstage | relayCalled hstage | relayHeldUp hstage
  | relayDrew hstage | relayFailed hstage | relayReady hstage => exact hrelay hstage rfl
  | joined hstage | turnedAway hstage | keysCalled hstage | keysHeldUp hstage | keysDrew hstage
  | keysFailed hstage | opened hstage | ready hstage | tookLeave hstage | readOn hstage
  | enteredBlank hstage | entered hstage | acknowledged hstage | trimmed hstage | appended hstage
  | ignored hstage | closedBlank hstage | closed hstage | readFailed hstage | left hstage
  | ended hstage => simp [isOver, hstage]

/-- A move either leaves the session open and the connection too, or it is the last one and does all
    that is due at the end. -/
theorem Doing.open_or_ended {session : Session} {room : Room} {task : Task} {move : Move}
    (h : session.Doing room task move) (hopen : session.isOver = false) :
    (move.session.isOver = false ∧ .shutDown ∉ move.events
        ∧ move.session.screen.sink.shutdowns = session.screen.sink.shutdowns)
      ∨ ∃ ticket outcome relay fault?, move.session.stage = .seated ticket (.ended outcome) relay
        ∧ relay.isOver = true ∧ move.session.requests.attended = false
        ∧ move.events = ticket.closing outcome fault?
        ∧ move.session.screen.sink.shutdowns = session.screen.sink.shutdowns + 1 := by
  cases h with
  | ended hstage hover => exact Or.inr ⟨_, _, _, _, rfl, hover, rfl, rfl, rfl⟩
  | answered | deserted => exact Or.inl ⟨hopen, by simp, rfl⟩
  | turnedAway | keysCalled | opened | ready | tookLeave | readOn | enteredBlank | acknowledged
  | trimmed | appended | ignored | closedBlank | readFailed => exact Or.inl ⟨rfl, by simp, rfl⟩
  | joined | entered | left => exact Or.inl ⟨rfl, not_mem_map_room _ (by simp), rfl⟩
  | closed =>
      refine Or.inl ⟨rfl, fun hmem => ?_, rfl⟩
      exact not_mem_map_room _ (by simp) ((List.mem_cons.1 hmem).resolve_left nofun)
  | keysHeldUp hstage hpen | keysDrew hstage hpen | keysFailed hstage hpen =>
      exact Or.inl ⟨rfl, by simp, (Pen.kept_of_step hpen rfl).2⟩
  | fetched hstage | relayEnded hstage | relayCalled hstage | relayReady hstage =>
      exact Or.inl ⟨isOver_of_stage hopen hstage (Or.inl rfl), by simp, rfl⟩
  | relayHeldUp hstage hpen =>
      exact Or.inl ⟨isOver_of_stage hopen hstage (Or.inl rfl), by simp,
        (Pen.kept_of_step hpen rfl).2⟩
  | relayDrew hstage hpen | relayFailed hstage hpen =>
      exact Or.inl ⟨isOver_of_stage hopen hstage (Or.inr ⟨_, rfl⟩), by simp,
        (Pen.kept_of_step hpen rfl).2⟩

theorem Winding.doing {session : Session} {room : Room} {task : Task} {move : Move}
    (h : session.Winding) (hdoing : session.Doing room task move) : move.session.Winding := by
  have hopen := h.isOver_of_doing hdoing
  have hnone := h.unended hopen
  rcases hdoing.open_or_ended hopen with
    ⟨hstill, -, hshut⟩ | ⟨_, _, _, _, hstage, hover, hattended, -, hshut⟩
  · exact winding_of_open hstill (hshut.trans hnone)
  · refine ⟨fun _ _ _ hstage' => ?_, fun hstill => ?_⟩
    · obtain ⟨-, -, rfl⟩ := Stage.seated.inj (hstage.symm.trans hstage')
      exact ⟨hover, hattended, hshut.trans (congrArg (· + 1) hnone)⟩
    · simp [isOver, hstage] at hstill

end Session

namespace Scene

/-- In every scene the connection has been shut down if the session has ended, and only then. -/
theorem Reachable.winding {scene : Scene} (h : scene.Reachable) : scene.session.Winding := by
  refine h.invariant (P := fun scene => scene.session.Winding) ?_ ?_
  · exact fun _ _ _ _ _ _ => Session.winding_of_open rfl rfl
  · intro scene scene' _ hbefore hstep
    cases hstep with
    | moved hmove => exact hbefore.doing (Session.doing_of_step hmove)
    | disturbed _ _ | clock _ | fed _ => exact ⟨hbefore.ended, hbefore.unended⟩
    | askedAll => exact ⟨hbefore.ended, hbefore.unended⟩
    | rescripted _ => exact ⟨hbefore.ended, hbefore.unended⟩
    | asked kind =>
        -- a session that has ended does not attend to requests any more
        refine ⟨fun ticket outcome relay hstage => ?_, hbefore.unended⟩
        obtain ⟨hover, hattended, hshut⟩ := hbefore.ended ticket outcome relay hstage
        refine ⟨hover, ?_, hshut⟩
        show (scene.session.requests.push kind).2.attended = false
        simp [RequestQueue.push, hattended]

/-- The record says that the connection was shut down if it was, and says so once, at the end. -/
structure Closed (scene : Scene) : Prop where
  unended : scene.session.isOver = false → .shutDown ∉ scene.events
  ended : ∀ ticket outcome relay, scene.session.stage = .seated ticket (.ended outcome) relay →
    ∃ before fault?, scene.events = before ++ ticket.closing outcome fault? ∧ .shutDown ∉ before

theorem Reachable.closed {scene : Scene} (h : scene.Reachable) : scene.Closed := by
  refine h.invariant ?_ ?_
  · exact fun _ _ _ _ _ _ => ⟨fun _ => List.not_mem_nil, fun _ _ _ hstage => nomatch hstage⟩
  · intro scene scene' hscene hbefore hstep
    cases hstep with
    | disturbed _ _ | clock _ | asked _ | askedAll | fed _ | rescripted _ =>
        exact ⟨hbefore.unended, hbefore.ended⟩
    | @moved _ move hmove =>
        have hdoing := Session.doing_of_step hmove
        have hopen := hscene.winding.isOver_of_doing hdoing
        have hnone := hbefore.unended hopen
        rcases hdoing.open_or_ended hopen with
          ⟨hstill, hquiet, -⟩ | ⟨_, _, _, fault?, hstage, -, -, hevents, -⟩
        · refine ⟨fun _ hmem => ?_, fun _ _ _ hstage => ?_⟩
          · exact (List.mem_append.1 hmem).elim hnone hquiet
          · have hover : move.session.isOver = true := by
              rw [Session.isOver, show move.session.stage = _ from hstage]
            exact absurd (hstill.symm.trans hover) nofun
        · refine ⟨fun hstill => ?_, fun _ _ _ hstage' => ?_⟩
          · have hover : move.session.isOver = true := by rw [Session.isOver, hstage]
            exact absurd (hover.symm.trans hstill) nofun
          · obtain ⟨rfl, hkeys, -⟩ := Stage.seated.inj (hstage.symm.trans hstage')
            obtain rfl := KeyLoop.ended.inj hkeys
            exact ⟨scene.events, fault?, congrArg (scene.events ++ ·) hevents, hnone⟩

/-- Nothing has become of a session from one scene to the other. -/
structure Rests (scene scene' : Scene) : Prop where
  stage : scene'.session.stage = scene.session.stage
  events : scene'.events = scene.events
  accepted : scene'.session.screen.sink.accepted = scene.session.screen.sink.accepted
  shutdowns : scene'.session.screen.sink.shutdowns = scene.session.screen.sink.shutdowns

/-- Whatever happens after the end, nothing more becomes of the session. -/
theorem Reachable.rests {scene scene' : Scene} (h : scene.Reachable)
    (hover : scene.session.isOver = true) (hsteps : scene.Steps scene') : scene.Rests scene' := by
  induction hsteps with
  | refl => exact ⟨rfl, rfl, rfl, rfl⟩
  | @tail between last hbefore hlast ih =>
      have hover' : between.session.isOver = true := by
        rw [← hover, Session.isOver, Session.isOver, ih.stage]
      cases hlast with
      | moved hmove =>
          -- a session that is over makes no moves
          have hopen := (h.steps hbefore).winding.isOver_of_doing (Session.doing_of_step hmove)
          exact absurd (hopen.symm.trans hover') nofun
      | disturbed _ _ | clock _ | asked _ | askedAll | fed _ | rescripted _ =>
          exact ⟨ih.stage, ih.events, ih.accepted, ih.shutdowns⟩

end Scene

end LineChat
