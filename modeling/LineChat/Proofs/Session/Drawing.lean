import LineChat.Proofs.Screen.Output
import LineChat.Proofs.Session.Hearing

set_option autoImplicit false

/-! # What a session has drawn

Two pens share the terminal of a session. Whichever of them is writing, what the connection has
taken are the drawings that are through, and the one that is being written but for the strokes that
are left of it (`Pen.Renders`). What stands in line is drawn next, so everything is drawn in the
order in which it was asked for (`Pen.asked`).

This holds as long as no drawing has failed, for one that fails is given up in the middle. What the
connection has taken is then known letter by letter (`Scene.Written`). -/

namespace LineChat

/-! ## Two pens -/

namespace Pen

/-- The calls that a task has yet to make. -/
def calls : Pen → List Call
  | ready calls => calls
  | queued _ later | writing _ _ later => later

/-- What the task is drawing. -/
def held : Pen → List Draw
  | writing draw _ _ => [draw]
  | ready _ | queued .. => []

/-- What is left of it. -/
def strokes : Pen → List Stroke
  | writing _ strokes _ => strokes
  | ready _ | queued .. => []

/-- What the task is in line for. -/
def awaited : Pen → List Draw
  | queued draw _ => [draw]
  | ready _ | writing .. => []

/-- Everything that the owners of two pens have asked for: what is through, what is being drawn, and
    what is in line. -/
def asked (drawn : List Draw) (pen other : Pen) : List Draw :=
  drawn ++ (pen.held ++ other.held) ++ (pen.awaited ++ other.awaited)

variable {pen pen' other : Pen} {screen screen' : Screen} {drawn : List Draw} {draw : Draw}
variable {online : Nat} {draft : String} {busy : Bool}

theorem held_of_holds (h : pen.holds = false) : pen.held = [] := by
  cases pen with
  | ready _ | queued _ _ => rfl
  | writing _ _ _ => exact nomatch h

theorem strokes_of_holds (h : pen.holds = false) : pen.strokes = [] := by
  cases pen with
  | ready _ | queued _ _ => rfl
  | writing _ _ _ => exact nomatch h

theorem awaited_of_inLine (h : pen.inLine = false) : pen.awaited = [] := by
  cases pen with
  | ready _ | writing _ _ _ => rfl
  | queued _ _ => exact nomatch h

theorem calls_admitted (screen : Screen) (pen : Pen) : (pen.admitted screen).calls = pen.calls := by
  cases pen <;> rfl

theorem calls_called (hstep : pen.step online draft screen busy = some (.called pen')) :
    ∃ call, pen.calls = call :: pen'.calls := by
  obtain ⟨call, later, rfl, rfl⟩ := called_of_step hstep
  refine ⟨call, congrArg (call :: ·) ?_⟩
  cases busy <;> rfl

theorem calls_heldUp (hstep : pen.step online draft screen busy = some (.heldUp pen' screen')) :
    pen'.calls = pen.calls := by
  obtain ⟨draw, strokes, strokes', later, rfl, rfl, -⟩ := heldUp_of_step hstep
  rfl

theorem calls_drew (hstep : pen.step online draft screen busy = some (.drew draw pen' screen')) :
    pen'.calls = pen.calls := by
  obtain ⟨strokes, later, rfl, rfl, -⟩ := drew_of_step hstep
  rfl

theorem holds_of_drew (hstep : pen.step online draft screen busy = some (.drew draw pen' screen')) :
    pen.holds = true := by
  obtain ⟨strokes, later, rfl, -⟩ := drew_of_step hstep
  rfl

/-- What the terminal shows of two pens, one of which at least does not hold it. -/
structure Renders (screen : Screen) (drawn : List Draw) (pen other : Pen) : Prop where
  here : other.holds = false → screen.Renders (drawn ++ pen.held) pen.strokes
  there : pen.holds = false → screen.Renders (drawn ++ other.held) other.strokes

namespace Renders

theorem symm (h : Renders screen drawn pen other) : Renders screen drawn other pen :=
  ⟨h.there, h.here⟩

theorem congr (h : Renders screen drawn pen other)
    (hsink : screen'.sink.accepted = screen.sink.accepted)
    (hreserved : screen'.reserved = screen.reserved) : Renders screen' drawn pen other where
  here := fun hfree => (h.here hfree).congr hsink hreserved
  there := fun hfree => (h.there hfree).congr hsink hreserved

/-- A task that does not hold the terminal may turn to something else. -/
theorem idle (h : Renders screen drawn pen other) (hpen : pen.holds = false)
    (hpen' : pen'.holds = false) : Renders screen drawn pen' other where
  here := by
    rw [held_of_holds hpen', strokes_of_holds hpen', ← held_of_holds hpen, ← strokes_of_holds hpen]
    exact h.here
  there := fun _ => h.there hpen

/-- Who asks for a free terminal begins to draw. -/
theorem called (h : Renders screen drawn pen other)
    (hstep : pen.step online draft screen other.holds = some (.called pen')) :
    Renders screen drawn pen' other := by
  obtain ⟨call, later, rfl, rfl⟩ := called_of_step hstep
  cases hbusy : other.holds with
  | true => exact ⟨fun hfree => (nomatch hbusy.symm.trans hfree), fun _ => h.there rfl⟩
  | false =>
      refine ⟨fun _ => ?_, nofun⟩
      have hbefore := h.here hbusy
      rw [held, List.append_nil] at hbefore
      exact hbefore.begin _

theorem heldUp (h : Renders screen drawn pen other)
    (hstep : pen.step online draft screen busy = some (.heldUp pen' screen')) :
    Renders screen' drawn pen' other := by
  obtain ⟨draw, strokes, strokes', later, rfl, rfl, -, hrun⟩ := heldUp_of_step hstep
  exact ⟨fun hfree => (h.here hfree).run hrun rfl, nofun⟩

/-- Who is through leaves the terminal to the other one. -/
theorem drew (h : Renders screen drawn pen other) (hother : other.holds = false)
    (hstep : pen.step online draft screen busy = some (.drew draw pen' screen')) :
    Renders screen' (drawn ++ [draw]) pen' (other.admitted screen') := by
  obtain ⟨strokes, later, rfl, rfl, -, hrun⟩ := drew_of_step hstep
  have hthis : screen'.Renders (drawn ++ [draw]) [] := (h.here hother).run hrun rfl
  cases other with
  | writing _ _ _ => exact nomatch hother
  | ready calls =>
      rw [← List.append_nil (drawn ++ [draw])] at hthis
      exact ⟨fun _ => hthis, fun _ => hthis⟩
  | queued next later' => exact ⟨nofun, fun _ => hthis.begin next⟩

end Renders

theorem asked_called (call : Call) {later : List Call} (hline : other.inLine = false) :
    asked drawn
        (if other.holds then queued draw later
          else writing draw (screen.strokes draw) later) other
      = asked drawn (ready (call :: later)) other ++ [draw] := by
  cases other with
  | queued _ _ => exact nomatch hline
  | ready _ | writing _ _ _ => simp [asked, held, awaited, holds]

theorem asked_heldUp (hstep : pen.step online draft screen busy = some (.heldUp pen' screen')) :
    asked drawn pen' other = asked drawn pen other := by
  obtain ⟨draw, strokes, strokes', later, rfl, rfl, -⟩ := heldUp_of_step hstep
  rfl

theorem asked_drew (hother : other.holds = false)
    (hstep : pen.step online draft screen busy = some (.drew draw pen' screen')) :
    asked (drawn ++ [draw]) pen' (other.admitted screen') = asked drawn pen other := by
  obtain ⟨strokes, later, rfl, rfl, -⟩ := drew_of_step hstep
  cases other with
  | writing _ _ _ => exact nomatch hother
  | ready calls | queued next later' => simp [asked, held, awaited, admitted]

end Pen

/-! ## The pens of a session -/

/-- The pen of the task that reads keys. -/
def KeyLoop.pen : KeyLoop → Pen
  | drawing pen _ => pen
  | reading | leaving _ | draining _ | ended _ => .ready []

/-- The pen of the relay. -/
def Relay.pen : Relay → Pen
  | drawing pen => pen
  | absent | waiting | finished => .ready []

section
variable (keyLoop : KeyLoop) (relay : Relay) (screen : Screen)

theorem KeyLoop.holds_pen : keyLoop.pen.holds = keyLoop.holds := by
  cases keyLoop <;> rfl

theorem KeyLoop.inLine_pen : keyLoop.pen.inLine = keyLoop.inLine := by
  cases keyLoop <;> rfl

theorem KeyLoop.pen_admitted : (keyLoop.admitted screen).pen = keyLoop.pen.admitted screen := by
  cases keyLoop <;> rfl

theorem Relay.holds_pen : relay.pen.holds = relay.holds := by
  cases relay <;> rfl

theorem Relay.inLine_pen : relay.pen.inLine = relay.inLine := by
  cases relay <;> rfl

theorem Relay.pen_admitted : (relay.admitted screen).pen = relay.pen.admitted screen := by
  cases relay <;> rfl

end

section
variable {keyLoop : KeyLoop} {relay : Relay}

theorem Orderly.free_of_keys (h : Orderly keyLoop relay) (hkeys : keyLoop.pen.holds = true) :
    relay.pen.holds = false := by
  rw [relay.holds_pen]
  exact h.one (keyLoop.holds_pen ▸ hkeys)

theorem Orderly.free_of_relay (h : Orderly keyLoop relay) (hrelay : relay.pen.holds = true) :
    keyLoop.pen.holds = false :=
  Bool.eq_false_iff.2 fun hkeys => nomatch hrelay.symm.trans (h.free_of_keys hkeys)

/-- Who does not hold the terminal keeps nobody waiting. -/
theorem Orderly.relay_ready (h : Orderly keyLoop relay) (hkeys : keyLoop.pen.holds = false) :
    relay.pen.inLine = false := by
  rw [relay.inLine_pen]
  refine Bool.eq_false_iff.2 fun hline => ?_
  rw [keyLoop.holds_pen, h.relayWaits hline] at hkeys
  exact nomatch hkeys

theorem Orderly.keys_ready (h : Orderly keyLoop relay) (hrelay : relay.pen.holds = false) :
    keyLoop.pen.inLine = false := by
  rw [keyLoop.inLine_pen]
  refine Bool.eq_false_iff.2 fun hline => ?_
  rw [relay.holds_pen, h.keysWait hline] at hrelay
  exact nomatch hrelay

/-- As the tasks never hold the terminal both, nor stand in line both, it does not matter which of
    them is named first. -/
theorem Orderly.asked_comm (h : Orderly keyLoop relay) (drawn : List Draw) :
    Pen.asked drawn keyLoop.pen relay.pen = Pen.asked drawn relay.pen keyLoop.pen := by
  cases hkeys : keyLoop.pen.holds with
  | true =>
      have hrelay := h.free_of_keys hkeys
      simp [Pen.asked, Pen.held_of_holds hrelay, Pen.awaited_of_inLine (h.keys_ready hrelay)]
  | false =>
      simp [Pen.asked, Pen.held_of_holds hkeys, Pen.awaited_of_inLine (h.relay_ready hkeys)]

end

/-! ## What the record says -/

/-- What was drawn to its end, by whichever task. -/
def Event.drawn? : Event → Option Draw
  | .drew _ draw => some draw
  | _ => none

/-- What was drawn to its end, in order. -/
def drawn (events : List Event) : List Draw :=
  events.filterMap Event.drawn?

@[simp] theorem drawn_append (events events' : List Event) :
    drawn (events ++ events') = drawn events ++ drawn events' :=
  List.filterMap_append

@[simp] theorem drawn_map_room (events : List Room.Event) : drawn (events.map .room) = [] := by
  simp [drawn, List.filterMap_map, Function.comp_def, Event.drawn?]

@[simp] theorem drawn_closing (ticket : Ticket) (outcome : Outcome) (fault? : Option IoFault) :
    drawn (ticket.closing outcome fault?) = [] := by
  cases fault? <;> rfl

/-- The lines that are shown are the lines that are drawn. -/
theorem filterMap_line?_drawn (events : List Event) :
    (drawn events).filterMap Draw.line? = shown events := by
  rw [drawn, shown, List.filterMap_filterMap]
  refine List.filterMap_congr fun event _ => ?_
  cases event with
  | drew task draw => cases draw <;> rfl
  | _ => rfl

theorem drawn_append_of_eq_nil (events : List Event) {news : List Event} (h : drawn news = []) :
    drawn (events ++ news) = drawn events := by
  rw [drawn_append, h, List.append_nil]

/-! ## Moves -/

/-- The terminal of a session shows what the session has drawn; without a seat that is nothing. -/
structure Session.Renders (session : Session) (events : List Event) : Prop where
  unseated : session.ticket? = none → drawn events = [] ∧ session.screen.Renders [] []
  seated : ∀ ticket keyLoop relay, session.stage = .seated ticket keyLoop relay →
    Pen.Renders session.screen (drawn events) keyLoop.pen relay.pen

namespace Session

theorem Renders.of_stage {session : Session} {events : List Event} {ticket : Ticket}
    {keyLoop : KeyLoop} {relay : Relay} (hstage : session.stage = .seated ticket keyLoop relay)
    (h : Pen.Renders session.screen (drawn events) keyLoop.pen relay.pen) :
    session.Renders events where
  unseated := fun hnone => by simp [ticket?_of_stage hstage] at hnone
  seated := forall_stage
    (P := fun _ keyLoop relay => Pen.Renders session.screen (drawn events) keyLoop.pen relay.pen)
    hstage h

/-- Events that have nothing to do with drawing change nothing. -/
theorem Renders.silent {session : Session} {events news : List Event} (h : session.Renders events)
    (hnews : drawn news = []) : session.Renders (events ++ news) where
  unseated := by
    rw [drawn_append_of_eq_nil events hnews]
    exact h.unseated
  seated := by
    rw [drawn_append_of_eq_nil events hnews]
    exact h.seated

theorem Renders.doing {session : Session} {room : Room} {task : Task} {move : Move}
    {events : List Event} (h : session.Renders events) (horderly : session.Orderly)
    (hhears : session.Hears room events) (hwell : ∀ task, drawFaults task move.events = [])
    (hdoing : session.Doing room task move) : move.session.Renders (events ++ move.events) := by
  -- the pens, as the record goes on without a drawing
  have hpens : ∀ {ticket keyLoop relay}, session.stage = .seated ticket keyLoop relay →
      drawn move.events = [] →
      Pen.Renders session.screen (drawn (events ++ move.events)) keyLoop.pen relay.pen := by
    intro ticket keyLoop relay hstage hnews
    exact (h.silent hnews).seated _ _ _ hstage
  cases hdoing with
  | @answered kind =>
      have hsilent : session.Renders (events ++ [.replied kind kind.granted]) := h.silent rfl
      exact ⟨hsilent.unseated, hsilent.seated⟩
  | deserted =>
      have hsilent : session.Renders (events ++ [.requestsEnded]) := h.silent rfl
      exact ⟨hsilent.unseated, hsilent.seated⟩
  | turnedAway hstage =>
      have hsilent : session.Renders (events ++ [.turnedAway session.claimed]) := h.silent rfl
      exact ⟨fun _ => hsilent.unseated (ticket?_of_lobby hstage),
        fun _ _ _ hstage' => nomatch hstage'⟩
  | joined hstage =>
      obtain ⟨hnone, hscreen⟩ := h.unseated (ticket?_of_lobby hstage)
      refine .of_stage rfl ?_
      rw [drawn_append, drawn_map_room, hnone]
      exact ⟨fun _ => hscreen, fun _ => hscreen⟩
  | @keysCalled ticket pen pen' aim relay hstage hpen =>
      rw [← relay.holds_pen] at hpen
      exact .of_stage rfl ((hpens hstage rfl).called hpen)
  | keysHeldUp hstage hpen => exact .of_stage rfl ((hpens hstage rfl).heldUp hpen)
  | @keysDrew ticket pen pen' aim relay screen draw hstage hpen =>
      have hfree := (horderly _ _ _ hstage).free_of_keys (Pen.holds_of_drew hpen)
      refine .of_stage rfl ?_
      rw [drawn_append, relay.pen_admitted]
      exact (h.seated _ _ _ hstage).drew hfree hpen
  | keysFailed => exact nomatch hwell .keys
  | relayFailed => exact nomatch hwell .relay
  | opened hstage =>
      -- there is no relay before it is started here
      obtain rfl := (hhears.seated _ _ _ hstage).opens rfl
      exact .of_stage rfl ((hpens hstage rfl).idle rfl rfl)
  | ready hstage | tookLeave hstage | readOn hstage | enteredBlank hstage | acknowledged hstage
  | trimmed hstage | appended hstage | ignored hstage | closedBlank hstage | readFailed hstage =>
      exact .of_stage rfl ((hpens hstage rfl).idle rfl rfl)
  | entered hstage | closed hstage | left hstage =>
      exact .of_stage rfl ((hpens hstage (drawn_map_room _)).idle rfl rfl)
  | ended hstage =>
      exact .of_stage rfl (((hpens hstage (drawn_closing ..)).idle rfl rfl).congr rfl rfl)
  | fetched hstage | relayEnded hstage | relayReady hstage =>
      exact .of_stage rfl ((hpens hstage rfl).symm.idle rfl rfl).symm
  | @relayCalled ticket keyLoop pen pen' hstage hpen =>
      rw [← keyLoop.holds_pen] at hpen
      exact .of_stage rfl ((hpens hstage rfl).symm.called hpen).symm
  | relayHeldUp hstage hpen => exact .of_stage rfl ((hpens hstage rfl).symm.heldUp hpen).symm
  | @relayDrew ticket keyLoop pen pen' screen draw hstage hpen =>
      have hfree := (horderly _ _ _ hstage).free_of_relay (Pen.holds_of_drew hpen)
      refine .of_stage rfl ?_
      rw [drawn_append, keyLoop.pen_admitted]
      exact ((h.seated _ _ _ hstage).symm.drew hfree hpen).symm

end Session

/-- As long as no drawing has failed, the terminal shows what the session has drawn. -/
theorem Scene.Reachable.renders {scene : Scene} (h : scene.Reachable)
    (hwell : ∀ task, drawFaults task scene.events = []) : scene.session.Renders scene.events := by
  revert hwell
  refine h.invariant (P := fun scene => (∀ task, drawFaults task scene.events = []) →
    scene.session.Renders scene.events) ?_ ?_
  · exact fun _ _ _ _ _ _ _ => ⟨fun _ => ⟨rfl, .ofScript _⟩, fun _ _ _ hstage => nomatch hstage⟩
  · intro scene scene' hscene hbefore hstep hwell
    cases hstep with
    | @moved _ move hmove =>
        have hsplit : ∀ task, drawFaults task scene.events = [] ∧ drawFaults task move.events = [] :=
          fun task => List.append_eq_nil_iff.1 (drawFaults_append .. ▸ hwell task)
        exact (hbefore fun task => (hsplit task).1).doing hscene.orderly hscene.hears
          (fun task => (hsplit task).2) (Session.doing_of_step hmove)
    | disturbed _ _ | clock _ | asked _ | askedAll | fed _ =>
        exact ⟨(hbefore hwell).unseated, (hbefore hwell).seated⟩
    | rescripted script =>
        refine ⟨fun hnone => ?_, fun ticket keyLoop relay hstage => ?_⟩
        · obtain ⟨hnothing, hscreen⟩ := (hbefore hwell).unseated hnone
          exact ⟨hnothing, hscreen.congr rfl rfl⟩
        · exact ((hbefore hwell).seated ticket keyLoop relay hstage).congr rfl rfl

/-! ## Letter by letter -/

/-- What a session has written are the strings of all that it has drawn, and a beginning of those of
    what it is drawing. The lines that it has shown are among them, each with its line break. -/
structure Scene.Written (scene : Scene) : Prop where
  bytes : ∃ drawing : List Draw, drawing.length ≤ 1
    ∧ (Draw.transcript false (drawn scene.events)).flatMap Utf8.encode
        <+: scene.session.screen.sink.accepted.toList
    ∧ scene.session.screen.sink.accepted.toList
        <+: (Draw.transcript false (drawn scene.events ++ drawing)).flatMap Utf8.encode
  lines : (Draw.transcript false (drawn scene.events)).filter Draw.beginsLine
    = (shown scene.events).map fun text => "\r\x1b[K" ++ text ++ "\r\n"

/-- What the connection has taken lies between what is drawn and what will then be drawn. -/
theorem Screen.Renders.between {screen : Screen} {draws : List Draw} {pen : Pen}
    (h : screen.Renders (draws ++ pen.held) pen.strokes) :
    (Draw.transcript false draws).flatMap Utf8.encode <+: screen.sink.accepted.toList
      ∧ screen.sink.accepted.toList
        <+: (Draw.transcript false (draws ++ pen.held)).flatMap Utf8.encode := by
  simp only [← Draw.map_text_ink, ← Piece.flatMap_bytes]
  refine ⟨?_, ⟨_, h.bytes⟩⟩
  cases pen with
  | writing draw strokes later =>
      have hthrough := h.through
      rwa [Pen.held, List.dropLast_concat] at hthrough
  | ready _ | queued _ _ =>
      have haccepted := h.accepted
      rw [Pen.held, List.append_nil] at haccepted
      exact haccepted ▸ List.prefix_rfl

theorem Pen.length_held_le (pen : Pen) : pen.held.length ≤ 1 := by
  cases pen <;> simp [held]

namespace Scene

/-- As long as no drawing has failed, what was written is known. -/
theorem Reachable.written {scene : Scene} (h : scene.Reachable)
    (hwell : ∀ task, drawFaults task scene.events = []) : scene.Written where
  bytes := by
    have hrenders := h.renders hwell
    cases hstage : scene.session.stage with
    | lobby | turnedAway =>
        obtain ⟨hnone, hscreen⟩ := hrenders.unseated (by simp [Session.ticket?, hstage])
        rw [hnone]
        exact ⟨[], Nat.zero_le 1, @Screen.Renders.between _ [] (.ready []) hscreen⟩
    | seated ticket keyLoop relay =>
        have hpens := hrenders.seated _ _ _ hstage
        cases hkeys : keyLoop.pen.holds with
        | true =>
            have hrelay := (h.orderly _ _ _ hstage).free_of_keys hkeys
            exact ⟨keyLoop.pen.held, keyLoop.pen.length_held_le, (hpens.here hrelay).between⟩
        | false => exact ⟨relay.pen.held, relay.pen.length_held_le, (hpens.there hkeys).between⟩
  lines := by rw [Draw.filter_beginsLine_transcript, filterMap_line?_drawn]

end Scene

end LineChat
