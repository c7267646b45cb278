import LineChat.Proofs.Screen.Output
import LineChat.Proofs.Session.Terminal

set_option autoImplicit false

/-! # What a session shows of its own accord

A session greets, shows the line that comes of whatever it says, and says farewell. These lines are
shown by the key task, in this order and each of them once: at every moment those that are shown and
those that are still to be drawn are together all that there are so far. -/

namespace LineChat

/-! ## Lines still to be drawn -/

/-- The line that a call is for. -/
def Call.line? : Call → Option String
  | line text => some text
  | clear | prompt => none

theorem Call.line?_draw (online : Nat) (draft : String) (call : Call) :
    (call.draw online draft).line? = call.line? := by
  cases call <;> rfl

/-- The lines that a pen has still to draw. -/
def Pen.lines : Pen → List String
  | ready calls => calls.filterMap Call.line?
  | queued draw later | writing draw _ later => draw.line?.toList ++ later.filterMap Call.line?

namespace Pen

variable {online : Nat} {draft : String} {screen screen' : Screen} {busy : Bool} {pen pen' : Pen}

theorem lines_called (h : pen.step online draft screen busy = some (.called pen')) :
    pen'.lines = pen.lines := by
  obtain ⟨call, later, rfl, rfl⟩ := called_of_step h
  have hlines : lines (ready (call :: later))
      = (call.draw online draft).line?.toList ++ later.filterMap Call.line? := by
    rw [Call.line?_draw]
    cases call <;> rfl
  rw [hlines]
  cases busy <;> rfl

theorem lines_heldUp (h : pen.step online draft screen busy = some (.heldUp pen' screen')) :
    pen'.lines = pen.lines := by
  obtain ⟨draw, strokes, strokes', later, rfl, rfl, -⟩ := heldUp_of_step h
  rfl

theorem lines_drew {draw : Draw}
    (h : pen.step online draft screen busy = some (.drew draw pen' screen')) :
    pen.lines = draw.line?.toList ++ pen'.lines := by
  obtain ⟨strokes, later, rfl, rfl, -⟩ := drew_of_step h
  rfl

theorem lines_admitted (pen : Pen) (screen : Screen) : (pen.admitted screen).lines = pen.lines := by
  cases pen <;> rfl

end Pen

theorem shownBy_drew (task : Task) (draw : Draw) :
    shownBy task [.drew task draw] = draw.line?.toList := by
  cases draw <;> simp [shownBy, Event.shownBy?, Draw.line?]

theorem shownBy_drew_of_ne {task task' : Task} (h : task' ≠ task) (draw : Draw) :
    shownBy task [.drew task' draw] = [] := by
  cases draw <;> simp [shownBy, Event.shownBy?, h]

/-! ## The lines of the key task -/

/-- The lines that greet somebody. -/
def Ticket.greeting (ticket : Ticket) : List String :=
  [Line.welcome ticket.name, Line.instructions]

/-- The lines that a session has had to show of its own accord: the greeting, what it said, and the
    farewell if there was one. -/
def Ticket.ownLines (ticket : Ticket) (events : List Event) : List String :=
  ticket.greeting ++ saidLines events ++ farewells events

namespace KeyLoop

/-- The lines that the task has still to show before it goes on. -/
def lines (ticket : Ticket) : KeyLoop → List String
  | drawing pen .openRelay => pen.lines ++ ticket.greeting
  | drawing pen .readKeys | drawing pen (.leave _) => pen.lines
  | reading | leaving _ | draining _ | ended _ => []

/-- Whether the task is going to read. -/
def readsOn : KeyLoop → Bool
  | drawing _ .openRelay | drawing _ .readKeys | reading => true
  | drawing _ (.leave _) | leaving _ | draining _ | ended _ => false

theorem lines_admitted (ticket : Ticket) (screen : Screen) (keyLoop : KeyLoop) :
    (keyLoop.admitted screen).lines ticket = keyLoop.lines ticket := by
  cases keyLoop with
  | drawing pen aim => cases aim <;> simp [admitted, lines, Pen.lines_admitted]
  | reading | leaving _ | draining _ | ended _ => rfl

theorem readsOn_admitted (screen : Screen) (keyLoop : KeyLoop) :
    (keyLoop.admitted screen).readsOn = keyLoop.readsOn := by
  cases keyLoop with
  | drawing pen aim => cases aim <;> rfl
  | reading | leaving _ | draining _ | ended _ => rfl

/-- Drawing the same lines by another pen makes no difference. -/
theorem lines_drawing {pen pen' : Pen} {shown : List String} (h : shown ++ pen'.lines = pen.lines)
    (ticket : Ticket) (aim : Aim) :
    shown ++ (drawing pen' aim).lines ticket = (drawing pen aim).lines ticket := by
  cases aim with
  | openRelay => rw [lines, lines, ← h, List.append_assoc]
  | readKeys | leave _ => exact h

theorem readsOn_drawing (pen pen' : Pen) (aim : Aim) :
    (drawing pen' aim).readsOn = (drawing pen aim).readsOn := by
  cases aim <;> rfl

end KeyLoop

/-- What is shown and what is still to be shown are together what there is to show, and there is no
    farewell as long as the session reads. -/
structure ShowsOwn (ticket : Ticket) (keyLoop : KeyLoop) (events : List Event) : Prop where
  lines : shownBy .keys events ++ keyLoop.lines ticket = ticket.ownLines events
  stays : keyLoop.readsOn = true → farewells events = []

namespace ShowsOwn

variable {ticket : Ticket} {keyLoop keyLoop' : KeyLoop} {events news : List Event}

/-- A move that neither says anything nor bids farewell only draws. -/
theorem quiet (h : ShowsOwn ticket keyLoop events) (hsaid : saidLines news = [])
    (hfarewells : farewells news = [])
    (hlines : shownBy .keys news ++ keyLoop'.lines ticket = keyLoop.lines ticket)
    (hreads : keyLoop'.readsOn = keyLoop.readsOn ∨ keyLoop'.readsOn = false) :
    ShowsOwn ticket keyLoop' (events ++ news) where
  lines := by
    rw [shownBy_append, List.append_assoc, hlines, h.lines]
    simp [Ticket.ownLines, hsaid, hfarewells]
  stays := by
    intro hon
    have hbefore : keyLoop.readsOn = true := by
      rcases hreads with hsame | hnone
      · exact hsame.symm.trans hon
      · simp [hon] at hnone
    rw [farewells_append, h.stays hbefore, hfarewells]
    rfl

/-- A session that reads has shown everything, so the line that comes of what it reads is next. -/
theorem tell (h : ShowsOwn ticket .reading events) {line : String} (hshown : shownBy .keys news = [])
    (hnews : saidLines news ++ farewells news = [line]) (hlines : keyLoop'.lines ticket = [line])
    (hreads : farewells news = [] ∨ keyLoop'.readsOn = false) :
    ShowsOwn ticket keyLoop' (events ++ news) where
  lines := by
    have hbefore := h.lines
    rw [KeyLoop.lines, List.append_nil] at hbefore
    rw [shownBy_append, hshown, List.append_nil, hbefore, hlines, ← hnews]
    simp [Ticket.ownLines, h.stays rfl]
  stays := by
    intro hon
    have hnone : farewells news = [] := hreads.resolve_right (by simp [hon])
    rw [farewells_append, h.stays rfl, hnone]
    rfl

end ShowsOwn

/-- The own lines of a session are shown as they should be; without a seat there are none. -/
structure Session.Tells (session : Session) (events : List Event) : Prop where
  unseated : session.ticket? = none →
    shownBy .keys events = [] ∧ saidLines events = [] ∧ farewells events = []
  seated : ∀ ticket keyLoop relay, session.stage = .seated ticket keyLoop relay →
    ShowsOwn ticket keyLoop events

namespace Session

theorem Tells.of_stage {session : Session} {events : List Event} {ticket : Ticket}
    {keyLoop : KeyLoop} {relay : Relay} (hstage : session.stage = .seated ticket keyLoop relay)
    (h : ShowsOwn ticket keyLoop events) : session.Tells events where
  unseated := fun hnone => by simp [ticket?_of_stage hstage] at hnone
  seated := forall_stage (P := fun ticket keyLoop _ => ShowsOwn ticket keyLoop events) hstage h

/-- Events that have nothing to do with lines change nothing. -/
theorem Tells.silent {session : Session} {events news : List Event} (h : session.Tells events)
    (hshown : shownBy .keys news = []) (hsaid : saidLines news = [])
    (hfarewells : farewells news = []) : session.Tells (events ++ news) where
  unseated := by
    intro hnone
    simpa [hshown, hsaid, hfarewells] using h.unseated hnone
  seated := by
    intro ticket keyLoop relay hstage
    exact (h.seated _ _ _ hstage).quiet hsaid hfarewells (by rw [hshown]; rfl) (Or.inl rfl)

theorem Tells.doing {session : Session} {room : Room} {task : Task} {move : Move}
    {events : List Event} (h : session.Tells events)
    (hwell : ∀ fault, .drawFailed .keys fault ∉ move.events)
    (hdoing : session.Doing room task move) : move.session.Tells (events ++ move.events) := by
  cases hdoing with
  | @answered kind =>
      have hsilent : session.Tells (events ++ [.replied kind kind.granted]) := h.silent rfl rfl rfl
      exact ⟨hsilent.unseated, hsilent.seated⟩
  | deserted =>
      have hsilent : session.Tells (events ++ [.requestsEnded]) := h.silent rfl rfl rfl
      exact ⟨hsilent.unseated, hsilent.seated⟩
  | turnedAway hstage =>
      have hsilent : session.Tells (events ++ [.turnedAway session.claimed]) :=
        h.silent rfl rfl rfl
      exact ⟨fun _ => hsilent.unseated (ticket?_of_lobby hstage),
        fun _ _ _ hstage' => nomatch hstage'⟩
  | joined hstage =>
      obtain ⟨hshown, hsaid, hfarewells⟩ := h.unseated (ticket?_of_lobby hstage)
      refine .of_stage rfl ⟨?_, fun _ => ?_⟩
      · rw [Ticket.ownLines, shownBy_append, saidLines_append, farewells_append, hshown, hsaid,
          hfarewells, shownBy_map_room, saidLines_join, farewells_map_room]
        rfl
      · rw [farewells_append, hfarewells, farewells_map_room]
        rfl
  | @keysCalled ticket pen pen' aim relay hstage hpen =>
      exact .of_stage rfl ((h.seated _ _ _ hstage).quiet rfl rfl
        (KeyLoop.lines_drawing (Pen.lines_called hpen) ticket aim)
        (Or.inl (KeyLoop.readsOn_drawing pen pen' aim)))
  | @keysHeldUp ticket pen pen' aim relay screen hstage hpen =>
      exact .of_stage rfl ((h.seated _ _ _ hstage).quiet rfl rfl
        (KeyLoop.lines_drawing (Pen.lines_heldUp hpen) ticket aim)
        (Or.inl (KeyLoop.readsOn_drawing pen pen' aim)))
  | @keysDrew ticket pen pen' aim relay screen draw hstage hpen =>
      have hlines := (Pen.lines_drew hpen).symm
      rw [← shownBy_drew .keys] at hlines
      exact .of_stage rfl ((h.seated _ _ _ hstage).quiet rfl rfl
        (KeyLoop.lines_drawing hlines ticket aim)
        (Or.inl (KeyLoop.readsOn_drawing pen pen' aim)))
  | keysFailed => exact absurd (List.mem_singleton_self _) (hwell _)
  | opened hstage | ready hstage | readOn hstage | enteredBlank hstage | trimmed hstage
  | appended hstage | ignored hstage =>
      exact .of_stage rfl ((h.seated _ _ _ hstage).quiet rfl rfl rfl (Or.inl rfl))
  | tookLeave hstage | closedBlank hstage =>
      exact .of_stage rfl ((h.seated _ _ _ hstage).quiet rfl rfl rfl (Or.inr rfl))
  | @entered ticket relay reader turn hstage hread hblank hturn =>
      subst hturn
      have hnews := saidLines_say room ticket.id ticket.name (Text.trim session.draft.text)
      refine .of_stage rfl ((h.seated _ _ _ hstage).tell (shownBy_map_room _ _) ?_ rfl
        (Or.inl (farewells_map_room _)))
      rw [hnews, farewells_map_room]
      rfl
  | @closed ticket relay reader turn hstage hread hblank hturn =>
      subst hturn
      have hnews := saidLines_say room ticket.id ticket.name (Text.trim session.draft.text)
      refine .of_stage rfl ((h.seated _ _ _ hstage).tell (shownBy_map_room _ _) ?_ rfl
        (Or.inr rfl))
      show saidLines (List.map .room _) ++ farewells (List.map .room _) = _
      rw [hnews, farewells_map_room]
      rfl
  | acknowledged hstage | readFailed hstage =>
      exact .of_stage rfl ((h.seated _ _ _ hstage).tell rfl rfl rfl (Or.inr rfl))
  | left hstage =>
      refine .of_stage rfl ((h.seated _ _ _ hstage).quiet (saidLines_leave _ _)
        (farewells_map_room _) ?_ (Or.inr rfl))
      rw [shownBy_map_room]
      rfl
  | @ended ticket relay outcome hstage =>
      have hsaid : saidLines (ticket.closing outcome session.screen.shutdown.1) = [] := by
        rw [saidLines, roomEvents_closing]
        rfl
      refine .of_stage rfl ((h.seated _ _ _ hstage).quiet hsaid (farewells_closing ..) ?_
        (Or.inr rfl))
      exact congrArg (· ++ []) (shownBy_closing ..)
  | fetched hstage | relayEnded hstage | relayCalled hstage | relayHeldUp hstage
  | relayReady hstage => exact .of_stage rfl ((h.seated _ _ _ hstage).quiet rfl rfl rfl (Or.inl rfl))
  | @relayDrew ticket keyLoop pen pen' screen draw hstage hpen =>
      -- the key task may get the terminal by it, for the lines that it has been waiting to draw
      refine .of_stage rfl ((h.seated _ _ _ hstage).quiet rfl rfl ?_ ?_)
      · show shownBy .keys [.drew .relay draw] ++ _ = _
        rw [shownBy_drew_of_ne (by decide), KeyLoop.lines_admitted]
        rfl
      · exact Or.inl (KeyLoop.readsOn_admitted screen keyLoop)
  | @relayFailed ticket keyLoop pen screen fault hstage hpen =>
      refine .of_stage rfl ((h.seated _ _ _ hstage).quiet rfl rfl ?_ ?_)
      · exact KeyLoop.lines_admitted ticket screen keyLoop
      · exact Or.inl (KeyLoop.readsOn_admitted screen keyLoop)

end Session

/-- Over a connection with which nothing goes wrong, the own lines of a session are shown as they
    should be. -/
theorem Scene.Reachable.tells {scene : Scene} (h : scene.Reachable)
    (hwell : ∀ script ∈ scene.given.scripts, script.Faultless) :
    scene.session.Tells scene.events := by
  revert hwell
  refine h.invariant (P := fun scene => (∀ script ∈ scene.given.scripts, script.Faultless) →
    scene.session.Tells scene.events) ?_ ?_
  · exact fun _ _ _ _ _ _ _ => ⟨fun _ => ⟨rfl, rfl, rfl⟩, fun _ _ _ hstage => nomatch hstage⟩
  · intro scene scene' hscene hbefore hstep hwell
    cases hstep with
    | moved hmove =>
        have hdoing := Session.doing_of_step hmove
        exact (hbefore hwell).doing (hdoing.no_drawFailed (hwell _ hscene.script_mem) .keys) hdoing
    | disturbed _ _ | clock _ | asked _ | askedAll | fed _ =>
        exact ⟨(hbefore hwell).unseated, (hbefore hwell).seated⟩
    | rescripted script =>
        have hthis := hbefore fun script hmem => hwell script (List.mem_append_left _ hmem)
        exact ⟨hthis.unseated, hthis.seated⟩

end LineChat
