import LineChat.Proofs.Server.Bursts
import LineChat.Proofs.Session.Drawing

set_option autoImplicit false

/-! # What a burst costs

What a session shows of a burst is what it holds at the end of it: the relay shows a beginning of
what the queue has taken, and all of it if the connection lets it (`showsNext_of_delivered`). So a
burst is shown up to the sixteenth line, or up to the seventeenth if the relay took one out in time,
and the other lines are lost (`shown_of_burst`). What is shown can be read off the bytes that the
connection has taken (`Scene.Written`). -/

namespace LineChat

/-! ## A connection that takes everything -/

namespace Scene

variable {scene scene' : Scene} {ticket : Ticket} {keyLoop : KeyLoop} {relay : Relay}

theorem Steps.chronicle_prefix (h : scene.Steps scene') : scene.chronicle <+: scene'.chronicle := by
  induction h with
  | refl => exact List.prefix_refl _
  | tail _ hlast ih =>
      refine ih.trans ?_
      cases hlast with
      | moved _ | disturbed _ _ => exact List.prefix_append _ _
      | clock _ | asked _ | askedAll | fed _ | rescripted _ => exact List.prefix_refl _

/-- What a session has been given to write to is not forgotten, and as long as it is given nothing else,
    a connection with which nothing goes wrong stays as it is. -/
theorem Steps.unfailing (h : scene.Steps scene')
    (hwell : scene.session.screen.sink.script.Faultless) :
    scene.given.scripts <+: scene'.given.scripts
      ∧ (scene'.given.scripts = scene.given.scripts →
          scene'.session.screen.sink.script = scene.session.screen.sink.script
            ∧ ∀ task, drawFaults task scene'.events = drawFaults task scene.events) := by
  induction h with
  | refl => exact ⟨List.prefix_refl _, fun _ => ⟨rfl, fun _ => rfl⟩⟩
  | tail _ hlast ih =>
      obtain ⟨hgrown, hkept⟩ := ih
      cases hlast with
      | moved hmove =>
          refine ⟨hgrown, fun hscripts => ?_⟩
          obtain ⟨hscript, hfaults⟩ := hkept hscripts
          have hdoing := Session.doing_of_step hmove
          refine ⟨hdoing.script_eq.trans hscript, fun task => ?_⟩
          have hnone := drawFaults_eq_nil_iff.2 (hdoing.no_drawFailed (hscript ▸ hwell) task)
          show drawFaults task (_ ++ _) = _
          rw [drawFaults_append, hnone, List.append_nil, hfaults]
      | disturbed _ _ | clock _ | asked _ | askedAll | fed _ => exact ⟨hgrown, hkept⟩
      | rescripted script =>
          refine ⟨hgrown.trans (List.prefix_append _ _), fun hscripts => ?_⟩
          have hlength := hgrown.length_le
          rw [← hscripts, rescripted, List.length_append] at hlength
          exact absurd hlength (Nat.not_succ_le_self _)

/-- When every task of a session waits, all has been shown that the queue has taken, if the connection
    holds nothing up and has not failed. -/
theorem Reachable.shownBy_relay_of_waiting (h : scene.Reachable)
    (hwait : ∀ task, scene.session.step scene.room task = none)
    (hprompt : scene.session.screen.sink.stalled = false)
    (hwell : ∀ task, drawFaults task scene.events = [])
    (hstage : scene.session.stage = .seated ticket keyLoop relay) :
    shownBy .relay scene.events = Room.deliveredTo ticket.place scene.chronicle := by
  have hshows := h.showsSent_of_well hstage hwell
  have hopens : keyLoop.opens = false := by
    rcases h.reading_or_ended hwait hprompt hstage with ⟨rfl, -⟩ | ⟨_, rfl⟩ <;> rfl
  have hnothing : relay.lines = [] ∧ scene.room.backlog ticket.place = [] := by
    rcases h.relay_of_waiting hwait hprompt hstage with hover | ⟨rfl, hreceive⟩
    · cases relay with
      | absent => exact nomatch hopens.symm.trans (hshows.absent.1 rfl)
      | finished => exact ⟨rfl, (hshows.finished rfl).1⟩
      | waiting | drawing _ => exact nomatch hover
    · exact ⟨rfl, (Room.present_of_receive hreceive).1⟩
  rw [← hshows.lines, hnothing.1, hnothing.2, List.append_nil, List.append_nil]

end Scene

namespace World

variable {stamp : String} {picker : ColorPicker} {history : List Happening} {world : World} {i : Nat}
variable {scene : Scene} {ticket : Ticket} {shown lines : List String}

/-- What comes of a session that is given something else to write to. -/
theorem scene?_rescripted {script : Script} {next : World}
    (h : world.happen (.stimulus (.rescript i script)) = some next) :
    next.scene? i = (world.scene? i).map (·.rescripted script) := by
  obtain rfl := Option.some.inj h
  refine scene?_eq_map (fun given => { given with scripts := given.scripts ++ [script] })
    (fun session => { session with screen := session.screen.rescript script }) ?_ ?_ ?_
  · exact (List.getElem?_modify _ i world.given i).trans (by simp)
  · exact (List.getElem?_modify _ i world.server.sessions i).trans (by simp)
  · intro scene hscene
    obtain ⟨-, -, hevents, hroom, hchronicle⟩ := (world.scene?_eq_some_iff i scene).1 hscene
    show _ = Scene.mk _ _ (eventsOf world.server.journal i) world.server.room
      (chronicleOf world.server.journal)
    rw [hevents, hroom, hchronicle]
    rfl

/-- Once the tasks have taken turns, a session has shown all that its queue has taken, if the connection
    takes everything from now on and has not failed before. -/
theorem shownBy_relay_of_settled (hrun : (start stamp picker).run history = some world)
    (hscene : world.scene? i = some scene) (hticket : scene.session.ticket? = some ticket)
    (hfaultless : scene.session.screen.sink.script.Faultless)
    (hprompt : scene.session.screen.sink.script.Prompt)
    (hwell : ∀ task, drawFaults task scene.events = []) :
    ∃ scene', world.settled.scene? i = some scene'
      ∧ shownBy .relay scene'.events = Room.deliveredTo ticket.place scene'.chronicle
      ∧ scene'.Written := by
  obtain ⟨hrest, scene', hscene', hsteps, hgiven⟩ := scene?_settled hrun hscene
  obtain ⟨hscript, hfaults⟩ := (hsteps.unfailing hfaultless).2 (congrArg Given.scripts hgiven)
  obtain ⟨_, _, hstage⟩ := Session.exists_stage_of_ticket? (hsteps.kept.2 ticket hticket)
  have hreach := (reachable_of_run hrun hscene).steps hsteps
  have hwell' : ∀ task, drawFaults task scene'.events = [] :=
    fun task => (hfaults task).trans (hwell task)
  refine ⟨scene', hscene', ?_, hreach.written hwell'⟩
  exact hreach.shownBy_relay_of_waiting (waiting_of_atRest hrest hscene')
    (Script.Prompt.stalled (hscript ▸ hprompt)) hwell' hstage

/-! ## What is shown next -/

/-- What the queue of a session has taken since. -/
def takenSince (world : World) (ticket : Ticket) (scene : Scene) : List String :=
  (Room.deliveredTo ticket.place scene.chronicle).drop
    (Room.deliveredTo ticket.place (chronicleOf world.server.journal)).length

/-- Once the tasks have taken turns, a session has shown these lines and then what its queue has taken
    since an earlier world, and all that it has shown is written. -/
def ShowsSettled (earlier world : World) (i : Nat) (ticket : Ticket) (lines : List String) : Prop :=
  ∃ (refs : List TaskRef) (scene : Scene), world.run (refs.map .move) = some world.settled
    ∧ world.settled.scene? i = some scene
    ∧ shownBy .relay scene.events = lines ++ earlier.takenSince ticket scene
    ∧ scene.Written

/-- The relay of a session, which has shown some lines, shows these next and no others. -/
structure ShowsNext (world : World) (i : Nat) (ticket : Ticket) (shown lines : List String) :
    Prop where
  /-- Whatever becomes of the connection and of the session, what is shown is a beginning of these
      lines and of those that the queue takes from now on. -/
  only : ∀ later world' scene', world.run later = some world' → world'.scene? i = some scene' →
    shownBy .relay scene'.events <+: shown ++ lines ++ world.takenSince ticket scene'
  /-- It is all of them whenever every task waits, the connection holds nothing up and nothing has
      failed to be drawn. -/
  all : ∀ later world' scene', world.run later = some world' → world'.scene? i = some scene' →
    world'.server.atRest = true → scene'.session.screen.sink.stalled = false →
    (∀ task, drawFaults task scene'.events = []) →
    shownBy .relay scene'.events = shown ++ lines ++ world.takenSince ticket scene'
  /-- What is shown is written, as long as nothing has failed to be drawn. -/
  written : ∀ later world' scene', world.run later = some world' → world'.scene? i = some scene' →
    (∀ task, drawFaults task scene'.events = []) → scene'.Written
  /-- Over a connection that takes everything that is where it comes to when the tasks take turns. -/
  settles : ∀ later world' scene', world.run later = some world' → world'.scene? i = some scene' →
    scene'.session.screen.sink.script.Faultless → scene'.session.screen.sink.script.Prompt →
    (∀ task, drawFaults task scene'.events = []) →
    world.ShowsSettled world' i ticket (shown ++ lines)
  /-- So it does if the connection is released now, whatever it has held up. -/
  released : ∀ script world', world.happen (.stimulus (.rescript i script)) = some world' →
    script.Faultless → script.Prompt →
    (∀ task, drawFaults task (eventsOf world.server.journal i) = []) →
    world.ShowsSettled world' i ticket (shown ++ lines)

section
variable (hrun : (start stamp picker).run history = some world)
  (hscene : world.scene? i = some scene) (hticket : scene.session.ticket? = some ticket)
  (hdelivered : Room.deliveredTo ticket.place scene.chronicle = shown ++ lines)
include hrun hscene hticket hdelivered

/-- What the queue has taken by now comes before what it takes later. -/
theorem delivered_later {later : List Happening} {world' : World} {scene' : Scene}
    (hlater : world.run later = some world') (hscene' : world'.scene? i = some scene') :
    (start stamp picker).run (history ++ later) = some world'
      ∧ scene'.session.ticket? = some ticket
      ∧ Room.deliveredTo ticket.place scene'.chronicle
        = shown ++ lines ++ world.takenSince ticket scene' := by
  have hsound := sound_of_run hrun
  obtain ⟨next, hnext, hsteps⟩ := (leads_of_run hsound hlater).steps i scene hscene
  obtain rfl := Option.some.inj (hscene'.symm.trans hnext)
  refine ⟨?_, hsteps.kept.2 ticket hticket, ?_⟩
  · rw [run_append, hrun, Option.bind_some, hlater]
  · obtain ⟨news, hnews⟩ := hsteps.chronicle_prefix
    have hchronicle := ((world.scene?_eq_some_iff i scene).1 hscene).2.2.2.2
    rw [takenSince, hchronicle, ← hnews, Room.deliveredTo_append, ← hdelivered, List.drop_left]

theorem showsSettled_later {later : List Happening} {world' : World} {scene' : Scene}
    (hlater : world.run later = some world') (hscene' : world'.scene? i = some scene')
    (hfaultless : scene'.session.screen.sink.script.Faultless)
    (hprompt : scene'.session.screen.sink.script.Prompt)
    (hwell : ∀ task, drawFaults task scene'.events = []) :
    world.ShowsSettled world' i ticket (shown ++ lines) := by
  obtain ⟨hway, hthis, -⟩ := delivered_later hrun hscene hticket hdelivered hlater hscene'
  obtain ⟨refs, hrefs⟩ := world'.run_settled
  obtain ⟨scene'', hscene'', hshown, hwritten⟩ :=
    shownBy_relay_of_settled hway hscene' hthis hfaultless hprompt hwell
  have hsettled : world.run (later ++ refs.map .move) = some world'.settled := by
    rw [run_append, hlater, Option.bind_some, hrefs]
  obtain ⟨-, -, htaken⟩ := delivered_later hrun hscene hticket hdelivered hsettled hscene''
  exact ⟨refs, scene'', hrefs, hscene'', hshown.trans htaken, hwritten⟩

/-- It is enough that the queue has taken these lines. -/
theorem showsNext_of_delivered : world.ShowsNext i ticket shown lines where
  only := by
    intro later world' scene' hlater hscene'
    obtain ⟨hway, hthis, htaken⟩ := delivered_later hrun hscene hticket hdelivered hlater hscene'
    obtain ⟨_, _, hstage⟩ := Session.exists_stage_of_ticket? hthis
    have hreach := reachable_of_run hway hscene'
    rw [← htaken]
    exact hreach.shownBy_relay_prefix hstage
  all := by
    intro later world' scene' hlater hscene' hrest hprompt hwell
    obtain ⟨hway, hthis, htaken⟩ := delivered_later hrun hscene hticket hdelivered hlater hscene'
    obtain ⟨_, _, hstage⟩ := Session.exists_stage_of_ticket? hthis
    rw [← htaken]
    exact (reachable_of_run hway hscene').shownBy_relay_of_waiting
      (waiting_of_atRest hrest hscene') hprompt hwell hstage
  written := by
    intro later world' scene' hlater hscene' hwell
    obtain ⟨hway, -, -⟩ := delivered_later hrun hscene hticket hdelivered hlater hscene'
    exact (reachable_of_run hway hscene').written hwell
  settles := fun _ _ _ => showsSettled_later hrun hscene hticket hdelivered
  released := by
    intro script released hreleased hfaultless hprompt hwell
    have hthis : released.scene? i = some (scene.rescripted script) := by
      rw [scene?_rescripted hreleased, hscene, Option.map_some]
    have hlater : world.run [.stimulus (.rescript i script)] = some released := by
      rw [run, hreleased]
      rfl
    rw [((world.scene?_eq_some_iff i scene).1 hscene).2.2.1] at hwell
    exact showsSettled_later hrun hscene hticket hdelivered hlater hthis hfaultless hprompt hwell

end

/-! ## What is lost -/

/-- What a session shows of the lines that are meant for it in the course of a burst, if its queue is
    empty and its relay waits: the first 16 of them and none of the others, if the relay does not run
    before they have all come; and the first 17 of them and none of the others, if the connection
    takes nothing from before the first of them, and the relay runs after each of them. In the second
    case nothing fails in the meantime. The session is still in the room at the end of the burst, as it
    is if it does not leave and numbers do not start over (`Room.received_of_present`). What happens
    later is a matter of `ShowsNext`. -/
theorem shown_of_burst (hrun : (start stamp picker).run history = some world)
    (hscene : world.scene? i = some scene) {keyLoop : KeyLoop}
    (hstage : scene.session.stage = .seated ticket keyLoop .waiting)
    (hempty : scene.room.backlog ticket.place = []) {burst : List Happening} {world' : World}
    {scene' : Scene} (hburst : world.run burst = some world')
    (hscene' : world'.scene? i = some scene') (hpresent : scene'.room.Present ticket) :
    let sent := Room.addressed ticket (world.issues burst)
    let shown := shownBy .relay scene.events
    (.move ⟨i, .relay⟩ ∉ burst → world'.ShowsNext i ticket shown (sent.take 16))
      ∧ (scene.session.screen.sink.stalled = true →
          (∀ script, .stimulus (.rescript i script) ∉ burst) →
          world.keepsUp i ticket burst = true →
          (∀ task, drawFaults task scene'.events = drawFaults task scene.events)
            ∧ world'.ShowsNext i ticket shown (sent.take 17)) := by
  intro sent shown
  have hrun' : (start stamp picker).run (history ++ burst) = some world' := by
    rw [run_append, hrun, Option.bind_some, hburst]
  have hreach := reachable_of_run hrun' hscene'
  -- what is held at the end of the burst is what is shown next
  have hnext : ∀ {keyLoop' : KeyLoop} {relay : Relay} {lines : List String},
      scene'.session.stage = .seated ticket keyLoop' relay →
      shownBy .relay scene'.events = shown →
      relay.lines ++ scene'.room.backlog ticket.place = lines →
      world'.ShowsNext i ticket shown lines := by
    intro keyLoop' relay lines hstage' hshown hheld
    refine showsNext_of_delivered hrun' hscene' (Session.ticket?_of_stage hstage') ?_
    rw [← (hreach.showsSent_of_isRead hstage' hpresent.isRead).lines, hshown, List.append_assoc, hheld]
  constructor
  · intro hidle
    obtain ⟨hshown, ⟨_, hstage'⟩, hqueued⟩ :=
      unread_of_idle hrun hscene hstage hempty hburst hscene' hpresent hidle
    exact hnext hstage' hshown hqueued
  · intro hstalled hscripts hkeeps
    obtain ⟨-, hwell, hshown, keyLoop', relay, hstage', hholds⟩ :=
      heldUp_of_stalled hrun hscene hstage hempty hburst hscene' hpresent hstalled hscripts hkeeps
    refine ⟨hwell, hnext hstage' hshown (hholds.lines_append_queued ?_)⟩
    rintro rfl
    have hwaits : world'.keepsUp i ticket [] = true :=
      keepsUp_append hburst ((List.append_nil burst).symm ▸ hkeeps)
    exact backlog_of_waiting hscene' (Option.isNone_iff_eq_none.1 hwaits) hstage'

/-- The connection of ann takes nothing, and twenty lines come: bob joins, eve joins and leaves, and
    bob says the letters. If they all come at once, ann is shown all but the last four of them in the
    end; if her relay runs when it has something to do, all but the last three. -/
theorem shown_of_burst_of_letters :
    let letters := "abcdefghijklmnopq".toList.map String.singleton
    let ops : List Room.Op := .join "eve" :: .leave ⟨3⟩ :: letters.map (.say ⟨2⟩ "bob")
    let atOnce : List Happening := [.stimulus (.room (.join "bob" :: ops))]
    let inTurn : List Happening := .stimulus (.room [.join "bob"]) :: .move ⟨0, .relay⟩
      :: .move ⟨0, .relay⟩ :: ops.map fun op => .stimulus (.room [op])
    let lines := "[12:00] [system] bob joined the chat" :: "[12:00] [system] eve joined the chat"
      :: "[12:00] [system] eve left the chat" :: letters.map ("[12:00] bob: " ++ ·)
    ∃ history world scene ticket shown world₁ world₂,
      (start "12:00" .plain).run history = some world ∧ world.scene? 0 = some scene
        ∧ scene.session.screen.sink.stalled = true
        ∧ world.run atOnce = some world₁ ∧ world₁.ShowsNext 0 ticket shown (lines.take 16)
        ∧ world.run inTurn = some world₂ ∧ world₂.ShowsNext 0 ticket shown (lines.take 17) := by
  intro letters ops atOnce inTurn lines
  let stalling := Manner.script ⟨true, none, false, none, false, false, .ofKind .brokenPipe⟩
  let ann : Ticket := ⟨⟨1⟩, "ann", ⟨""⟩, ⟨0⟩⟩
  let stays? := fun (world : World) burst => ((world.run burst).bind (·.scene? 0)).bind fun scene =>
    (scene.room.seat? ann.place).map fun seat =>
      seat.id == ann.id && seat.registered && seat.outbox.receiving
  have hend : ((start "12:00" .plain).reactions [.connect "ann" [.shell] true [] .willing,
        .rescript 0 stalling]).bind (fun world => (world.scene? 0).map fun scene =>
          (scene.session.screen.sink.stalled && (scene.room.backlog ann.place).isEmpty
              && world.keepsUp 0 ann inTurn,
            scene.session.stage, [atOnce, inTurn].map fun burst => stays? world burst,
            [atOnce, inTurn].map fun burst => Room.addressed ann (world.issues burst)))
      = some (true, .seated ann .reading .waiting,
          [some true, some true], [lines, lines]) := by
    decide +kernel
  obtain ⟨world, hworld, hthis⟩ := Option.bind_eq_some_iff.1 hend
  obtain ⟨scene, hscene, hparts⟩ := Option.map_eq_some_iff.1 hthis
  simp only [Prod.mk.injEq, Bool.and_eq_true, List.isEmpty_iff, List.map_cons, List.map_nil,
    List.cons.injEq] at hparts
  obtain ⟨⟨⟨hstalled, hempty⟩, hkeeps⟩, hstage, ⟨hatOnce, hinTurn, -⟩, hsent₁, hsent₂, -⟩ := hparts
  obtain ⟨history, hrun⟩ := exists_run_of_reactions hworld
  have hstays : ∀ {burst}, stays? world burst = some true →
      ∃ world' scene', world.run burst = some world' ∧ world'.scene? 0 = some scene'
        ∧ scene'.room.Present ann := by
    intro burst hseat
    obtain ⟨scene', hscene', hmap⟩ := Option.bind_eq_some_iff.1 hseat
    obtain ⟨world', hburst, hthere⟩ := Option.bind_eq_some_iff.1 hscene'
    obtain ⟨seat, hplace, hparts⟩ := Option.map_eq_some_iff.1 hmap
    simp only [Bool.and_eq_true, beq_iff_eq, and_assoc] at hparts
    exact ⟨world', scene', hburst, hthere, seat, hplace, hparts⟩
  obtain ⟨world₁, scene₁, hburst₁, hscene₁, hpresent₁⟩ := hstays hatOnce
  obtain ⟨world₂, scene₂, hburst₂, hscene₂, hpresent₂⟩ := hstays hinTurn
  have hfirst := shown_of_burst hrun hscene hstage hempty hburst₁ hscene₁ hpresent₁
  have hsecond := shown_of_burst hrun hscene hstage hempty hburst₂ hscene₂ hpresent₂
  rw [hsent₁] at hfirst
  rw [hsent₂] at hsecond
  exact ⟨history, world, scene, ann, _, world₁, world₂, hrun, hscene, hstalled, hburst₁,
    hfirst.1 (by simp [atOnce]), hburst₂, (hsecond.2 hstalled (by simp [inTurn]) hkeeps).2⟩

end World

end LineChat
