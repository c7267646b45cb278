import LineChat.Proofs.Key.Cutting
import LineChat.Proofs.Server.Listening

set_option autoImplicit false

/-! # Two runs over the same bytes

What somebody says does not depend on the network. Let two sessions, in two runs that have nothing
else in common, join a room in the same state under the same name, and let the same bytes arrive at
each of them before the end of its input, cut in two different ways. As far as they have got, they
have done the same in the room, and they end in the same way. -/

namespace LineChat

namespace Scene

/-- A session that has ended, and whose key task has not failed to draw anything, has done all that
    is due, and has ended as the typing has. -/
theorem Reachable.due_of_outcome {scene : Scene} (h : scene.Reachable)
    (hwell : ∀ fault, .drawFailed .keys fault ∉ scene.events) {ticket : Ticket}
    (hticket : scene.session.ticket? = some ticket) {outcome : Outcome}
    (hover : scene.session.outcome? = some outcome) :
    operations scene.events = scene.given.due ticket
      ∧ (scene.given.intended []).ending?.map Ending.outcome = some outcome := by
  obtain ⟨keyLoop, relay, hstage⟩ := Session.exists_stage_of_ticket? hticket
  rw [Session.outcome?, hstage] at hover
  cases keyLoop with
  | drawing _ _ | reading | leaving _ | draining _ => exact nomatch hover
  | ended outcome' =>
      obtain rfl := Option.some.inj hover
      obtain ⟨said, hops, hstands⟩ := h.disciplined.seated hstage
      have hsettled := settled_of_well hwell hstands
      refine ⟨?_, ?_⟩
      · rw [hops, hsettled.said_eq []]
        rfl
      · obtain ⟨ending, rfl, -, -, hintended⟩ := hsettled
        rw [hintended []]
        rfl

/-- Over a connection that does not fail nothing fails to be drawn. -/
theorem Reachable.operations_of_outcome {scene : Scene} (h : scene.Reachable)
    (hwell : ∀ script ∈ scene.given.scripts, script.Faultless) {ticket : Ticket}
    (hticket : scene.session.ticket? = some ticket) {outcome : Outcome}
    (hover : scene.session.outcome? = some outcome) :
    operations scene.events = scene.given.due ticket
      ∧ (scene.given.intended []).ending?.map Ending.outcome = some outcome :=
  h.due_of_outcome (h.no_drawFailed hwell .keys) hticket hover

/-- A session whose input has come to an end has ended when every task waits, unless its connection
    holds something up. -/
theorem Reachable.isSome_outcome? {scene : Scene} (h : scene.Reachable) {ticket : Ticket}
    (hticket : scene.session.ticket? = some ticket)
    (hend : (scene.given.intended []).ending?.isSome = true)
    (hwait : ∀ task, scene.session.step scene.room task = none)
    (hprompt : scene.session.screen.sink.stalled = false) :
    scene.session.outcome?.isSome = true := by
  obtain ⟨keyLoop, relay, hstage⟩ := Session.exists_stage_of_ticket? hticket
  obtain ⟨outcome, rfl⟩ := h.ended_of_ending? hend hwait hprompt hstage
  rw [Session.outcome?, hstage]
  rfl

end Scene

namespace World

/-- This world comes of a run in which the session takes its seat when the room is in this state. -/
def JoinedFrom (world : World) (i : Nat) (room : Room) : Prop :=
  ∃ stamp picker earlier past next later,
    (start stamp picker).run earlier = some past ∧ past.server.room = room
      ∧ past.ticketAt? i = none ∧ past.happen (.move ⟨i, .keys⟩) = some next
      ∧ next.ticketAt? i ≠ none ∧ next.run later = some world

theorem JoinedFrom.exists_run {world : World} {i : Nat} {room : Room} (h : world.JoinedFrom i room) :
    ∃ stamp picker history, (start stamp picker).run history = some world := by
  obtain ⟨stamp, picker, earlier, past, next, later, hpast, -, -, hnext, -, hlater⟩ := h
  refine ⟨stamp, picker, earlier ++ .move ⟨i, .keys⟩ :: later, ?_⟩
  rw [run_append, hpast, Option.bind_some, run, hnext, Option.bind_some, hlater]

/-- The move by which a session gets its seat is joining. -/
theorem ticketAt?_of_move {world world' : World} {i : Nat} {task : Task}
    (hnone : world.ticketAt? i = none) (hmove : world.happen (.move ⟨i, task⟩) = some world')
    (hsome : world'.ticketAt? i ≠ none) :
    ∃ session, world.server.sessions[i]? = some session
      ∧ world'.ticketAt? i = some (world.server.room.join session.claimed).answer := by
  obtain ⟨session, move, hsession, htouch, rfl, hafter⟩ := touch_of_move hmove
  rw [ticketAt?, hsession, Option.bind_some] at hnone
  refine ⟨session, hsession, hafter.trans ?_⟩
  cases htouch with
  | none _ _ hticket => exact absurd (hafter.trans (hticket.trans hnone)) hsome
  | join _ _ _ hticket => exact hticket
  | own _ _ _ _ hother _ _ _ => simp [hnone] at hother

/-- Whoever joins a room in a given state under a given name gets a given seat. -/
theorem JoinedFrom.ticket?_eq {world : World} {i : Nat} {room : Room} {scene : Scene}
    (h : world.JoinedFrom i room) (hscene : world.scene? i = some scene) :
    scene.session.ticket? = some (room.join scene.given.claimed).answer := by
  obtain ⟨stamp, picker, earlier, past, next, later, hpast, rfl, hnone, hnext, hsome, hlater⟩ := h
  have hsound := sound_of_run hpast
  obtain ⟨session, hsession, hticket⟩ := ticketAt?_of_move hnone hnext hsome
  -- the session claims what it was given to claim, and keeps what it has got
  obtain ⟨before, hbefore, rfl, -⟩ := hsound.exists_scene hsession
  have hleads := leads_happen hsound hnext
  obtain ⟨after, hafter, hstep⟩ := hleads.steps i before hbefore
  obtain ⟨last, hlast, hsteps⟩ := (leads_of_run hleads.sound hlater).steps i after hafter
  obtain rfl := Option.some.inj (hscene.symm.trans hlast)
  have hclaimed : scene.given.claimed = before.session.claimed := by
    rw [hsteps.kept.1, hstep.kept.1]
    exact (reachable_of_run hpast hbefore).disciplined.claimed.symm
  obtain ⟨-, hseated, -⟩ := (next.scene?_eq_some_iff i after).1 hafter
  rw [ticketAt?, hseated] at hticket
  rw [hclaimed]
  exact hsteps.kept.2 _ hticket

/-- Over connections that do not fail, two sessions that join in the same state of the room under
    the same name, and to which the same bytes come before the end of the input, have done the same
    in the room as far as they have got, however the bytes were cut. Each of them has ended when
    every task waits and its connection holds nothing up, and once both have ended, they have done
    the same altogether and ended in the same way. -/
theorem operations_of_cuts {room : Room} {world world' : World} {i i' : Nat} {scene scene' : Scene}
    {chunks chunks' : List (List UInt8)}
    (hjoined : world.JoinedFrom i room) (hjoined' : world'.JoinedFrom i' room)
    (hscene : world.scene? i = some scene) (hscene' : world'.scene? i' = some scene')
    (hclaimed : scene.given.claimed = scene'.given.claimed)
    (hinput : scene.given.input = chunks.map .data ++ [.close])
    (hinput' : scene'.given.input = chunks'.map .data ++ [.close])
    (hne : [] ∉ chunks) (hne' : [] ∉ chunks') (hsame : chunks.flatten = chunks'.flatten)
    (hwriter : ∀ script ∈ scene.given.scripts, script.Faultless)
    (hwriter' : ∀ script ∈ scene'.given.scripts, script.Faultless) :
    (operations scene.events <+: operations scene'.events
        ∨ operations scene'.events <+: operations scene.events)
      ∧ (world.server.atRest = true → scene.session.screen.sink.stalled = false →
          scene.session.outcome?.isSome = true)
      ∧ (world'.server.atRest = true → scene'.session.screen.sink.stalled = false →
          scene'.session.outcome?.isSome = true)
      ∧ ∀ outcome outcome', scene.session.outcome? = some outcome →
          scene'.session.outcome? = some outcome' →
          operations scene.events = operations scene'.events ∧ outcome = outcome' := by
  obtain ⟨stamp, picker, history, hrun⟩ := hjoined.exists_run
  obtain ⟨stamp', picker', history', hrun'⟩ := hjoined'.exists_run
  have hreach := reachable_of_run hrun hscene
  have hreach' := reachable_of_run hrun' hscene'
  have hticket := hjoined.ticket?_eq hscene
  have hticket' := hjoined'.ticket?_eq hscene'
  rw [← hclaimed] at hticket'
  -- what is typed is the same, and so is all that follows from it
  have hintended : scene.given.intended [] = scene'.given.intended [] := by
    rw [Given.intended, Given.intended, List.append_nil, List.append_nil, hinput, hinput']
    exact KeyReader.typed_decoded_of_cuts hne hne' hsame
  have hdue : ∀ ticket, scene.given.due ticket = scene'.given.due ticket := by
    intro ticket
    rw [Given.due, Given.due, hintended, hclaimed]
  have hend : (scene.given.intended []).ending?.isSome = true := by
    rw [Given.intended, List.append_nil]
    refine isSome_ending?_typed (KeyReader.closed_mem_decoded ?_) (Or.inl rfl) []
    show ReadEvent.close ∈ scene.given.input
    simp [hinput]
  refine ⟨?_, fun hrest hprompt => ?_, fun hrest hprompt => ?_, fun outcome outcome' ho ho' => ?_⟩
  · have hbegun := hreach.operations_prefix (hreach.no_drawFailed hwriter .keys) hticket
    have hbegun' := hreach'.operations_prefix (hreach'.no_drawFailed hwriter' .keys) hticket'
    rw [← hdue] at hbegun'
    exact List.prefix_or_prefix_of_prefix hbegun hbegun'
  · exact hreach.isSome_outcome? hticket hend (waiting_of_atRest hrest hscene) hprompt
  · exact hreach'.isSome_outcome? hticket' (hintended ▸ hend)
      (waiting_of_atRest hrest hscene') hprompt
  · obtain ⟨hall, hresult⟩ := hreach.operations_of_outcome hwriter hticket ho
    obtain ⟨hall', hresult'⟩ := hreach'.operations_of_outcome hwriter' hticket' ho'
    rw [← hintended, hresult] at hresult'
    exact ⟨by rw [hall, hall', hdue], Option.some.inj hresult'⟩

/-- Whoever is the first to connect, and asks for a shell, joins the room that nobody has joined. -/
theorem exists_joinedFrom (stamp claimed : String) (input : List ReadEvent) (script : Script) :
    ∃ (world : World) (scene : Scene),
      world.JoinedFrom 0 (.empty stamp .plain) ∧ world.server.atRest = true
      ∧ world.scene? 0 = some scene ∧ scene.given = ⟨claimed, [.shell], input, [script]⟩ := by
  let connect := Server.Stimulus.connect claimed [.shell] false input script
  have hbegun : ∃ past next, (start stamp .plain).run [.stimulus connect, .move ⟨0, .requests⟩]
        = some past ∧ past.server.room = .empty stamp .plain ∧ past.ticketAt? 0 = none
      ∧ past.happen (.move ⟨0, .keys⟩) = some next ∧ (next.ticketAt? 0).isSome = true
      ∧ next.given = [⟨claimed, [.shell], input, [script]⟩] ∧ next.server.sessions.length = 1 :=
    ⟨_, _, rfl, rfl, rfl, rfl, rfl, rfl, rfl⟩
  obtain ⟨past, next, hpast, hroom, hnone, hnext, hsome, hgiven, hlength⟩ := hbegun
  obtain ⟨refs, hrefs⟩ := next.run_settled
  have hsound := (leads_of_run (sound_start stamp .plain) hpast).sound
  have hleads := leads_happen hsound hnext
  cases hscene : next.scene? 0 with
  | none => exact absurd (hleads.sound.scene?_eq_none hscene) (by omega)
  | some before =>
      obtain ⟨scene, hscene', -⟩ := (leads_of_run hleads.sound hrefs).steps 0 before hscene
      refine ⟨next.settled, scene, ?_, next.server.atRest_settle, hscene', ?_⟩
      · refine ⟨stamp, .plain, _, past, next, _, hpast, hroom, hnone, hnext, fun hthis => ?_, hrefs⟩
        simp [hthis] at hsome
      · have hthis := ((next.settled.scene?_eq_some_iff 0 scene).1 hscene').1
        rw [show next.settled.given = next.given from rfl, hgiven] at hthis
        exact (Option.some.inj hthis).symm

/-- A line end that is cut in two between other lines. -/
theorem operations_of_cuts_of_line_end :
    ∃ (world world' : World) (scene scene' : Scene),
      world.scene? 0 = some scene ∧ world'.scene? 0 = some scene'
      ∧ scene.given.input = [.data [104, 13, 10, 105], .close]
      ∧ scene'.given.input = [.data [104, 13], .data [10, 105], .close]
      ∧ operations scene.events = operations scene'.events
      ∧ scene.session.outcome?.isSome = true
      ∧ scene.session.outcome? = scene'.session.outcome? := by
  obtain ⟨world, scene, hjoined, hrest, hscene, hgiven⟩ :=
    exists_joinedFrom "12:00" "ann" [.data [104, 13, 10, 105], .close] .willing
  obtain ⟨world', scene', hjoined', hrest', hscene', hgiven'⟩ :=
    exists_joinedFrom "12:00" "ann" [.data [104, 13], .data [10, 105], .close] .willing
  have hwriter : ∀ script ∈ scene.given.scripts, script.Faultless := by
    simp [hgiven, Script.faultless_willing]
  have hwriter' : ∀ script ∈ scene'.given.scripts, script.Faultless := by
    simp [hgiven', Script.faultless_willing]
  have hprompt : ∀ {world : World} {scene : Scene}, world.JoinedFrom 0 (.empty "12:00" .plain) →
      world.scene? 0 = some scene → scene.given.scripts = [.willing] →
      scene.session.screen.sink.stalled = false := by
    intro world scene hjoined hscene hscripts
    obtain ⟨stamp, picker, history, hrun⟩ := hjoined.exists_run
    have hscript := (reachable_of_run hrun hscene).script_mem
    rw [hscripts, List.mem_singleton] at hscript
    rw [Sink.stalled, hscript]
    rfl
  obtain ⟨-, hends, hends', hboth⟩ :=
    @operations_of_cuts _ world world' 0 0 scene scene' [[104, 13, 10, 105]] [[104, 13], [10, 105]]
      hjoined hjoined' hscene hscene' (by rw [hgiven, hgiven']) (by rw [hgiven]; rfl)
      (by rw [hgiven']; rfl) (by decide) (by decide) rfl hwriter hwriter'
  have hdone := hends hrest (hprompt hjoined hscene (by rw [hgiven]))
  have hdone' := hends' hrest' (hprompt hjoined' hscene' (by rw [hgiven']))
  obtain ⟨outcome, houtcome⟩ := Option.isSome_iff_exists.1 hdone
  obtain ⟨outcome', houtcome'⟩ := Option.isSome_iff_exists.1 hdone'
  obtain ⟨hops, rfl⟩ := hboth outcome outcome' houtcome houtcome'
  exact ⟨world, world', scene, scene', hscene, hscene', by rw [hgiven], by rw [hgiven'], hops, hdone,
    houtcome.trans houtcome'.symm⟩

end World

end LineChat
