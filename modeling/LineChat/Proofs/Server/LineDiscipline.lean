import LineChat.Proofs.Server.Rest
import LineChat.Proofs.Session.Admission
import LineChat.Proofs.Session.Discipline
import LineChat.Proofs.Session.Terminal

set_option autoImplicit false

/-! # From typing to the room

Over a connection with which nothing goes wrong, a session carries out in the room what was typed and
nothing else: it joins, says the lines that come of its input one after the other, and leaves. At any
moment it has carried out a beginning of that, and when every task waits it has carried out all of
it, provided that a shell was requested and that the input comes to an end. -/

namespace LineChat

/-- Everything that a session is to do in the room, once the input has come to this. -/
def Given.due (given : Given) (ticket : Ticket) : List Room.Op :=
  ticket.course given.claimed (given.intended []).lines true

namespace Scene

theorem course_prefix (ticket : Ticket) (claimed : String) {said lines : List String}
    (h : said <+: lines) : ticket.course claimed said false <+: ticket.course claimed lines true := by
  obtain ⟨rest, rfl⟩ := h
  refine ⟨rest.map (.say ticket.id ticket.name) ++ [.leave ticket.id], ?_⟩
  simp [Ticket.course]

/-- At any moment a session has done a beginning of what is due. -/
theorem Reachable.operations_prefix {scene : Scene} (h : scene.Reachable)
    (hwell : ∀ fault, .drawFailed .keys fault ∉ scene.events) {ticket : Ticket}
    (hticket : scene.session.ticket? = some ticket) :
    operations scene.events <+: scene.given.due ticket := by
  obtain ⟨keyLoop, relay, hstage⟩ := Session.exists_stage_of_ticket? hticket
  obtain ⟨said, hops, hstands⟩ := h.disciplined.seated hstage
  rw [hops]
  cases hout : keyLoop.isOut with
  | false => exact course_prefix ticket _ (hstands.said_prefix [])
  | true =>
      have hsaid : said = (scene.given.intended []).lines := by
        cases keyLoop with
        | drawing _ _ | reading | leaving _ => exact nomatch hout
        | draining _ | ended _ => exact (settled_of_well hwell hstands).said_eq []
      rw [hsaid]
      exact List.prefix_refl _

/-- The key task waits for nothing but input and the relay, if the connection takes what is
    written. -/
theorem Reachable.keyLoop_of_waiting {scene : Scene} (h : scene.Reachable)
    (hwait : ∀ task, scene.session.step scene.room task = none)
    (hprompt : scene.session.screen.sink.stalled = false) {ticket : Ticket} {keyLoop : KeyLoop}
    {relay : Relay} (hstage : scene.session.stage = .seated ticket keyLoop relay) :
    keyLoop = .reading ∧ scene.session.reader.step = none ∨ keyLoop.isOut = true := by
  have hkeys : scene.session.keyStep scene.room = none := hwait .keys
  have hrelay : scene.session.relayStep scene.room = none := hwait .relay
  simp only [Session.keyStep, hstage] at hkeys
  simp only [Session.relayStep, hstage] at hrelay
  cases keyLoop with
  | leaving outcome => exact nomatch hkeys
  | draining outcome | ended outcome => exact Or.inr rfl
  | reading => exact Or.inl ⟨rfl, Option.map_eq_none_iff.1 hkeys⟩
  | drawing pen aim =>
      -- whoever has the terminal can go on, as the connection holds nothing up
      exfalso
      have hfree : ∀ {pen : Pen} {busy : Bool}, pen.holds = true →
          pen.step scene.room.online scene.session.draft.text scene.session.screen busy ≠ none := by
        intro pen busy hholds hnone
        rcases Pen.waiting_of_step hnone with ⟨draw, later, rfl⟩ | ⟨-, hstalled⟩
        · exact nomatch hholds
        · simp [hprompt] at hstalled
      have hnone := Option.map_eq_none_iff.1 hkeys
      rcases Pen.waiting_of_step hnone with ⟨draw, later, rfl⟩ | ⟨-, hstalled⟩
      · -- the relay holds the terminal, and can go on
        have hholds := (h.orderly _ _ _ hstage).keysWait rfl
        cases relay with
        | drawing pen' => exact hfree hholds (Option.map_eq_none_iff.1 hrelay)
        | absent | waiting | finished => exact nomatch hholds
      · simp [hprompt] at hstalled

/-- A session that was asked for a shell has a seat when every task waits. -/
theorem Reachable.seated_of_waiting {scene : Scene} (h : scene.Reachable)
    (hwait : ∀ task, scene.session.step scene.room task = none)
    (hshell : RequestKind.shell ∈ scene.given.requests) :
    ∃ ticket keyLoop relay, scene.session.stage = .seated ticket keyLoop relay := by
  obtain ⟨hasked, haway, -⟩ := h.admitted
  have htaken : scene.session.requests.shellTaken = true := by
    rcases hasked hshell with htaken | ⟨hattended, hmem⟩
    · exact htaken
    · have hrequests := Option.map_eq_none_iff.1 (hwait .requests)
      cases hpending : scene.session.requests.pending with
      | nil => simp [hpending] at hmem
      | cons kind rest => simp [RequestQueue.step, hattended, hpending] at hrequests
  cases hstage : scene.session.stage with
  | seated ticket keyLoop relay => exact ⟨ticket, keyLoop, relay, rfl⟩
  | turnedAway => simp [(haway hstage).2] at htaken
  | lobby =>
      have hkeys : scene.session.keyStep scene.room = none := hwait .keys
      simp [Session.keyStep, hstage, Session.lobbyStep, htaken] at hkeys

/-- When every task waits, a session whose input has come to an end has done all that is due. -/
theorem Reachable.operations_of_waiting {scene : Scene} (h : scene.Reachable)
    (hwait : ∀ task, scene.session.step scene.room task = none)
    (hshell : RequestKind.shell ∈ scene.given.requests)
    (hend : (scene.given.intended []).ending?.isSome = true)
    (hwell : ∀ script ∈ scene.given.scripts, script.Faultless ∧ script.Prompt) :
    ∃ ticket, scene.session.ticket? = some ticket
      ∧ operations scene.events = scene.given.due ticket := by
  obtain ⟨ticket, keyLoop, relay, hstage⟩ := h.seated_of_waiting hwait hshell
  obtain ⟨said, hops, hstands⟩ := h.disciplined.seated hstage
  have hprompt : scene.session.screen.sink.stalled = false :=
    Script.Prompt.stalled (hwell _ h.script_mem).2
  refine ⟨ticket, Session.ticket?_of_stage hstage, ?_⟩
  rcases h.keyLoop_of_waiting hwait hprompt hstage with ⟨rfl, hread⟩ | hout
  · -- nothing is left to be read, so the end would have been read
    have hrunning : Running scene.given.intended _ _ _ said := hstands
    rw [hrunning.typing [], KeyReader.followedBy_nil, KeyReader.decoded_of_waiting hread] at hend
    exact nomatch hend
  · have hsaid : said = (scene.given.intended []).lines := by
      have hnone := h.no_drawFailed (fun script hmem => (hwell script hmem).1) .keys
      cases keyLoop with
      | drawing _ _ | reading | leaving _ => exact nomatch hout
      | draining _ | ended _ => exact (settled_of_well hnone hstands).said_eq []
    rw [hops, hout, hsaid]
    rfl

end Scene

namespace World

/-- At rest, no task of a session has a move. -/
theorem waiting_of_atRest {world : World} (hrest : world.server.atRest = true) {i : Nat}
    {scene : Scene} (hscene : world.scene? i = some scene) (task : Task) :
    scene.session.step scene.room task = none := by
  obtain ⟨-, hsession, -, hroom, -⟩ := (world.scene?_eq_some_iff i scene).1 hscene
  rw [← hroom]
  exact Server.step_eq_none_of_atRest hrest hsession task

/-- Once the tasks have taken turns, each session is in a scene that it can get to from where it
    was, and none of its tasks has a move. -/
theorem scene?_settled {stamp : String} {picker : ColorPicker} {history : List Happening}
    {world : World} (hrun : (start stamp picker).run history = some world) {i : Nat} {scene : Scene}
    (hscene : world.scene? i = some scene) :
    world.settled.server.atRest = true ∧ ∃ scene', world.settled.scene? i = some scene'
      ∧ scene.Steps scene' ∧ scene'.given = scene.given := by
  have hsound := sound_of_run hrun
  refine ⟨world.server.atRest_settle, ?_⟩
  obtain ⟨refs, hrefs⟩ := world.run_settled
  obtain ⟨scene', hscene', hsteps⟩ := (leads_of_run hsound hrefs).steps i scene hscene
  refine ⟨scene', hscene', hsteps, ?_⟩
  have hgiven := ((world.scene?_eq_some_iff i scene).1 hscene).1
  have hgiven' := ((world.settled.scene?_eq_some_iff i scene').1 hscene').1
  exact Option.some.inj (hgiven'.symm.trans hgiven)

/-- What a session does in the room, if a shell was requested, the input has come to an end, and
    nothing goes wrong with the connection: at any moment a beginning of joining, saying each line
    that was typed and leaving, and all of it when every task waits, as they do once they have taken
    turns. -/
theorem operations_of_run {stamp : String} {picker : ColorPicker} {history : List Happening}
    {world : World} {i : Nat} {scene : Scene} {chunks : List (List UInt8)} {last : ReadEvent}
    (hrun : (start stamp picker).run history = some world) (hscene : world.scene? i = some scene)
    (hshell : RequestKind.shell ∈ scene.given.requests)
    (hinput : scene.given.input = chunks.map .data ++ [last])
    (hlast : last = .close ∨ ∃ fault, last = .error fault
      ∧ .failed fault ∈ (KeyReader.ofEvents scene.given.input).decoded)
    (hwriter : ∀ script ∈ scene.given.scripts, script.Faultless ∧ script.Prompt) :
    let lines := (typed [] (KeyReader.ofEvents scene.given.input).decoded).lines
    let due := fun ticket : Ticket =>
      Room.Op.join scene.given.claimed
        :: lines.map (.say ticket.id ticket.name) ++ [.leave ticket.id]
    (∀ ticket, tickets scene.events = [ticket] → operations scene.events <+: due ticket)
      ∧ (world.server.atRest = true →
          ∃ ticket, tickets scene.events = [ticket] ∧ operations scene.events = due ticket)
      ∧ world.settled.server.atRest = true
      ∧ ∃ scene' ticket, world.settled.scene? i = some scene' ∧ tickets scene'.events = [ticket]
          ∧ operations scene'.events = due ticket := by
  intro lines due
  have hintended : scene.given.intended []
      = typed [] (KeyReader.ofEvents scene.given.input).decoded := by
    rw [Given.intended, List.append_nil]
  have hdue : ∀ ticket, scene.given.due ticket = due ticket := by
    intro ticket
    rw [Given.due, hintended]
    rfl
  have hend : (scene.given.intended []).ending?.isSome = true := by
    rw [hintended]
    rcases hlast with rfl | ⟨fault, rfl, hfailed⟩
    · refine isSome_ending?_typed (KeyReader.closed_mem_decoded ?_) (Or.inl rfl) []
      show ReadEvent.close ∈ scene.given.input
      simp [hinput]
    · exact isSome_ending?_typed hfailed (Or.inr ⟨fault, rfl⟩) []
  have hreach := reachable_of_run hrun hscene
  have hfaultless : ∀ script ∈ scene.given.scripts, script.Faultless :=
    fun script hmem => (hwriter script hmem).1
  obtain ⟨hrest, scene', hscene', hsteps, hgiven⟩ := scene?_settled hrun hscene
  have hreach' := hreach.steps hsteps
  refine ⟨fun ticket hticket => ?_, fun hatRest => ?_, hrest, ?_⟩
  · rw [← hdue]
    exact hreach.operations_prefix (hreach.no_drawFailed hfaultless .keys)
      (hreach.ticket?_eq hticket)
  · obtain ⟨ticket, hticket, hops⟩ := hreach.operations_of_waiting (waiting_of_atRest hatRest hscene)
      hshell hend hwriter
    exact ⟨ticket, by rw [hreach.tickets_eq, hticket]; rfl, hops.trans (hdue ticket)⟩
  · obtain ⟨ticket, hticket, hops⟩ := hreach'.operations_of_waiting
      (waiting_of_atRest hrest hscene') (hgiven ▸ hshell) (hgiven ▸ hend) (hgiven ▸ hwriter)
    refine ⟨scene', ticket, hscene', by rw [hreach'.tickets_eq, hticket]; rfl, ?_⟩
    rw [hops, hgiven]
    exact hdue ticket

/-- Somebody types a line with a slip in it and a blank one, and hangs up. -/
theorem operations_of_run_of_slip :
    let connect := Server.Stimulus.connect "ann" [.pty, .shell] false
      [.data [104, 111, 127, 105], .data [13, 10, 32, 10, 98], .close] .willing
    ∃ world scene ticket, (start "12:00" .plain).run [.stimulus connect] = some world
      ∧ world.settled.scene? 0 = some scene ∧ tickets scene.events = [ticket]
      ∧ operations scene.events = [.join "ann", .say ticket.id ticket.name "hi",
          .say ticket.id ticket.name "b", .leave ticket.id] := by
  intro connect
  have hrun : (start "12:00" .plain).run [.stimulus connect]
      = some ⟨(start "12:00" .plain).server.receive connect,
          (start "12:00" .plain).givenAfter connect⟩ := rfl
  obtain ⟨-, -, -, scene, ticket, hscene, hticket, hops⟩ :=
    @operations_of_run _ _ _ _ 0 _ [[104, 111, 127, 105], [13, 10, 32, 10, 98]] .close hrun rfl
      (by decide) rfl (Or.inl rfl) fun script hmem => by
        obtain rfl := List.mem_singleton.1 hmem
        exact ⟨Script.faultless_willing, Script.prompt_willing⟩
  exact ⟨_, scene, ticket, hrun, hscene, hticket, hops⟩

end World

end LineChat
