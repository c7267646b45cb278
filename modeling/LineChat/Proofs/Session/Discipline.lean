import LineChat.Proofs.Session.Scene
import LineChat.Proofs.Session.Typing

set_option autoImplicit false

/-! # A session says what was typed

What a session does in the room is measured against `Given.intended`, which is what comes of its
input by `typed`. As long as the session reads, what it has said and what is still to come of its
draft and its reader are together what is intended, whatever arrives later (`Running`). When it stops
reading because the typing has ended, it has said everything and will end accordingly (`Settled`);
when it stops because it cannot write, what it has said is a beginning of what is intended
(`Broken`). -/

namespace LineChat

/-- What comes of the input of a session, if this arrives later. -/
def Given.intended (given : Given) (later : List ReadEvent) : Typing :=
  typed [] (KeyReader.ofEvents (given.input ++ later)).decoded

/-- Whether the task has left the room. -/
def KeyLoop.isOut : KeyLoop → Bool
  | draining _ | ended _ => true
  | drawing .. | reading | leaving _ => false

/-! ## How far a session has got -/

section
variable (intended : List ReadEvent → Typing) (draft : Draft) (reader : KeyReader)
variable (events : List Event) (said : List String)

/-- Nothing has gone wrong, and the typing goes on. -/
structure Running : Prop where
  faultless : faults events = []
  silent : farewells events = []
  typing : ∀ later,
    intended later = (typed draft.chars (reader.followedBy later).decoded).after said

/-- The typing has ended, and that is how the session ends. -/
def Settled (outcome : Outcome) : Prop :=
  ∃ ending : Ending, outcome = ending.outcome ∧ faults events = ending.faults
    ∧ farewells events = ending.farewells ∧ ∀ later, intended later = ⟨said, some ending⟩

/-- The session could not write, and that is why it ends. -/
structure Broken (outcome : Outcome) : Prop where
  outcome : outcome = .ofFaults (faults events)
  fault : ∃ fault, .io fault ∈ faults events
  typing : ∀ later, said <+: (intended later).lines

/-- Where the key task stands with what was typed. -/
def Standing : KeyLoop → Prop
  | .drawing _ .openRelay | .drawing _ .readKeys | .reading =>
    Running intended draft reader events said
  | .drawing _ (.leave outcome) => Settled intended events said outcome
  | .leaving outcome | .draining outcome | .ended outcome =>
    Settled intended events said outcome ∨ Broken intended events said outcome

end

section
variable {intended : List ReadEvent → Typing} {draft : Draft} {reader reader' : KeyReader}
variable {events news : List Event} {said : List String} {outcome : Outcome}

theorem Settled.outcome_eq (h : Settled intended events said outcome) :
    outcome = .ofFaults (faults events) := by
  obtain ⟨ending, rfl, hfaults, -⟩ := h
  rw [hfaults]
  exact ending.outcome_eq

/-! ## Other events -/

theorem Running.quiet (h : Running intended draft reader events said) (hfaults : faults news = [])
    (hfarewells : farewells news = []) : Running intended draft reader (events ++ news) said where
  faultless := by rw [faults_append, h.faultless, hfaults, List.append_nil]
  silent := by rw [farewells_append, h.silent, hfarewells, List.append_nil]
  typing := h.typing

theorem Settled.quiet (h : Settled intended events said outcome) (hfaults : faults news = [])
    (hfarewells : farewells news = []) : Settled intended (events ++ news) said outcome := by
  obtain ⟨ending, houtcome, htroubles, hwords, hintended⟩ := h
  refine ⟨ending, houtcome, ?_, ?_, hintended⟩
  · rw [faults_append, hfaults, List.append_nil, htroubles]
  · rw [farewells_append, hfarewells, List.append_nil, hwords]

theorem Broken.quiet (h : Broken intended events said outcome) (hfaults : faults news = []) :
    Broken intended (events ++ news) said outcome := by
  have hsame : faults (events ++ news) = faults events := by
    rw [faults_append, hfaults, List.append_nil]
  exact ⟨hsame ▸ h.outcome, hsame ▸ h.fault, h.typing⟩

/-- Where nothing goes wrong and nothing is said on the terminal, the task stands where it stood. -/
theorem Standing.quiet {keyLoop : KeyLoop} (h : Standing intended draft reader events said keyLoop)
    (hfaults : faults news = []) (hfarewells : farewells news = []) :
    Standing intended draft reader (events ++ news) said keyLoop := by
  cases keyLoop with
  | drawing pen aim =>
      cases aim with
      | openRelay | readKeys => exact Running.quiet h hfaults hfarewells
      | leave outcome => exact Settled.quiet h hfaults hfarewells
  | reading => exact Running.quiet h hfaults hfarewells
  | leaving outcome | draining outcome | ended outcome =>
      exact h.imp (Settled.quiet · hfaults hfarewells) (Broken.quiet · hfaults)

/-! ## Reading -/

/-- What is next to be read is next in what is intended. -/
theorem Running.read {reading? : Option Reading} (h : Running intended draft reader events said)
    (hread : reader.step = some (reader', reading?)) (later : List ReadEvent) :
    intended later
      = (typed draft.chars (reading?.toList ++ (reader'.followedBy later).decoded)).after said := by
  rw [h.typing later, KeyReader.decoded_of_step (KeyReader.step_followedBy hread later)]

/-- Reading changes what is pending, and perhaps what has been said. -/
theorem Running.readOn {draft' : Draft} {said' : List String} {reading? : Option Reading}
    (h : Running intended draft reader events said)
    (hread : reader.step = some (reader', reading?))
    (htyped : ∀ readings, (typed draft.chars (reading?.toList ++ readings)).after said
      = (typed draft'.chars readings).after said') :
    Running intended draft' reader' events said' where
  faultless := h.faultless
  silent := h.silent
  typing := fun later => (h.read hread later).trans (htyped _)

theorem Running.enter (h : Running intended draft reader events said)
    (hread : reader.step = some (reader', some (.key .enter))) :
    Running intended .empty reader' events (said ++ entered draft.chars) := by
  refine h.readOn hread fun readings => ?_
  rw [Option.toList_some, List.singleton_append, typed, Typing.after_after]
  rfl

/-- Reading what ends the typing settles what has been said, and with which farewell. -/
theorem Running.settle {reading : Reading} {lines : List String}
    (h : Running intended draft reader events said) (ending : Ending)
    (hread : reader.step = some (reader', some reading))
    (htyped : ∀ readings, typed draft.chars (reading :: readings) = ⟨lines, some ending⟩)
    (hfaults : faults news = ending.faults) (hfarewells : farewells news = ending.farewells) :
    Settled intended (events ++ news) (said ++ lines) ending.outcome := by
  refine ⟨ending, rfl, ?_, ?_, fun later => ?_⟩
  · rw [faults_append, h.faultless, hfaults, List.nil_append]
  · rw [farewells_append, h.silent, hfarewells, List.nil_append]
  · rw [h.read hread later, Option.toList_some, List.singleton_append, htyped, Typing.after]

/-! ## Failing to write -/

/-- A session that cannot write what it wants to has said a beginning of what is intended, and the
    first thing that has gone wrong is how it ends. -/
theorem Standing.break {pen : Pen} {aim : Aim}
    (h : Standing intended draft reader events said (.drawing pen aim)) {fault : IoFault}
    (hnews : faults news = [.io fault]) :
    Broken intended (events ++ news) said (aim.outcomeOnFault fault) := by
  have hfaults : faults (events ++ news) = faults events ++ [.io fault] := by
    rw [faults_append, hnews]
  have hmem : ∃ cause, SessionFault.io cause ∈ faults (events ++ news) := by
    rw [hfaults]
    exact ⟨fault, List.mem_append_right _ (List.mem_singleton_self _)⟩
  have hrunning : Running intended draft reader events said →
      Broken intended (events ++ news) said (.failed (.io fault)) := by
    intro hrun
    refine ⟨by rw [hfaults, hrun.faultless]; rfl, hmem, fun later => ?_⟩
    rw [hrun.typing later]
    exact List.prefix_append _ _
  cases aim with
  | openRelay | readKeys => exact hrunning h
  | leave outcome =>
      -- a fault that was read before is the first one, and the one in writing comes behind it
      obtain ⟨ending, rfl, htroubles, -, hintended⟩ := h
      refine ⟨?_, hmem, fun later => ?_⟩
      · rw [hfaults, htroubles]
        cases ending <;> rfl
      · simp [hintended later]

/-! ## What has been said -/

/-- Whatever may arrive later, what has been said is a beginning of what is intended. -/
theorem Standing.said_prefix {keyLoop : KeyLoop}
    (h : Standing intended draft reader events said keyLoop) (later : List ReadEvent) :
    said <+: (intended later).lines := by
  have hrunning : Running intended draft reader events said → said <+: (intended later).lines := by
    intro hrun
    rw [hrun.typing later]
    exact List.prefix_append _ _
  have hsettled : ∀ {outcome}, Settled intended events said outcome →
      said <+: (intended later).lines := by
    rintro outcome ⟨ending, -, -, -, hintended⟩
    simp [hintended later]
  cases keyLoop with
  | drawing pen aim =>
      cases aim with
      | openRelay | readKeys => exact hrunning h
      | leave outcome => exact hsettled h
  | reading => exact hrunning h
  | leaving outcome | draining outcome | ended outcome =>
      exact h.elim hsettled fun hbroken => hbroken.typing later

/-- Without a failure to write, a session that has stopped reading has said everything. -/
theorem settled_of_well (hwell : ∀ fault, .drawFailed .keys fault ∉ events)
    (h : Settled intended events said outcome ∨ Broken intended events said outcome) :
    Settled intended events said outcome := by
  refine h.resolve_right fun hbroken => ?_
  obtain ⟨fault, hmem⟩ := hbroken.fault
  exact hwell fault (drawFailed_of_io_mem hmem)

theorem Settled.said_eq (h : Settled intended events said outcome) (later : List ReadEvent) :
    said = (intended later).lines := by
  obtain ⟨ending, -, -, -, hintended⟩ := h
  rw [hintended later]

end

/-! ## The course of a session -/

/-- The operations of a session that has said this. -/
def Ticket.course (ticket : Ticket) (claimed : String) (said : List String) (out : Bool) :
    List Room.Op :=
  .join claimed :: said.map (.say ticket.id ticket.name) ++ if out then [.leave ticket.id] else []

theorem Ticket.course_append (ticket : Ticket) (claimed : String) (said said' : List String) :
    ticket.course claimed (said ++ said') false
      = ticket.course claimed said false ++ said'.map (.say ticket.id ticket.name) := by
  simp [course]

theorem Ticket.course_out (ticket : Ticket) (claimed : String) (said : List String) :
    ticket.course claimed said true = ticket.course claimed said false ++ [.leave ticket.id] := by
  simp [course]

/-- The operations on the room are those that are due: none in the lobby, and else joining, saying
    what was said, and leaving. -/
structure Discipline (given : Given) (session : Session) (events : List Event) : Prop where
  claimed : session.claimed = given.claimed
  course : match session.stage with
    | .lobby | .turnedAway =>
      operations events = [] ∧ Running given.intended session.draft session.reader events []
    | .seated ticket keyLoop _ =>
      ∃ said, operations events = ticket.course given.claimed said keyLoop.isOut
        ∧ Standing given.intended session.draft session.reader events said keyLoop

/-- The discipline of the session in a scene. -/
abbrev Scene.Disciplined (scene : Scene) : Prop :=
  Discipline scene.given scene.session scene.events

section
variable {given : Given} {session : Session} {events : List Event}
variable {ticket : Ticket} {keyLoop : KeyLoop} {relay : Relay}

theorem Discipline.seated (h : Discipline given session events)
    (hstage : session.stage = .seated ticket keyLoop relay) :
    ∃ said, operations events = ticket.course given.claimed said keyLoop.isOut
      ∧ Standing given.intended session.draft session.reader events said keyLoop := by
  have hcourse := h.course
  simp only [hstage] at hcourse
  exact hcourse

theorem Discipline.unseated (h : Discipline given session events)
    (hstage : session.stage = .lobby ∨ session.stage = .turnedAway) :
    operations events = [] ∧ Running given.intended session.draft session.reader events [] := by
  have hcourse := h.course
  rcases hstage with hstage | hstage <;> simp only [hstage] at hcourse <;> exact hcourse

end

/-! ## Moves keep the discipline -/

section
variable {given : Given} {session session' : Session} {events news : List Event}
variable {ticket : Ticket} {keyLoop keyLoop' : KeyLoop} {relay relay' : Relay}

theorem standing_pen {draft : Draft} {reader : KeyReader} {said : List String} {aim : Aim}
    (pen pen' : Pen) (h : Standing given.intended draft reader events said (.drawing pen aim)) :
    Standing given.intended draft reader events said (.drawing pen' aim) := by
  cases aim <;> exact h

theorem standing_admitted {draft : Draft} {reader : KeyReader} {said : List String}
    (screen : Screen) (h : Standing given.intended draft reader events said keyLoop) :
    Standing given.intended draft reader events said (keyLoop.admitted screen) := by
  cases keyLoop with
  | drawing pen aim => exact standing_pen pen _ h
  | reading | leaving _ | draining _ | ended _ => exact h

theorem isOut_admitted (screen : Screen) : (keyLoop.admitted screen).isOut = keyLoop.isOut := by
  cases keyLoop <;> rfl

/-- A move that says nothing keeps the discipline if it keeps the standing. -/
theorem Discipline.keep (h : Discipline given session events)
    (hstage : session.stage = .seated ticket keyLoop relay)
    (hclaimed : session'.claimed = session.claimed)
    (hstage' : session'.stage = .seated ticket keyLoop' relay') (hops : operations news = [])
    (hout : keyLoop'.isOut = keyLoop.isOut)
    (hstanding : ∀ said, Standing given.intended session.draft session.reader events said keyLoop →
      Standing given.intended session'.draft session'.reader (events ++ news) said keyLoop') :
    Discipline given session' (events ++ news) := by
  obtain ⟨said, hsaid, hstands⟩ := h.seated hstage
  refine ⟨hclaimed.trans h.claimed, ?_⟩
  simp only [hstage', operations_append, hops, List.append_nil, hout]
  exact ⟨said, hsaid, hstanding said hstands⟩

/-- A line that is said is the next one that is due. -/
theorem Discipline.say {said : List String} {line : String}
    (hsaid : operations events = ticket.course given.claimed said false)
    (hops : operations news = [.say ticket.id ticket.name line])
    (hclaimed : session'.claimed = given.claimed)
    (hstage' : session'.stage = .seated ticket keyLoop' relay') (hout : keyLoop'.isOut = false)
    (hstands : Standing given.intended session'.draft session'.reader (events ++ news) (said ++ [line])
      keyLoop') :
    Discipline given session' (events ++ news) := by
  refine ⟨hclaimed, ?_⟩
  simp only [hstage', hout]
  refine ⟨said ++ [line], ?_, hstands⟩
  rw [operations_append, hops, hsaid, Ticket.course_append]
  rfl

end

/-- What is entered is said, unless it is blank. -/
theorem entered_of_blank {draft : Draft} (h : (Text.trim draft.text).isEmpty = true) :
    entered draft.chars = [] := by
  have hblank : (Text.trim (String.ofList draft.chars)).isEmpty = true := h
  simp [entered, hblank]

theorem entered_of_not_blank {draft : Draft} (h : (Text.trim draft.text).isEmpty = false) :
    entered draft.chars = [Text.trim draft.text] := by
  have hblank : (Text.trim (String.ofList draft.chars)).isEmpty = false := h
  simp [entered, hblank, Draft.text]

theorem Discipline.doing {given : Given} {session : Session} {room : Room} {task : Task}
    {move : Move} {events : List Event} (h : Discipline given session events)
    (hdoing : session.Doing room task move) :
    Discipline given move.session (events ++ move.events) := by
  cases hdoing with
  | answered | deserted =>
      -- requests are answered whatever the keys have come to
      refine ⟨h.claimed, ?_⟩
      cases hstage : session.stage with
      | lobby | turnedAway =>
          obtain ⟨hops, hrunning⟩ := h.unseated (by simp [hstage])
          refine ⟨?_, hrunning.quiet rfl rfl⟩
          rw [operations_append, hops]
          rfl
      | seated ticket keyLoop relay =>
          obtain ⟨said, hops, hstands⟩ := h.seated hstage
          refine ⟨said, ?_, hstands.quiet rfl rfl⟩
          rw [operations_append, hops]
          exact List.append_nil _
  | joined hstage hshell =>
      obtain ⟨hops, hrunning⟩ := h.unseated (Or.inl hstage)
      refine ⟨h.claimed, [], ?_, hrunning.quiet (faults_map_room _) (farewells_map_room _)⟩
      rw [operations_append, hops, operations_join, h.claimed]
      rfl
  | turnedAway hstage =>
      obtain ⟨hops, hrunning⟩ := h.unseated (Or.inl hstage)
      refine ⟨h.claimed, ?_, hrunning.quiet rfl rfl⟩
      rw [operations_append, hops]
      rfl
  | keysCalled hstage | keysHeldUp hstage | keysDrew hstage =>
      exact h.keep hstage rfl rfl rfl rfl fun _ hstands =>
        Standing.quiet (standing_pen _ _ hstands) rfl rfl
  | keysFailed hstage =>
      exact h.keep hstage rfl rfl rfl rfl fun _ hstands => Or.inr (hstands.break rfl)
  | opened hstage | ready hstage =>
      exact h.keep hstage rfl rfl rfl rfl fun _ hstands => Running.quiet hstands rfl rfl
  | tookLeave hstage =>
      exact h.keep hstage rfl rfl rfl rfl fun _ hstands => Or.inl (Settled.quiet hstands rfl rfl)
  | readOn hstage hread | ignored hstage hread =>
      exact h.keep hstage rfl rfl rfl rfl fun _ hstands =>
        (Running.readOn hstands hread fun _ => rfl).quiet rfl rfl
  | enteredBlank hstage hread hblank =>
      refine h.keep hstage rfl rfl rfl rfl fun said hstands => ?_
      have hrunning := Running.enter hstands hread
      rw [entered_of_blank hblank, List.append_nil] at hrunning
      exact hrunning.quiet rfl rfl
  | @entered ticket relay reader turn hstage hread hblank hturn =>
      subst hturn
      obtain ⟨said, hsaid, hstands⟩ := h.seated hstage
      refine .say hsaid (operations_say ..) h.claimed rfl rfl ?_
      rw [← entered_of_not_blank hblank]
      exact (Running.enter hstands hread).quiet (faults_map_room _) (farewells_map_room _)
  | acknowledged hstage hread hkey =>
      refine h.keep hstage rfl rfl rfl rfl fun said hstands => ?_
      rw [← List.append_nil said]
      rcases hkey with ⟨rfl, rfl⟩ | ⟨rfl, rfl⟩
      · exact Running.settle hstands .interrupt hread (fun _ => rfl) rfl rfl
      · exact Running.settle hstands .endOfInput hread (fun _ => rfl) rfl rfl
  | trimmed hstage hread =>
      refine h.keep hstage rfl rfl rfl rfl fun _ hstands => ?_
      refine (Running.readOn hstands hread fun _ => ?_).quiet rfl rfl
      rw [Draft.chars_trimLast]
      rfl
  | appended hstage hread =>
      refine h.keep hstage rfl rfl rfl rfl fun _ hstands => ?_
      refine (Running.readOn hstands hread fun _ => ?_).quiet rfl rfl
      rw [Draft.chars_append]
      rfl
  | closedBlank hstage hread hblank =>
      refine h.keep hstage rfl rfl rfl rfl fun said hstands => Or.inl ?_
      rw [← List.append_nil said, ← entered_of_blank hblank]
      exact Running.settle hstands .closed hread (fun _ => rfl) rfl rfl
  | @closed ticket relay reader turn hstage hread hblank hturn =>
      subst hturn
      obtain ⟨said, hsaid, hstands⟩ := h.seated hstage
      refine .say hsaid (operations_say ..) h.claimed rfl rfl ?_
      rw [← entered_of_not_blank hblank]
      exact Running.settle hstands .closed hread (fun _ => rfl) (faults_map_room _)
        (farewells_map_room _)
  | @readFailed ticket relay reader fault hstage hread =>
      refine h.keep hstage rfl rfl rfl rfl fun said hstands => ?_
      rw [← List.append_nil said]
      exact Running.settle hstands (.failed fault) hread (fun _ => rfl) rfl rfl
  | @left ticket relay outcome hstage =>
      obtain ⟨said, hsaid, hstands⟩ := h.seated hstage
      have hdrains : Standing given.intended session.draft session.reader events said
          (.draining outcome) := hstands
      refine ⟨h.claimed, said, ?_, hdrains.quiet (faults_map_room _) (farewells_map_room _)⟩
      rw [operations_append, hsaid, operations_leave]
      exact (Ticket.course_out ..).symm
  | @ended ticket relay outcome hstage hover =>
      have hops : operations (ticket.closing outcome session.screen.shutdown.1) = [] := by
        rw [operations, roomEvents_closing]
        rfl
      refine h.keep hstage rfl rfl hops rfl fun said hstands => ?_
      have hends : Standing given.intended session.draft session.reader events said
          (.ended outcome) := hstands
      exact hends.quiet (faults_closing ..) (farewells_closing ..)
  | fetched hstage | relayEnded hstage | relayCalled hstage | relayHeldUp hstage
  | relayReady hstage =>
      exact h.keep hstage rfl rfl rfl rfl fun _ hstands => hstands.quiet rfl rfl
  | relayDrew hstage | relayFailed hstage =>
      exact h.keep hstage rfl rfl rfl (isOut_admitted _) fun _ hstands =>
        (standing_admitted _ hstands).quiet rfl rfl

/-! ## More input keeps the discipline -/

/-- The same with more input. -/
def Given.fed (given : Given) (event : ReadEvent) : Given :=
  { given with input := given.input ++ [event] }

theorem Given.intended_fed (given : Given) (event : ReadEvent) (later : List ReadEvent) :
    (given.fed event).intended later = given.intended (event :: later) := by
  simp [intended, fed]

section
variable {given : Given} {draft : Draft} {reader : KeyReader} {events : List Event}
variable {said : List String} {outcome : Outcome}

theorem Running.fed (h : Running given.intended draft reader events said) (event : ReadEvent) :
    Running (given.fed event).intended draft (reader.push event) events said where
  faultless := h.faultless
  silent := h.silent
  typing := by
    intro later
    rw [Given.intended_fed, KeyReader.push_eq_followedBy, KeyReader.followedBy_followedBy]
    exact h.typing (event :: later)

theorem Settled.fed (h : Settled given.intended events said outcome) (event : ReadEvent) :
    Settled (given.fed event).intended events said outcome := by
  obtain ⟨ending, houtcome, hfaults, hfarewells, hintended⟩ := h
  refine ⟨ending, houtcome, hfaults, hfarewells, fun later => ?_⟩
  rw [Given.intended_fed]
  exact hintended (event :: later)

theorem Broken.fed (h : Broken given.intended events said outcome) (event : ReadEvent) :
    Broken (given.fed event).intended events said outcome where
  outcome := h.outcome
  fault := h.fault
  typing := by
    intro later
    rw [Given.intended_fed]
    exact h.typing (event :: later)

theorem Standing.fed {keyLoop : KeyLoop} (h : Standing given.intended draft reader events said keyLoop)
    (event : ReadEvent) :
    Standing (given.fed event).intended draft (reader.push event) events said keyLoop := by
  cases keyLoop with
  | drawing pen aim =>
      cases aim with
      | openRelay | readKeys => exact Running.fed h event
      | leave outcome => exact Settled.fed h event
  | reading => exact Running.fed h event
  | leaving outcome | draining outcome | ended outcome =>
      exact h.imp (Settled.fed · event) (Broken.fed · event)

end

theorem Scene.Disciplined.fed {scene : Scene} (h : scene.Disciplined) (event : ReadEvent) :
    (scene.fed event).Disciplined := by
  refine ⟨h.claimed, ?_⟩
  show match scene.session.stage with | .lobby | .turnedAway => _ | .seated ticket keyLoop _ => _
  cases hstage : scene.session.stage with
  | lobby =>
      obtain ⟨hops, hrunning⟩ := h.unseated (Or.inl hstage)
      exact ⟨hops, hrunning.fed event⟩
  | turnedAway =>
      obtain ⟨hops, hrunning⟩ := h.unseated (Or.inr hstage)
      exact ⟨hops, hrunning.fed event⟩
  | seated ticket keyLoop relay =>
      obtain ⟨said, hops, hstands⟩ := h.seated hstage
      exact ⟨said, hops, hstands.fed event⟩

/-! ## Every scene -/

/-- In every scene the session has said what it should have. -/
theorem Scene.Reachable.disciplined {scene : Scene} (h : scene.Reachable) :
    scene.Disciplined := by
  refine h.invariant ?_ ?_
  · intro given arriving script room chronicle _
    exact ⟨rfl, rfl, rfl, rfl, fun _ => rfl⟩
  · intro scene scene' _ hbefore hstep
    cases hstep with
    | moved hmove => exact hbefore.doing (Session.doing_of_step hmove)
    | fed event => exact hbefore.fed event
    | disturbed _ _ | clock _ => exact hbefore
    | asked _ | askedAll | rescripted _ => exact ⟨hbefore.claimed, hbefore.course⟩

end LineChat
