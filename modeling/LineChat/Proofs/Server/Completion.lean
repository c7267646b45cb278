import LineChat.Proofs.Server.Listening

set_option autoImplicit false

/-! # Everything comes to an end

Whatever happens to a server that can be reached, its tasks make finitely many moves until each of
them waits, whoever has the turn: no run of moves is longer than `Server.effort` says. What they
wait for is something from outside. A session whose connection holds nothing up is then in one of
two states. It reads, and has read all that there is, or it has ended; so once something has been
read that puts an end to typing, it has ended. In particular no session waits for its relay on the
way out, whether the relay was still at work, had failed before, or found the queue closed by
somebody else. -/

namespace LineChat

/-- When every task waits, a session that has a seat and whose connection holds nothing up reads or
    has ended, and it does not read any more if something was typed that ends it. -/
theorem Scene.Reachable.ended_of_waiting {scene : Scene} {ticket : Ticket} {keyLoop : KeyLoop}
    {relay : Relay} (h : scene.Reachable)
    (hwait : ∀ task, scene.session.step scene.room task = none)
    (hprompt : scene.session.screen.sink.stalled = false)
    (hstage : scene.session.stage = .seated ticket keyLoop relay) :
    (keyLoop = .reading ∨ ∃ outcome, keyLoop = .ended outcome ∧ relay.isOver = true)
      ∧ ((∃ reading ∈ (KeyReader.ofEvents scene.given.input).decoded, reading.isFinal = true) →
          ∃ outcome, keyLoop = .ended outcome) := by
  constructor
  · rcases h.reading_or_ended hwait hprompt hstage with ⟨hreads, -⟩ | ⟨outcome, rfl⟩
    · exact Or.inl hreads
    · exact Or.inr ⟨outcome, rfl, (h.winding.ended _ _ _ hstage).1⟩
  · rintro ⟨reading, hmem, hfinal⟩
    have hintended : scene.given.intended []
        = typed [] (KeyReader.ofEvents scene.given.input).decoded := by
      rw [Given.intended, List.append_nil]
    have hend := isSome_ending?_of_isFinal hmem hfinal []
    exact h.ended_of_ending? (hintended ▸ hend) hwait hprompt hstage

namespace World

/-- Every move uses up some of the effort. -/
theorem length_add_effort_le {world later : World} {refs : List TaskRef}
    (hrun : world.run (refs.map .move) = some later) :
    refs.length + later.server.effort ≤ world.server.effort := by
  induction refs generalizing world with
  | nil =>
      obtain rfl := Option.some.inj hrun
      exact Nat.le_of_eq (Nat.zero_add _)
  | cons ref refs ih =>
      obtain ⟨next, hnext, hlater⟩ := Option.bind_eq_some_iff.1 hrun
      obtain ⟨server, hstep, rfl⟩ := Option.map_eq_some_iff.1 hnext
      have hless := Server.effort_lt_of_step hstep
      have hrest := ih hlater
      simp only [List.length_cons] at hrest ⊢
      omega

/-- Whatever happens to a server that can be reached: the tasks make no more moves than there is
    effort, and if they take turns, each of them comes to wait. However they have come to wait, a
    session that has a seat, and whose connection holds nothing up, is not on its way out, and it has
    ended if a control key, the end of the input or a failure was read. -/
theorem ended_of_run {stamp : String} {picker : ColorPicker} {history : List Happening}
    {world next : World} {happening : Happening}
    (hrun : (start stamp picker).run history = some world)
    (hnext : world.happen happening = some next) :
    (∀ (refs : List TaskRef) later, next.run (refs.map .move) = some later →
        refs.length + later.server.effort ≤ next.server.effort)
      ∧ (∃ refs : List TaskRef, next.run (refs.map .move) = some next.settled
          ∧ next.settled.server.atRest = true)
      ∧ ∀ (refs : List TaskRef) later, next.run (refs.map .move) = some later →
          later.server.atRest = true → ∀ i scene ticket keyLoop relay, later.scene? i = some scene →
            scene.session.stage = .seated ticket keyLoop relay →
            scene.session.screen.sink.stalled = false →
            (keyLoop = .reading ∨ ∃ outcome, keyLoop = .ended outcome ∧ relay.isOver = true)
              ∧ ((∃ reading ∈ (KeyReader.ofEvents scene.given.input).decoded,
                    reading.isFinal = true) →
                  ∃ outcome, keyLoop = .ended outcome) := by
  refine ⟨fun refs later => length_add_effort_le, ?_, ?_⟩
  · obtain ⟨refs, hrefs⟩ := next.run_settled
    exact ⟨refs, hrefs, next.server.atRest_settle⟩
  · intro refs later hlater hrest i scene ticket keyLoop relay hscene hstage hprompt
    have hwhole : (start stamp picker).run (history ++ happening :: refs.map .move)
        = some later := by
      rw [run_append, hrun, Option.bind_some, run, hnext, Option.bind_some, hlater]
    exact (reachable_of_run hwhole hscene).ended_of_waiting (waiting_of_atRest hrest hscene) hprompt
      hstage

/-- The relay of ann has failed, and somebody else has removed her from the room. Her interrupt is
    read in spite of the stray byte in front of it, and she does not wait for the relay. -/
theorem ended_of_run_of_deaf :
    ∃ history world next later scene ticket outcome relay,
      (start "12:00" .plain).run history = some world
      ∧ world.happen (.stimulus (.feed 0 (.data [0xE6, 3]))) = some next
      ∧ (∃ refs : List TaskRef, next.run (refs.map .move) = some later
          ∧ refs.length + later.server.effort ≤ next.server.effort)
      ∧ later.server.atRest = true ∧ later.scene? 0 = some scene
      ∧ drawFaults .relay scene.events = [.ofKind .brokenPipe]
      ∧ scene.session.stage = .seated ticket (.ended outcome) relay := by
  let failsOnce := Manner.script ⟨false, some 0, true, none, false, false, .ofKind .brokenPipe⟩
  let stimuli : List Server.Stimulus :=
    [.connect "ann" [.shell] true [] .willing, .rescript 0 failsOnce, .room [.join "bob"],
      .room [.leave ⟨1⟩]]
  have hend : ((start "12:00" .plain).reactions stimuli).bind (fun world =>
        (world.happen (.stimulus (.feed 0 (.data [0xE6, 3])))).bind fun next =>
          (next.settled.scene? 0).map fun scene =>
            (scene.session.stage, scene.session.screen.sink.stalled, scene.given.input,
              drawFaults .relay scene.events))
      = some (.seated ⟨⟨1⟩, "ann", ⟨""⟩, ⟨0⟩⟩ (.ended .well) .finished, false,
          [.data [0xE6, 3]], [.ofKind .brokenPipe]) := by
    decide +kernel
  obtain ⟨world, hworld, hthis⟩ := Option.bind_eq_some_iff.1 hend
  obtain ⟨next, hnext, hthis⟩ := Option.bind_eq_some_iff.1 hthis
  obtain ⟨scene, hscene, hparts⟩ := Option.map_eq_some_iff.1 hthis
  simp only [Prod.mk.injEq] at hparts
  obtain ⟨hstage, hprompt, hinput, hfaults⟩ := hparts
  obtain ⟨history, hrun⟩ := exists_run_of_reactions hworld
  obtain ⟨hbound, ⟨refs, hrefs, hrest⟩, hended⟩ := ended_of_run hrun hnext
  obtain ⟨-, hfinal⟩ := hended refs _ hrefs hrest 0 scene _ _ _ hscene hstage hprompt
  obtain ⟨outcome, hkeys⟩ := hfinal ⟨.key .interrupt, by rw [hinput]; decide +kernel, rfl⟩
  refine ⟨history, world, next, _, scene, _, outcome, _, hrun, hnext,
    ⟨refs, hrefs, hbound refs _ hrefs⟩, hrest, hscene, hfaults, hkeys ▸ hstage⟩

end World

end LineChat
