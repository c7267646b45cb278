import LineChat.Proofs.Key.Faults
import LineChat.Proofs.Server.Chunking

set_option autoImplicit false

/-! # What a failure to read does to a session

A session takes a failure as its reader does. Between two characters the end of the input may come
as a failure too: what is pending is said as the last line, and the session ends well. Within a
character every failure is a failure, so what is pending is dropped and the session ends by it. -/

namespace LineChat

theorem KeyReader.isFinal_of_ofFault {within : Bool} {fault : IoFault} {last : Reading}
    (h : ofFault within fault = some last) :
    last.isFinal = true ∧ (last = .closed ∨ ∃ fault, last = .failed fault) := by
  unfold ofFault at h
  split at h
  · obtain rfl := Option.some.inj h
    exact ⟨rfl, Or.inr ⟨fault, rfl⟩⟩
  · split at h
    · exact nomatch h
    · obtain rfl := Option.some.inj h
      exact ⟨rfl, Or.inl rfl⟩
    · obtain rfl := Option.some.inj h
      exact ⟨rfl, Or.inr ⟨fault, rfl⟩⟩

/-- What is read behind the end of typing makes no difference. -/
theorem typed_append_final {last : Reading} (hfinal : last.isFinal = true) (pending : List Char)
    (readings later : List Reading) :
    typed pending (readings ++ last :: later) = typed pending (readings ++ [last]) := by
  induction readings generalizing pending with
  | cons first readings ih => exact KeyReader.typed_cons_congr ih first pending
  | nil =>
      cases last with
      | closed | failed fault => rfl
      | key key =>
          cases key with
          | interrupt | endOfInput => rfl
          | enter | backspace | char _ | ignored => exact nomatch hfinal

namespace World

open KeyReader

/-- What follows from a failure to read behind some bytes. The reader gives the keys of the bytes,
    then what it reads the failure as, and then what comes later, from the start. Between two
    characters an interrupted read changes nothing at all. If the failure is read as an end or as a
    failure, a session that can write what it wants to has ended once every task waits, unless it is
    held up; and when it has ended, it has said what was typed up to there, with what was pending if
    it was an end, and has ended as the typing has. -/
theorem faults_of_run {stamp : String} {picker : ColorPicker} {history : List Happening}
    {world : World} {i : Nat} {scene : Scene} {chunks : List (List UInt8)} {fault : IoFault}
    {later : List ReadEvent}
    (hrun : (start stamp picker).run history = some world) (hscene : world.scene? i = some scene)
    (hinput : scene.given.input = chunks.map .data ++ .error fault :: later) (hne : [] ∉ chunks) :
    let keys := (keysOf chunks).map Reading.key
    let within := Utf8.isOpen chunks.flatten
    (ofEvents scene.given.input).decoded
        = keys ++ (ofFault within fault).toList ++ (ofEvents later).decoded
      ∧ (within = false → fault.kind = .interrupted →
          (ofEvents scene.given.input).decoded = (ofEvents (chunks.map .data ++ later)).decoded)
      ∧ ∀ last ticket, ofFault within fault = some last → tickets scene.events = [ticket] →
          drawFaults .keys scene.events = [] →
          let typing := typed [] (keys ++ [last])
          (world.server.atRest = true → scene.session.screen.sink.stalled = false →
              scene.session.outcome?.isSome = true)
            ∧ ∀ outcome, scene.session.outcome? = some outcome →
                operations scene.events
                    = .join scene.given.claimed
                      :: typing.lines.map (.say ticket.id ticket.name) ++ [.leave ticket.id]
                  ∧ typing.ending?.map Ending.outcome = some outcome := by
  intro keys within
  have hdecoded : (ofEvents scene.given.input).decoded
      = keys ++ (ofFault within fault).toList ++ (ofEvents later).decoded := by
    rw [hinput]
    exact decoded_of_fault hne fault later
  refine ⟨hdecoded, fun hbetween hkind => ?_, fun last ticket hlast hticket hwell => ?_⟩
  · rw [hinput]
    exact decoded_of_interrupted hne hbetween hkind later
  intro typing
  have hreach := reachable_of_run hrun hscene
  have hseat := hreach.ticket?_eq hticket
  obtain ⟨hfinal, hend⟩ := isFinal_of_ofFault hlast
  -- what comes later is typed in vain
  have hintended : scene.given.intended [] = typing := by
    rw [Given.intended, List.append_nil, hdecoded, hlast, Option.toList_some, List.append_assoc]
    exact typed_append_final hfinal [] keys _
  have hsome : (scene.given.intended []).ending?.isSome = true := by
    rw [hintended]
    exact isSome_ending?_typed (List.mem_append_right _ (List.mem_singleton_self last)) hend []
  refine ⟨fun hrest hprompt => ?_, fun outcome houtcome => ?_⟩
  · exact hreach.isSome_outcome? hseat hsome (waiting_of_atRest hrest hscene) hprompt
  · obtain ⟨hops, hresult⟩ :=
      hreach.due_of_outcome (drawFaults_eq_nil_iff.1 hwell) hseat houtcome
    rw [← hintended]
    exact ⟨hops, hresult⟩

/-- What has been typed when the connection breaks off between two characters is said, although it
    was not entered. -/
theorem faults_of_run_of_broken_off :
    let chunks : List (List UInt8) := [[0x68, 0x69, 0x0D, 0x6F, 0xC3], [0xA9]]
    let fault := IoFault.ofKind .unexpectedEof
    ∃ history world scene ticket, (start "12:00" .plain).run history = some world
      ∧ world.scene? 0 = some scene
      ∧ scene.given.input = chunks.map .data ++ .error fault :: [.data [0x6F]] ∧ [] ∉ chunks
      ∧ (ofEvents scene.given.input).decoded
          = [.key (.char 'h'), .key (.char 'i'), .key .enter, .key (.char 'o'), .key (.char 'é'),
              .closed, .key (.char 'o')]
      ∧ tickets scene.events = [ticket] ∧ scene.session.outcome? = some .well
      ∧ operations scene.events = [.join "ann", .say ticket.id ticket.name "hi",
          .say ticket.id ticket.name "oé", .leave ticket.id] := by
  intro chunks fault
  let connect := Server.Stimulus.connect "ann" [.shell] false
    (chunks.map .data ++ .error fault :: [.data [0x6F]]) .willing
  have hend : ((start "12:00" .plain).reactions [connect]).bind (fun world =>
        (world.scene? 0).map fun scene =>
          (scene.given.claimed == "ann" && (drawFaults .keys scene.events).isEmpty,
            scene.given.input, tickets scene.events, scene.session.outcome?))
      = some (true, chunks.map .data ++ .error fault :: [.data [0x6F]],
          [⟨⟨1⟩, "ann", ⟨""⟩, ⟨0⟩⟩], some .well) := by
    decide +kernel
  obtain ⟨world, hworld, hthis⟩ := Option.bind_eq_some_iff.1 hend
  obtain ⟨scene, hscene, hparts⟩ := Option.map_eq_some_iff.1 hthis
  simp only [Prod.mk.injEq, Bool.and_eq_true, beq_iff_eq, List.isEmpty_iff] at hparts
  obtain ⟨⟨hclaimed, hwell⟩, hinput, hticket, houtcome⟩ := hparts
  obtain ⟨history, hrun⟩ := exists_run_of_reactions hworld
  have hlast : ofFault (Utf8.isOpen chunks.flatten) fault = some .closed := rfl
  have hne : [] ∉ chunks := by decide
  obtain ⟨hdecoded, -, hsession⟩ := faults_of_run hrun hscene hinput hne
  obtain ⟨-, hended⟩ := hsession .closed _ hlast hticket hwell
  obtain ⟨hops, -⟩ := hended _ houtcome
  have hkeys : keysOf chunks = [.char 'h', .char 'i', .enter, .char 'o', .char 'é'] := by
    decide +kernel
  rw [hlast, hkeys] at hdecoded
  rw [hclaimed, hkeys] at hops
  exact ⟨history, world, scene, _, hrun, hscene, hinput, hne, hdecoded, hticket, houtcome, hops⟩

/-- Within a character the kind of a failure counts for nothing. An interrupted read costs the
    character, of which the rest is read as garbage, and an unexpected end is no end; and so what is
    pending is not said, and the session ends by the failure. -/
theorem exists_run_of_cut_character :
    let interrupted := IoFault.ofKind .interrupted
    let broken := IoFault.ofKind .unexpectedEof
    (ofEvents [.data [0xC3], .data [0xA9, 0x61]]).decoded = [.key (.char 'é'), .key (.char 'a')]
      ∧ (ofEvents [.data [0xC3], .error interrupted, .data [0xA9, 0x61, 0xC3],
            .error broken]).decoded
          = [.failed interrupted, .key .ignored, .key (.char 'a'), .failed broken]
      ∧ ∃ history world scene ticket, (start "12:00" .plain).run history = some world
          ∧ world.scene? 0 = some scene
          ∧ scene.given.input = [.data [0x68, 0x69, 0xC3], .error broken]
          ∧ tickets scene.events = [ticket]
          ∧ operations scene.events = [.join "ann", .leave ticket.id]
          ∧ scene.session.outcome? = some (.failed (.read broken)) := by
  intro interrupted broken
  refine ⟨by decide +kernel, by decide +kernel, ?_⟩
  let connect := Server.Stimulus.connect "ann" [.shell] false
    [.data [0x68, 0x69, 0xC3], .error broken] .willing
  have hend : ((start "12:00" .plain).reactions [connect]).bind (fun world =>
        (world.scene? 0).map fun scene =>
          (scene.given.input, tickets scene.events, operations scene.events,
            scene.session.outcome?))
      = some ([.data [0x68, 0x69, 0xC3], .error broken], [⟨⟨1⟩, "ann", ⟨""⟩, ⟨0⟩⟩],
          [.join "ann", .leave ⟨1⟩], some (.failed (.read broken))) := by
    decide +kernel
  obtain ⟨world, hworld, hthis⟩ := Option.bind_eq_some_iff.1 hend
  obtain ⟨scene, hscene, hparts⟩ := Option.map_eq_some_iff.1 hthis
  simp only [Prod.mk.injEq] at hparts
  obtain ⟨hinput, hticket, hops, houtcome⟩ := hparts
  obtain ⟨history, hrun⟩ := exists_run_of_reactions hworld
  exact ⟨history, world, scene, _, hrun, hscene, hinput, hticket, hops, houtcome⟩

end World

end LineChat
