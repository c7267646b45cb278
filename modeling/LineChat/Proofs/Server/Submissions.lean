import LineChat.Proofs.Server.Happenings
import LineChat.Proofs.Server.Rest
import LineChat.Proofs.Session.CleanPrompts
import Mathlib.Data.List.Induction

set_option autoImplicit false

/-! # What is typed and what is said of it

Whatever bytes arrive, and however they are cut, no control character gets into the line that is
being typed, into a prompt or into what is said. What is said at some point of a session was said
there by a move of its key task (`exists_leaves`), so it can be held against the line that
was pending just then: it is a part of that line, with nothing blank at its ends
(`typed_clean_of_run`). -/

namespace LineChat.World

/-! ## The moves behind the events -/

/-- On the way of a run session `i` leaves an event behind `earlier` ones: a task of it makes a move
    in the scene `before`, and this event is found there in the move. -/
structure Leaves (origin : World) (history : List Happening) (world : World) (i : Nat) (task : Task)
    (earlier : List Event) (event : Event) (before : Scene) (move : Move) : Prop where
  way : ∃ sooner past next after, history = sooner ++ .move ⟨i, task⟩ :: after
    ∧ origin.run sooner = some past ∧ past.scene? i = some before
    ∧ past.happen (.move ⟨i, task⟩) = some next ∧ next.run after = some world
  step : before.session.step before.room task = some move
  place : ∃ told rest, earlier = before.events ++ told ∧ move.events = told ++ event :: rest

section
variable {origin world next : World} {history : List Happening} {happening : Happening} {i : Nat}
variable {task : Task} {earlier : List Event} {event : Event} {before : Scene} {move : Move}

theorem Leaves.snoc (h : Leaves origin history world i task earlier event before move)
    (hnext : world.happen happening = some next) :
    Leaves origin (history ++ [happening]) next i task earlier event before move := by
  obtain ⟨⟨sooner, past, after, rest, rfl, hpast, hbefore, hafter, hrest⟩, hstep, hplace⟩ := h
  refine ⟨⟨sooner, past, after, rest ++ [happening], by simp, hpast, hbefore, hafter, ?_⟩, hstep,
    hplace⟩
  rw [run_append, hrest, Option.bind_some, run, hnext]
  rfl

/-- What comes to the events of a session is left by a move. -/
theorem Sound.leaves_last (h : world.Sound) (hrun : origin.run history = some world)
    (hnext : world.happen happening = some next) {later : List Event}
    (hevents : eventsOf next.server.journal i = earlier ++ event :: later) :
    (∃ rest, eventsOf world.server.journal i = earlier ++ event :: rest)
      ∨ ∃ task before move,
          Leaves origin (history ++ [happening]) next i task earlier event before move := by
  rcases moved_or_stands hnext i with ⟨task, session, move, rfl, hsession, hmove, rfl⟩ | ⟨-, hstands⟩
  · obtain ⟨before, hbefore, rfl, hroom, hpast⟩ := h.exists_scene hsession
    rw [hroom.symm] at hmove
    have hway : ∀ told rest, earlier = before.events ++ told → move.events = told ++ event :: rest →
        Leaves origin (history ++ [.move ⟨i, task⟩]) (world.moved i move) i task earlier event before
          move := by
      intro told rest hearlier hrest
      exact ⟨⟨history, world, _, [], rfl, hrun, hbefore, hnext, rfl⟩, hmove,
        ⟨told, rest, hearlier, hrest⟩⟩
    -- the event is one of the new ones, or one of those that were there
    rw [eventsOf_moved, if_pos rfl, ← hpast, List.append_eq_append_iff] at hevents
    rcases hevents with ⟨told, hearlier, hrest⟩ | ⟨rest, hthere, hrest⟩
    · exact Or.inr ⟨task, before, move, hway told later hearlier hrest⟩
    · cases rest with
      | nil =>
          rw [List.append_nil] at hthere
          exact Or.inr ⟨task, before, move, hway [] later (by simp [hthere]) hrest.symm⟩
      | cons first rest =>
          obtain ⟨rfl, -⟩ := List.cons.inj hrest
          exact Or.inl ⟨rest, hpast ▸ hthere⟩
  · exact Or.inl ⟨later, hstands.events ▸ hevents⟩

/-- Whatever is found among the events of a session was left there by one of its moves. -/
theorem exists_leaves {stamp : String} {picker : ColorPicker}
    (hrun : (start stamp picker).run history = some world) {later : List Event}
    (hevents : eventsOf world.server.journal i = earlier ++ event :: later) :
    ∃ task before move,
      Leaves (start stamp picker) history world i task earlier event before move := by
  -- by what happened last: either that left the event, or it was there before
  induction history using List.reverseRecOn generalizing world later with
  | nil =>
      obtain rfl := Option.some.inj hrun
      exact absurd hevents.symm (List.append_ne_nil_of_right_ne_nil _ (List.cons_ne_nil _ _))
  | append_singleton sooner happening ih =>
      rw [run_append] at hrun
      obtain ⟨past, hpast, hlast⟩ := Option.bind_eq_some_iff.1 hrun
      obtain ⟨next, hnext, hdone⟩ := Option.bind_eq_some_iff.1 hlast
      obtain rfl := Option.some.inj hdone
      have hsound := sound_of_run hpast
      rcases hsound.leaves_last hpast hnext hevents with ⟨rest, hbefore⟩ | hnow
      · obtain ⟨task, before, move, hleaves⟩ := ih hpast hbefore
        exact ⟨task, before, move, hleaves.snoc hnext⟩
      · exact hnow

end

/-! ## Clean lines -/

/-- Whatever bytes come to a session, and however they are cut: at every point of every run there is
    no control character in the line that is being typed, nor in a prompt that is drawn, being drawn
    or in line. What the session says is never empty, begins and ends with a character that is not
    blank, has no control characters, and is a contiguous part of the line that was being typed
    when it was said. -/
theorem typed_clean_of_run {stamp : String} {picker : ColorPicker} {history : List Happening}
    {world : World} (hrun : (start stamp picker).run history = some world) {i : Nat} {scene : Scene}
    (hscene : world.scene? i = some scene) :
    Text.Clean scene.session.draft.text
      ∧ (∀ header line, .prompt header line ∈ drawn scene.events → Text.Clean line)
      ∧ (∀ ticket keyLoop relay, scene.session.stage = .seated ticket keyLoop relay →
          ∀ header line,
            .prompt header line ∈ Pen.asked (drawn scene.events) keyLoop.pen relay.pen →
              Text.Clean line)
      ∧ ∀ earlier id fallback text line later,
          scene.events = earlier ++ .room (.said id fallback text line) :: later →
          text ≠ "" ∧ Text.Clean text
            ∧ (∀ c, text.toList.head? = some c ∨ text.toList.getLast? = some c →
                Text.isBlank c = false)
            ∧ ∃ before move,
                Leaves (start stamp picker) history world i .keys earlier
                    (.room (.said id fallback text line)) before move
                  ∧ text.toList <:+: before.session.draft.chars := by
  have htidy := (reachable_of_run hrun hscene).tidy
  refine ⟨htidy.draft, fun header line hmem => htidy.drawn _ hmem header line rfl, ?_, ?_⟩
  · intro ticket keyLoop relay hstage header line hmem
    exact htidy.asked hstage _ hmem header line rfl
  · intro earlier id fallback text line later hevents
    obtain ⟨-, -, hthis, -, -⟩ := (world.scene?_eq_some_iff i scene).1 hscene
    obtain ⟨task, before, move, hleaves⟩ := exists_leaves hrun (hthis.trans hevents)
    obtain ⟨told, rest, -, hplace⟩ := hleaves.place
    have hmem : .room (.said id fallback text line) ∈ move.events := by
      rw [hplace]
      exact List.mem_append_right _ List.mem_cons_self
    obtain ⟨rfl, rfl, hsome⟩ := (Session.doing_of_step hleaves.step).submitted hmem
    obtain ⟨sooner, past, -, -, -, hpast, hbefore, -⟩ := hleaves.way
    have hclean := (reachable_of_run hpast hbefore).tidy.draft
    refine ⟨by simpa using hsome, hclean.trim, ?_, before, move, hleaves, ?_⟩
    · intro c hc
      rw [Text.trim, String.toList_ofList] at hc
      exact Text.isBlank_of_end_trimmed _ c hc
    · obtain ⟨front, back, hparts⟩ :=
        Text.exists_append_trimmed_append before.session.draft.text.toList
      rw [Draft.toList_text] at hparts
      refine ⟨front, back, ?_⟩
      rw [Text.trim, String.toList_ofList, Draft.toList_text]
      exact hparts.symm

/-- None of these gets through, and what is left is said: a line feed and an escape that are encoded
    too long, a control character of two bytes, the same one cut in two, and an escape behind a byte
    with which a longer character begins. -/
theorem typed_clean_of_run_of_tricks :
    let chunks : List (List UInt8) :=
      [[0x20, 0xC0, 0x8A, 0x68, 0xE0, 0x80, 0x9B, 0xC2, 0x9B, 0xC2], [0x9B, 0x20, 0xE2],
        [0x1B, 0x5B, 0x41, 0x69, 0x20, 0x0D, 0x20, 0x6F]]
    let event := Event.room (.said ⟨1⟩ "ann" "h [Ai" "[12:00] ann: h [Ai")
    ∃ history world scene earlier later before move,
      (start "12:00" .plain).run history = some world ∧ world.scene? 0 = some scene
        ∧ scene.given.input = chunks.map .data
        ∧ scene.session.draft.text = " o" ∧ Text.Clean scene.session.draft.text
        ∧ scene.events = earlier ++ event :: later ∧ Text.Clean "h [Ai"
        ∧ Leaves (start "12:00" .plain) history world 0 .keys earlier event before move
        ∧ "h [Ai".toList <:+: before.session.draft.chars := by
  intro chunks event
  let connect := Server.Stimulus.connect "ann" [.shell] false (chunks.map .data) .willing
  have hend : ((start "12:00" .plain).reactions [connect]).bind (fun world =>
        (world.scene? 0).map fun scene =>
          (scene.given.input, scene.session.draft.text, scene.events.contains event))
      = some (chunks.map .data, " o", true) := by
    decide +kernel
  obtain ⟨world, hworld, hthis⟩ := Option.bind_eq_some_iff.1 hend
  obtain ⟨scene, hscene, hparts⟩ := Option.map_eq_some_iff.1 hthis
  simp only [Prod.mk.injEq, List.contains_iff_mem] at hparts
  obtain ⟨hinput, htext, hmem⟩ := hparts
  obtain ⟨history, hrun⟩ := exists_run_of_reactions hworld
  obtain ⟨earlier, later, hevents⟩ := List.append_of_mem hmem
  obtain ⟨hdraft, -, -, hsaid⟩ := typed_clean_of_run hrun hscene
  obtain ⟨-, hclean, -, before, move, hleaves, hpart⟩ := hsaid _ _ _ _ _ _ hevents
  exact ⟨history, world, scene, earlier, later, before, move, hrun, hscene, hinput, htext, hdraft,
    hevents, hclean, hleaves, hpart⟩

end LineChat.World
