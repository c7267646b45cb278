import LineChat.Proofs.Server.Authorship

set_option autoImplicit false

/-! # Nobody can forge a line

Where everybody is a session without a name of its own, as the network front end opens them, the
names in the lines are the display forms of numbers, and the typed texts have no escape character.
So the lines can be read back: none that somebody has said can be taken for an announcement, for
somebody else's, or for another text. -/

namespace LineChat

/-- Lines in which a name is the display form of its number, at times without a closing bracket. -/
def Wording.numbered : Wording where
  time time := ']' ∉ time.toList
  name id name := name = id.display
  color _ := True
  plain := trivial

namespace World

/-- What anybody finds in a queue is the announcement that somebody came or went, or a line that a
    session has said under its own number, of what was typed there. A line that was said differs
    from every announcement, and it tells the time, the number and the text: so equal lines were
    said by the same number and have the same text. And no two numbers are shown alike. -/
theorem unforged_of_run {stamp : String} {picker : ColorPicker}
    {history : List (String × Happening)} {world : World} (hstamp : ']' ∉ stamp.toList)
    (hby : ∀ step ∈ history, ']' ∉ step.1.toList ∧ step.2.bySessions (· = ""))
    (hrun : (start stamp picker).runAt history = some world) :
    let chronicle := chronicleOf world.server.journal
    (∀ place line, .delivered place line ∈ chronicle →
        (∃ time ticket claimed online, ']' ∉ time.toList
            ∧ .joined claimed ticket online ∈ chronicle
            ∧ line = Line.notice time (Line.joined ticket.id.display))
          ∨ (∃ time id online, ']' ∉ time.toList ∧ .left id id.display online ∈ chronicle
              ∧ line = Line.notice time (Line.left id.display))
          ∨ ∃ i scene ticket text, world.scene? i = some scene ∧ tickets scene.events = [ticket]
              ∧ .room (.said ticket.id ticket.name text line) ∈ scene.events
              ∧ text ∈ (scene.given.intended []).lines)
      ∧ (∀ id name text line, .said id name text line ∈ chronicle →
          (∃ time, Line.ReadsAs line time id text)
            ∧ (∀ (time : String) (other : ParticipantId), ']' ∉ time.toList →
                line ≠ Line.notice time (Line.joined other.display)
                  ∧ line ≠ Line.notice time (Line.left other.display))
            ∧ ∀ time other text', Line.ReadsAs line time other text' → other = id ∧ text' = text)
      ∧ (∀ id id' name name' text text' line, .said id name text line ∈ chronicle →
          .said id' name' text' line ∈ chronicle → id = id' ∧ text = text')
      ∧ Function.Injective ParticipantId.display := by
  intro chronicle
  have hname : ∀ id claimed, claimed = "" →
      Wording.numbered.name id (if claimed.isEmpty then id.display else claimed) := by
    rintro id _ rfl
    rfl
  have hauthored : world.Authored .numbered (· = "") :=
    (authored_start hstamp fun _ _ => trivial).runAt hname DateTime.notMem_render hby hrun
  have hleads := leads_of_runAt (sound_start stamp picker) hrun
  have hreads : ∀ id name text line, .said id name text line ∈ chronicle →
      ∃ time, Line.ReadsAs line time id text := by
    intro id name text line hsaid
    obtain ⟨time, color, _, htime, -, rfl, hclean, hline⟩ := hauthored.signed hleads hsaid
    exact ⟨time, htime, hclean.notMem rfl, color, hline⟩
  refine ⟨?_, ?_, ?_, ParticipantId.display_injective⟩
  · intro place line hline
    obtain ⟨time, htime, event, hevent, hwording⟩ := hauthored.worded.delivered place line hline
    have hfits := hauthored.worded.fits event hevent
    cases event with
    | joined claimed ticket online =>
        refine Or.inl ⟨time, ticket, claimed, online, htime, hevent, ?_⟩
        rw [← Option.some.inj hwording, show ticket.name = ticket.id.display from hfits]
    | left id name online =>
        obtain rfl : name = id.display := hfits
        exact Or.inr (Or.inl ⟨time, id, online, htime, hevent, (Option.some.inj hwording).symm⟩)
    | said id name text line' =>
        obtain rfl : line' = line := Option.some.inj hwording
        obtain ⟨i, scene, ticket, hscene, hticket, hsaid, rfl, rfl, htext⟩ :=
          hauthored.exists_speaker hleads hevent
        exact Or.inr (Or.inr ⟨i, scene, ticket, text, hscene, hticket, hsaid, htext⟩)
    | alreadyGone _ | delivered _ _ | refused _ _ => exact nomatch hwording
  · intro id name text line hsaid
    obtain ⟨time, hread⟩ := hreads id name text line hsaid
    refine ⟨⟨time, hread⟩, fun time other htime => hread.ne_notice htime, ?_⟩
    intro time other text' hother
    exact (hother.unique hread).2
  · intro id id' name name' text text' line hsaid hsaid'
    obtain ⟨time, hread⟩ := hreads id name text line hsaid
    obtain ⟨time', hread'⟩ := hreads id' name' text' line hsaid'
    exact (hread.unique hread').2

/-- The second of two sessions types what the room begins its announcements with. The first one
    gets it as a line of that session. -/
theorem unforged_of_run_of_system_typed :
    let line := "[10:01] user-002: [system] ok"
    ∃ history world, (start "10:00" (.cycle [⟨"\x1b[31m"⟩, .plain] 0)).runAt history = some world
      ∧ .delivered ⟨0⟩ line ∈ chronicleOf world.server.journal
      ∧ (∃ i scene ticket text, world.scene? i = some scene ∧ tickets scene.events = [ticket]
          ∧ .room (.said ticket.id ticket.name text line) ∈ scene.events
          ∧ text ∈ (scene.given.intended []).lines)
      ∧ ∀ (time : String) (other : ParticipantId), ']' ∉ time.toList →
          line ≠ Line.notice time (Line.joined other.display)
            ∧ line ≠ Line.notice time (Line.left other.display) := by
  intro line
  let typing : ReadEvent := .data [91, 115, 121, 115, 116, 101, 109, 93, 32, 111, 107, 13]
  let history : List (String × Happening) :=
    [("10:00", .stimulus (.connect "" [.shell] true [] .willing)), ("10:00", .move ⟨0, .requests⟩),
      ("10:00", .move ⟨0, .keys⟩),
      ("10:01", .stimulus (.connect "" [.shell] true [typing] .willing)),
      ("10:01", .move ⟨1, .requests⟩)] ++ List.replicate 58 ("10:01", .move ⟨1, .keys⟩)
  let opened := start "10:00" (.cycle [⟨"\x1b[31m"⟩, .plain] 0)
  have hend : ((opened.runAt history).map fun world =>
        (chronicleOf world.server.journal).drop 5)
      = some [.said ⟨2⟩ "user-002" "[system] ok" line, .delivered ⟨0⟩ line] := by
    decide +kernel
  obtain ⟨world, hrun, hchronicle⟩ := Option.map_eq_some_iff.1 hend
  have hmem : ∀ event ∈ [.said ⟨2⟩ "user-002" "[system] ok" line, .delivered ⟨0⟩ line],
      event ∈ chronicleOf world.server.journal :=
    fun event hevent => List.mem_of_mem_drop (hchronicle ▸ hevent)
  have hby : ∀ step ∈ history, ']' ∉ step.1.toList ∧ step.2.bySessions (· = "") := by
    simp [history, Happening.bySessions]
  obtain ⟨hdelivered, hsaid, -⟩ := unforged_of_run (by decide) hby hrun
  have hline := hmem (.delivered ⟨0⟩ line) (by simp)
  obtain ⟨-, hdiffers, -⟩ := hsaid _ _ _ _ (hmem (.said _ _ _ _) List.mem_cons_self)
  refine ⟨history, world, hrun, hline, ?_, hdiffers⟩
  rcases hdelivered ⟨0⟩ line hline with ⟨time, ticket, _, _, htime, _, heq⟩
    | ⟨time, id, _, htime, _, heq⟩ | hspoken
  · exact absurd heq (hdiffers time ticket.id htime).1
  · exact absurd heq (hdiffers time id htime).2
  · exact hspoken

end World

end LineChat
