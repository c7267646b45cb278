import LineChat.Proofs.Server.Authorship

set_option autoImplicit false

/-! # What lines do to a terminal

A terminal obeys the control characters that it is sent. Times and typed texts have none, so those
of a line are those of the one name in it, in its colour (`controls_of_run`). The colours of an
ordinary room are taken back behind the name. The name itself is put into the line as it was
claimed, and nobody looks at it: a session that claims a name with control characters has everybody
else's terminal obey them (`exists_untamed_line`). -/

namespace LineChat

namespace Text

/-- A colour of an ordinary room is one escape before the name, and one behind it takes it back. -/
theorem controls_paint {color : Color} (h : color ∈ standardPalette) (name : String) :
    controls (color.paint name) = '\x1b' :: (controls name ++ ['\x1b']) := by
  have hcolors : ∀ color ∈ standardPalette,
      color.isPlain = false ∧ controls color.token = ['\x1b'] := by
    decide
  obtain ⟨hcolored, htoken⟩ := hcolors color h
  have hreset : controls Color.reset = ['\x1b'] := by decide
  simp [Color.paint, hcolored, htoken, hreset]

end Text

namespace Line

/-- A line with a name in this colour, and no control character but in there. -/
def Carries (line : String) (color : Color) (name : String) : Prop :=
  ∃ front back, Text.Clean front ∧ Text.Clean back ∧ line = front ++ color.paint name ++ back

/-- A line without control characters, but for a colour about a name. -/
def Tame (line : String) : Prop :=
  ∃ color name, (color = Color.plain ∨ color ∈ standardPalette) ∧ Text.Clean name
    ∧ Carries line color name

theorem clean_front {time sign : String} (htime : Text.Clean time) (hsign : Text.Clean sign) :
    Text.Clean ("[" ++ time ++ sign) :=
  ((show Text.Clean "[" by decide).append htime).append hsign

theorem carries_notice {time back : String} (htime : Text.Clean time) (hback : Text.Clean back)
    (name : String) : Carries (notice time (name ++ back)) Color.plain name := by
  refine ⟨"[" ++ time ++ "] [system] ", back, clean_front htime (by decide), hback, ?_⟩
  rw [notice, ← String.append_assoc]
  rfl

theorem carries_said {time text : String} (htime : Text.Clean time) (htext : Text.Clean text)
    (color : Color) (name : String) : Carries (said time (color.paint name) text) color name := by
  have hback : Text.Clean (": " ++ text) := (show Text.Clean ": " by decide).append htext
  refine ⟨"[" ++ time ++ "] ", ": " ++ text, clean_front htime (by decide), hback, ?_⟩
  rw [said, ← String.append_assoc]

theorem Carries.controls {line : String} {color : Color} {name : String}
    (h : Carries line color name) : Text.controls line = Text.controls (color.paint name) := by
  obtain ⟨front, back, hfront, hback, rfl⟩ := h
  simp [show Text.controls front = [] from hfront, show Text.controls back = [] from hback]

/-- All the control characters of a tame line are two escapes, so it does not break. -/
theorem Tame.controls {line : String} (h : Tame line) :
    Text.controls line = [] ∨ Text.controls line = ['\x1b', '\x1b'] := by
  obtain ⟨color, name, hcolor, hname, hcarries⟩ := h
  rw [hcarries.controls]
  rcases hcolor with rfl | hcolored
  · exact Or.inl hname
  · rw [Text.controls_paint hcolored, hname]
    exact Or.inr rfl

end Line

/-- The words of an ordinary room in which such names are claimed. -/
def Wording.ordinary (claims : String → Prop) : Wording where
  time := Text.Clean
  name id name := name = id.display ∨ claims name
  color color := color = Color.plain ∨ color ∈ standardPalette
  plain := Or.inl rfl

namespace World

/-- Whatever gets into a queue has no control characters but those of the colour and of the name
    that somebody has claimed. If all the names that are claimed have none, the line is tame. -/
theorem controls_of_run {stamp : String} {picker : ColorPicker} {claims : String → Prop}
    {history : List (String × Happening)} {world : World} (hstamp : Text.Clean stamp)
    (hpalette : ∀ color ∈ picker.palette, color ∈ standardPalette)
    (hby : ∀ step ∈ history, Text.Clean step.1 ∧ step.2.bySessions claims)
    (hrun : (start stamp picker).runAt history = some world) {place : Place} {line : String}
    (hline : .delivered place line ∈ chronicleOf world.server.journal) :
    (∃ color name, (color = Color.plain ∨ color ∈ standardPalette)
        ∧ ((∃ id : ParticipantId, name = id.display) ∨ claims name) ∧ Line.Carries line color name)
      ∧ ((∀ name, claims name → Text.Clean name) →
          Line.Tame line ∧ (Text.controls line = [] ∨ Text.controls line = ['\x1b', '\x1b'])) := by
  have hname : ∀ id claimed, claims claimed →
      (Wording.ordinary claims).name id (if claimed.isEmpty then id.display else claimed) := by
    intro id claimed hclaimed
    show _ ∨ _
    split
    · exact Or.inl rfl
    · exact Or.inr hclaimed
  have hauthored : world.Authored (Wording.ordinary claims) claims :=
    (authored_start hstamp fun color hcolor => Or.inr (hpalette color hcolor)).runAt hname
      DateTime.clean_render hby hrun
  have hleads := leads_of_runAt (sound_start stamp picker) hrun
  have hcarries : ∃ color id name, (Wording.ordinary claims).color color
      ∧ (Wording.ordinary claims).name id name ∧ Line.Carries line color name := by
    obtain ⟨time, htime, event, hevent, hwording⟩ := hauthored.worded.delivered place line hline
    have hfits := hauthored.worded.fits event hevent
    cases event with
    | joined claimed ticket online =>
        obtain rfl := Option.some.inj hwording
        exact ⟨Color.plain, ticket.id, ticket.name, Wording.plain _, hfits,
          Line.carries_notice htime (by decide) _⟩
    | left id name online =>
        obtain rfl := Option.some.inj hwording
        exact ⟨Color.plain, id, name, Wording.plain _, hfits,
          Line.carries_notice htime (by decide) _⟩
    | said id fallback text line' =>
        obtain rfl : line' = line := Option.some.inj hwording
        obtain ⟨time, color, name, htime, hcolor, hsigned, hclean, rfl⟩ :=
          hauthored.signed hleads hevent
        exact ⟨color, id, name, hcolor, hsigned, Line.carries_said htime hclean color name⟩
    | alreadyGone _ | delivered _ _ | refused _ _ => exact nomatch hwording
  obtain ⟨color, id, name, hcolor, hsigned, hline⟩ := hcarries
  refine ⟨⟨color, name, hcolor, hsigned.imp_left fun h => ⟨id, h⟩, hline⟩, ?_⟩
  intro hclaims
  have htame : Line.Tame line := by
    refine ⟨color, name, hcolor, ?_, hline⟩
    rcases hsigned with rfl | hclaimed
    · exact id.clean_display
    · exact hclaims name hclaimed
  exact ⟨htame, htame.controls⟩

/-- Two sessions in an ordinary room, the second with a name of its own. It types an escape sequence
    and sends the line: the escape stays out, and the first one gets two that are about the name. -/
theorem controls_of_run_of_escape_typed :
    let line := "[10:01] \x1b[32mada\x1b[0m: [2J"
    ∃ history world, (start "10:00" (.cycle standardPalette 0)).runAt history = some world
      ∧ .delivered ⟨0⟩ line ∈ chronicleOf world.server.journal ∧ Line.Tame line := by
  intro line
  let typing : ReadEvent := .data [27, 91, 50, 74, 13]
  let history : List (String × Happening) :=
    [("10:00", .stimulus (.connect "" [.shell] true [] .willing)), ("10:00", .move ⟨0, .requests⟩),
      ("10:00", .move ⟨0, .keys⟩),
      ("10:01", .stimulus (.connect "ada" [.shell] true [typing] .willing)),
      ("10:01", .move ⟨1, .requests⟩)] ++ List.replicate 27 ("10:01", .move ⟨1, .keys⟩)
  have hend : (((start "10:00" (.cycle standardPalette 0)).runAt history).map fun world =>
        (chronicleOf world.server.journal).drop 6)
      = some [.delivered ⟨0⟩ line] := by
    decide +kernel
  obtain ⟨world, hrun, hchronicle⟩ := Option.map_eq_some_iff.1 hend
  have hline : .delivered ⟨0⟩ line ∈ chronicleOf world.server.journal :=
    List.mem_of_mem_drop (hchronicle ▸ List.mem_singleton_self _)
  have hby : ∀ step ∈ history, Text.Clean step.1 ∧ step.2.bySessions (· ∈ ["", "ada"]) := by
    have hclock : Text.Clean "10:00" ∧ Text.Clean "10:01" := by decide
    simp [history, Happening.bySessions, hclock]
  have hclaims : ∀ name ∈ ["", "ada"], Text.Clean name := by decide
  obtain ⟨-, htame⟩ := controls_of_run (by decide) (fun _ => id) hby hrun hline
  exact ⟨history, world, hrun, hline, (htame hclaims).1⟩

/-- The second of two sessions claims to be called what clears a terminal, and the announcement has
    the first one's cleared. -/
theorem exists_untamed_line :
    let line := "[10:00] [system] \x1b[2J joined the chat"
    ∃ history world, (∀ step ∈ history, Text.Clean step.1 ∧ step.2.bySessions fun _ => True)
      ∧ (start "10:00" (.cycle standardPalette 0)).runAt history = some world
      ∧ .delivered ⟨0⟩ line ∈ chronicleOf world.server.journal ∧ ¬ Line.Tame line := by
  intro line
  let history : List (String × Happening) :=
    [("10:00", .stimulus (.connect "" [.shell] true [] .willing)), ("10:00", .move ⟨0, .requests⟩),
      ("10:00", .move ⟨0, .keys⟩),
      ("10:00", .stimulus (.connect "\x1b[2J" [.shell] true [] .willing)),
      ("10:00", .move ⟨1, .requests⟩), ("10:00", .move ⟨1, .keys⟩)]
  have hend : (((start "10:00" (.cycle standardPalette 0)).runAt history).map fun world =>
        ((chronicleOf world.server.journal).drop 3).head?)
      = some (some (.delivered ⟨0⟩ line)) := by
    decide +kernel
  obtain ⟨world, hrun, hchronicle⟩ := Option.map_eq_some_iff.1 hend
  refine ⟨history, world, ?_, hrun, ?_, ?_⟩
  · have hclock : Text.Clean "10:00" := by decide
    simp [history, Happening.bySessions, hclock]
  · exact List.mem_of_mem_drop (List.mem_of_mem_head? hchronicle)
  · intro htame
    -- a colour is one escape and taking it back another, and here is one alone
    have hescape : Text.controls line = ['\x1b'] := by decide
    rcases htame.controls with hnone | htwo
    · exact absurd (hescape.symm.trans hnone) (by decide)
    · exact absurd (hescape.symm.trans htwo) (by decide)

end World

end LineChat
