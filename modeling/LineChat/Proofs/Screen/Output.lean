import LineChat.Proofs.Screen.Calls

set_option autoImplicit false

/-! # What has been written

As long as no drawing fails, the bytes that a connection has taken are those of the drawings that
were begun, one after the other, but for the strokes that are left of the last (`Screen.Renders`).
It is the same however much of what it is given the connection takes at a time, and if it holds a
drawing up in the middle of a piece.

The strings of a drawing are spelled out here once more (`Draw.strings`), as a terminal is given
them, and without the pieces. -/

namespace LineChat

/-! ## Drawings and their bytes -/

namespace Draw

/-- Whether this draws the status line, which has a row from then on. -/
def isPrompt : Draw → Bool
  | prompt .. => true
  | clear | line _ => false

/-- The pieces of drawings that follow one another. -/
def ink (reserved : Bool) : List Draw → List Piece
  | [] => []
  | draw :: draws => draw.pieces reserved ++ ink (reserved || draw.isPrompt) draws

theorem ink_append (reserved : Bool) (draws draws' : List Draw) :
    ink reserved (draws ++ draws')
      = ink reserved draws ++ ink (reserved || draws.any isPrompt) draws' := by
  induction draws generalizing reserved with
  | nil => simp [ink]
  | cons draw draws ih => simp [ink, ih, Bool.or_assoc]

/-- The row of the status line is reserved by the first prompt. -/
theorem reserved_pieces (reserved : Bool) (draw : Draw) :
    (reserved || (draw.pieces reserved).any (· == .reserve)) = (reserved || draw.isPrompt) := by
  cases draw <;> cases reserved <;> rfl

end Draw

/-- The line that this shows. -/
def Draw.line? : Draw → Option String
  | line text => some text
  | clear | prompt .. => none

/-- What a piece puts into the row of the status line. -/
def Piece.header? : Piece → Option String
  | status header => some header
  | clear | line _ | reserve | prompt _ => none

/-- A prompt that comes last is what comes last of all that is written. -/
theorem Draw.ink_of_getLast? {draws : List Draw} {header draft : String}
    (h : draws.getLast? = some (.prompt header draft)) (reserved : Bool) :
    ∃ before, ink reserved draws = before ++ [.status header, .prompt draft] := by
  obtain ⟨earlier, rfl⟩ := List.getLast?_eq_some_iff.1 h
  rw [ink_append, ink, ink, List.append_nil, pieces, ← List.append_assoc]
  exact ⟨_, rfl⟩

/-! ## Letter by letter -/

namespace Draw

/-- What makes room for the status line. -/
def reservation : String :=
  "\x1b7\x1b[s\x1b[H\x1b[1L\x1b[u\x1b8"

/-- The strings of a drawing, spelled out. Those of a prompt begin with the reservation if the row
    of the status line is not reserved. -/
def strings (reserved : Bool) : Draw → List String
  | clear => ["\x1b[2J\x1b[H"]
  | line text => ["\r\x1b[K" ++ text ++ "\r\n"]
  | prompt header draft =>
    (if reserved then [] else [reservation])
      ++ ["\x1b7\x1b[s\x1b[H\x1b[2K" ++ header ++ "\x1b[u\x1b8", "\r> " ++ draft ++ "\x1b[K"]

/-- The strings of drawings that follow one another. -/
def transcript (reserved : Bool) : List Draw → List String
  | [] => []
  | draw :: draws => draw.strings reserved ++ transcript (reserved || draw.isPrompt) draws

/-- Whether a string begins with clearing the line that is being edited. -/
def beginsLine (string : String) : Bool :=
  "\r\x1b[K".toList.isPrefixOf string.toList

end Draw

namespace Piece

@[simp] theorem text_clear : clear.text = "\x1b[2J\x1b[H" := by decide

@[simp] theorem text_line (text : String) :
    (line text).text = "\r\x1b[K" ++ text ++ "\r\n" := by
  have hfront : "\r" ++ clearToEnd = "\r\x1b[K" := by decide
  rw [Piece.text, hfront]

@[simp] theorem text_reserve : reserve.text = Draw.reservation := by decide

@[simp] theorem text_status (header : String) :
    (status header).text = "\x1b7\x1b[s\x1b[H\x1b[2K" ++ header ++ "\x1b[u\x1b8" := by
  have hfront : saveCursor ++ home ++ clearRow = "\x1b7\x1b[s\x1b[H\x1b[2K" := by decide
  rw [text, hfront]
  rfl

@[simp] theorem text_prompt (draft : String) :
    (prompt draft).text = "\r> " ++ draft ++ "\x1b[K" := by
  have hfront : "\r" ++ promptMark = "\r> " := by decide
  rw [text, hfront]
  rfl

/-- Nothing else is spelled as the reservation is. -/
theorem text_beq_reservation (piece : Piece) :
    (piece.text == Draw.reservation) = (piece == .reserve) := by
  rw [Bool.eq_iff_iff, beq_iff_eq, beq_iff_eq, ← String.toList_inj]
  cases piece with
  | reserve => simp
  | clear | line _ | status _ | prompt _ => simp [Draw.reservation]

theorem flatMap_bytes (pieces : List Piece) :
    pieces.flatMap bytes = (pieces.map text).flatMap Utf8.encode := by
  rw [List.flatMap_map]
  rfl

end Piece

namespace Draw

/-- The pieces of a drawing have the strings that are spelled out. -/
theorem map_text_pieces (reserved : Bool) (draw : Draw) :
    (draw.pieces reserved).map Piece.text = draw.strings reserved := by
  cases draw with
  | clear | line _ => simp [pieces, strings]
  | prompt header draft => cases reserved <;> simp [pieces, strings]

theorem map_text_ink (reserved : Bool) (draws : List Draw) :
    (ink reserved draws).map Piece.text = transcript reserved draws := by
  induction draws generalizing reserved with
  | nil => rfl
  | cons draw draws ih => rw [ink, List.map_append, map_text_pieces, ih, transcript]

/-- Of the strings of a drawing, only that of a line begins a line. -/
theorem filter_beginsLine_strings (reserved : Bool) (draw : Draw) :
    (draw.strings reserved).filter beginsLine
      = draw.line?.toList.map fun text => "\r\x1b[K" ++ text ++ "\r\n" := by
  cases draw with
  | clear | line _ => simp [strings, beginsLine, line?]
  | prompt header draft => cases reserved <;> simp [strings, beginsLine, line?, reservation]

theorem filter_beginsLine_transcript (reserved : Bool) (draws : List Draw) :
    (transcript reserved draws).filter beginsLine
      = (draws.filterMap line?).map fun text => "\r\x1b[K" ++ text ++ "\r\n" := by
  induction draws generalizing reserved with
  | nil => rfl
  | cons draw draws ih =>
      rw [transcript, List.filter_append, filter_beginsLine_strings, ih]
      cases draw <;> rfl

end Draw

/-! ## What is left -/

/-- What is left to be drawn, unless drawing has failed. -/
def Drawing.rest? : Drawing → Option (List Stroke)
  | done => some []
  | failed _ => none
  | stalled rest => some rest

namespace Screen

/-- The connection has taken the bytes of these drawings, but for those of some strokes of the last,
    and the row of the status line is reserved as soon as they are written too. -/
structure Renders (screen : Screen) (draws : List Draw) (strokes : List Stroke) : Prop where
  bytes : screen.sink.accepted.toList ++ strokes.flatMap Stroke.left
    = (Draw.ink false draws).flatMap Piece.bytes
  /-- All drawings but the last are through. -/
  through : (Draw.ink false draws.dropLast).flatMap Piece.bytes <+: screen.sink.accepted.toList
  reserved : (screen.reserved || strokes.any (·.piece == .reserve)) = draws.any Draw.isPrompt

variable {screen screen' : Screen} {draws : List Draw} {strokes : List Stroke}

theorem Renders.ofScript (script : Script) : (ofScript script).Renders [] [] where
  bytes := rfl
  through := List.prefix_rfl
  reserved := rfl

/-- Neither a new script nor a shutdown makes the connection take anything. -/
theorem Renders.congr (h : screen.Renders draws strokes)
    (hsink : screen'.sink.accepted = screen.sink.accepted)
    (hreserved : screen'.reserved = screen.reserved) : screen'.Renders draws strokes where
  bytes := hsink ▸ h.bytes
  through := hsink ▸ h.through
  reserved := hreserved ▸ h.reserved

/-- What the connection has taken when nothing is left. -/
theorem Renders.accepted (h : screen.Renders draws []) :
    screen.sink.accepted.toList = (Draw.ink false draws).flatMap Piece.bytes := by
  have hbytes := h.bytes
  rwa [List.flatMap_nil, List.append_nil] at hbytes

/-- A drawing begins when nothing is left of the one before. -/
theorem Renders.begin (h : screen.Renders draws []) (draw : Draw) :
    screen.Renders (draws ++ [draw]) (screen.strokes draw) where
  bytes := by
    have hreserved := h.reserved
    simp only [List.any_nil, Bool.or_false] at hreserved
    have hstrokes : (screen.strokes draw).flatMap Stroke.left
        = (draw.pieces screen.reserved).flatMap Piece.bytes := by
      rw [strokes, List.flatMap_map]
      rfl
    rw [h.accepted, hstrokes, hreserved, Draw.ink_append, List.flatMap_append]
    simp [Draw.ink]
  through := by
    rw [List.dropLast_concat]
    exact h.accepted ▸ List.prefix_rfl
  reserved := by
    have hreserved := h.reserved
    simp only [List.any_nil, Bool.or_false] at hreserved
    have hstrokes : (screen.strokes draw).any (·.piece == .reserve)
        = (draw.pieces screen.reserved).any (· == .reserve) := by
      rw [strokes, List.any_map]
      rfl
    rw [hstrokes, Draw.reserved_pieces, hreserved, List.any_append]
    simp

/-- A stroke that is written leaves the following ones. -/
theorem Renders.settle {stroke : Stroke} {sink : Sink} (h : screen.Renders draws (stroke :: strokes))
    (hsink : sink.accepted.toList = screen.sink.accepted.toList ++ stroke.left) :
    (screen.settle stroke.piece sink).Renders draws strokes where
  bytes := by
    rw [← h.bytes, List.flatMap_cons, ← List.append_assoc, ← hsink]
    rfl
  through := h.through.trans (hsink ▸ List.prefix_append _ _)
  reserved := by
    rw [← h.reserved, List.any_cons, ← Bool.or_assoc]
    rfl

/-- Drawing goes on, and the strokes that are left are those that it leaves. -/
theorem Renders.run {rest : List Stroke} {drawing : Drawing} (h : screen.Renders draws strokes)
    (hrun : screen.run strokes = (drawing, screen')) (hrest : drawing.rest? = some rest) :
    screen'.Renders draws rest := by
  induction strokes generalizing screen with
  | nil =>
      obtain ⟨rfl, rfl⟩ := Prod.mk.inj hrun
      exact Option.some.inj hrest ▸ h
  | cons stroke strokes ih =>
      have hstroked := screen.stroked_run_cons stroke strokes
      generalize hresult : screen.run (stroke :: strokes) = result at hstroked
      rw [hresult] at hrun
      cases hstroked with
      | @settled mid took flushed =>
          have hsettled := @Renders.settle _ _ _ _ mid.flush.2 h took.accepted
          exact ih hsettled hrun
      | unflushed took refused | unwritten split more took refused =>
          obtain ⟨rfl, -⟩ := Prod.mk.inj hrun
          simp [Drawing.rest?] at hrest
      | heldUp split took stalls =>
          obtain ⟨rfl, rfl⟩ := Prod.mk.inj hrun
          obtain rfl := Option.some.inj hrest
          refine ⟨?_, h.through.trans (took.accepted ▸ List.prefix_append _ _), h.reserved⟩
          rw [← h.bytes, List.flatMap_cons, List.flatMap_cons, split, took.accepted,
            List.append_assoc, List.append_assoc]

end Screen

end LineChat
