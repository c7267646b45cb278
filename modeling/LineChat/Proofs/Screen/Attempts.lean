import LineChat.Proofs.Screen.Output
import LineChat.Proofs.Screen.Running

set_option autoImplicit false

/-! # Drawings one after the other

Every drawing is attempted, also after one that failed. What an attempt leaves on the connection is
a number of whole strings, each written and flushed, and, if the attempt was given up, the beginning
of the string that it was given up at (`Sink.Drawn`). Each attempt begins with its own first string,
and the row of the status line is reserved by every prompt until that has gone well once. A call to
write that is interrupted is made again, so it is none of the calls that go wrong here.

The strings are those that are spelled out in `Draw.strings`. -/

namespace LineChat

/-! ## How far a drawing goes -/

/-- How an attempt to draw was given up. -/
structure Break where
  /-- The string that was being written, or flushed. -/
  string : String
  /-- What was taken of it. -/
  taken : List UInt8
  /-- Why. -/
  fault : IoFault
  deriving DecidableEq

/-- What went wrong, if something did. -/
def Drawing.fault? : Drawing → Option IoFault
  | done | stalled _ => none
  | failed fault => some fault

/-- How far an attempt to draw went. -/
@[ext]
structure Progress where
  /-- The strings that were written and flushed. -/
  whole : List String
  /-- How it was given up, if it was. -/
  break? : Option Break
  deriving DecidableEq

namespace Progress

/-- What the connection took. -/
def taken (progress : Progress) : List UInt8 :=
  progress.whole.flatMap Utf8.encode ++ progress.break?.elim [] Break.taken

/-- The strings that were begun: the whole ones, and the one that the attempt was given up at. -/
def begun (progress : Progress) : List String :=
  progress.whole ++ progress.break?.toList.map Break.string

/-- Whether the row of the status line was reserved. -/
def reserves (progress : Progress) : Bool :=
  progress.whole.contains Draw.reservation

/-- How the drawing ended. -/
def drawing (progress : Progress) : Drawing :=
  match progress.break? with
  | none => .done
  | some broken => .failed broken.fault

theorem fault?_drawing (progress : Progress) :
    progress.drawing.fault? = progress.break?.map Break.fault := by
  rw [drawing]
  cases progress.break? <;> rfl

/-- The same after one more whole string. -/
def after (string : String) (progress : Progress) : Progress :=
  { progress with whole := string :: progress.whole }

theorem reserves_after (string : String) (progress : Progress) :
    (progress.after string).reserves = (string == Draw.reservation || progress.reserves) := by
  rw [reserves, after, List.contains_cons, Bool.beq_comm]
  rfl

end Progress

namespace Sink

/-- Between two states of a connection these strings were drawn, and that went so far: the whole
    ones were written and flushed, and the last call that was made is the one that went wrong. -/
inductive Drawn (before after : Sink) (strings : List String) : Progress → Prop
  | done (took : before.Took after (strings.flatMap Utf8.encode) strings.length) :
      Drawn before after strings ⟨strings, none⟩
  | unwritten {mid : Sink} {whole later : List String} {string : String} {part rest : List UInt8}
      {fault : IoFault} (strings_eq : strings = whole ++ string :: later)
      (split : Utf8.encode string = part ++ rest) (more : rest ≠ [])
      (took : before.Took mid (whole.flatMap Utf8.encode ++ part) whole.length)
      (refused : mid.script.writeFault? mid.writes = some fault) (last : after = mid.accept []) :
      Drawn before after strings ⟨whole, some ⟨string, part, fault⟩⟩
  | unflushed {mid : Sink} {whole later : List String} {string : String} {fault : IoFault}
      (strings_eq : strings = whole ++ string :: later)
      (took : before.Took mid (whole.flatMap Utf8.encode ++ Utf8.encode string) whole.length)
      (refused : mid.script.onFlush mid.flushes = some fault) (last : after = mid.flush.2) :
      Drawn before after strings ⟨whole, some ⟨string, Utf8.encode string, fault⟩⟩

variable {before mid after : Sink} {strings : List String} {string : String} {progress : Progress}

/-- A string that was written and flushed comes before the others. -/
theorem Drawn.cons (hfirst : before.Took mid (Utf8.encode string) 1)
    (h : mid.Drawn after strings progress) :
    before.Drawn after (string :: strings) (progress.after string) := by
  cases h with
  | done took =>
      have hthis := hfirst.trans took
      rw [← List.flatMap_cons, Nat.add_comm, ← List.length_cons] at hthis
      exact .done hthis
  | unwritten strings_eq split more took refused last =>
      have hthis := hfirst.trans took
      rw [← List.append_assoc, ← List.flatMap_cons, Nat.add_comm, ← List.length_cons] at hthis
      exact .unwritten (by rw [strings_eq, List.cons_append]) split more hthis refused last
  | unflushed strings_eq took refused last =>
      have hthis := hfirst.trans took
      rw [← List.append_assoc, ← List.flatMap_cons, Nat.add_comm, ← List.length_cons] at hthis
      exact .unflushed (by rw [strings_eq, List.cons_append]) hthis refused last

theorem Drawn.accepted (h : before.Drawn after strings progress) :
    after.accepted.toList = before.accepted.toList ++ progress.taken := by
  cases h with
  | done took => rw [took.accepted, Progress.taken, Option.elim_none, List.append_nil]
  | unwritten strings_eq split more took refused last =>
      rw [last, accept, Array.toList_appendList, List.append_nil, took.accepted]
      rfl
  | unflushed strings_eq took refused last => rw [last, flush, took.accepted]; rfl

theorem Drawn.script (h : before.Drawn after strings progress) : after.script = before.script := by
  cases h with
  | done took => exact took.script
  | unwritten strings_eq split more took refused last
  | unflushed strings_eq took refused last => rw [last]; exact took.script

/-- What is taken of a drawing is its beginning. -/
theorem Drawn.taken_prefix (h : before.Drawn after strings progress) :
    progress.taken <+: strings.flatMap Utf8.encode := by
  cases h with
  | done took =>
      exact ⟨[], by rw [Progress.taken, Option.elim_none, List.append_nil, List.append_nil]⟩
  | @unwritten mid whole later string part rest fault strings_eq split more took refused last =>
      refine ⟨rest ++ later.flatMap Utf8.encode, ?_⟩
      rw [strings_eq, List.flatMap_append, List.flatMap_cons, split, Progress.taken,
        Option.elim_some]
      simp only [List.append_assoc]
  | @unflushed mid whole later string fault strings_eq took refused last =>
      refine ⟨later.flatMap Utf8.encode, ?_⟩
      rw [strings_eq, List.flatMap_append, List.flatMap_cons, Progress.taken, Option.elim_some,
        List.append_assoc]

/-- Nothing is left out if, and only if, nothing went wrong. -/
theorem Drawn.break?_eq_none_iff (h : before.Drawn after strings progress) :
    progress.break? = none ↔ progress.whole = strings := by
  cases h with
  | done took => simp
  | unwritten strings_eq split more took refused last
  | unflushed strings_eq took refused last => simp [strings_eq]

/-- Strings are begun in their order. -/
theorem Drawn.begun_prefix (h : before.Drawn after strings progress) :
    progress.begun <+: strings := by
  cases h with
  | done took => exact ⟨[], by simp [Progress.begun]⟩
  | unwritten strings_eq split more took refused last
  | unflushed strings_eq took refused last =>
      exact ⟨_, by rw [strings_eq, Progress.begun, Option.toList_some, List.append_assoc]; rfl⟩

/-- No status line is begun before its row was reserved. -/
theorem Drawn.reserves_of_status {draw : Draw} {header : String}
    (h : before.Drawn after (draw.strings false) progress)
    (hbegun : "\x1b7\x1b[s\x1b[H\x1b[2K" ++ header ++ "\x1b[u\x1b8" ∈ progress.begun) :
    progress.reserves = true := by
  have hmem := h.begun_prefix.subset hbegun
  obtain ⟨later, hlater⟩ := h.begun_prefix
  cases draw with
  | clear | line _ =>
      have heq := congrArg String.toList (List.mem_singleton.1 hmem)
      simp at heq
  | prompt header' draft =>
      rw [Progress.begun] at hlater hbegun
      rw [Progress.reserves]
      cases hwhole : progress.whole with
      | cons string whole =>
          rw [hwhole] at hlater
          obtain rfl : string = Draw.reservation := (List.cons.inj hlater).1
          rfl
      | nil =>
          -- nothing is whole, so the reservation itself is all that was begun
          cases hbreak : progress.break? with
          | none => simp [hwhole, hbreak] at hbegun
          | some broken =>
              simp only [hwhole, hbreak, Option.toList_some, List.map_cons, List.map_nil,
                List.nil_append, List.mem_singleton] at hlater hbegun
              rw [← hbegun] at hlater
              have heq := congrArg String.toList (List.cons.inj hlater).1
              simp [Draw.reservation] at heq

/-- On a connection with which nothing goes wrong everything is drawn. -/
theorem Drawn.eq_of_willing (h : before.Drawn after strings progress)
    (hscript : before.script = .willing) : progress = ⟨strings, none⟩ := by
  cases h with
  | done took => rfl
  | unwritten strings_eq split more took refused last =>
      rw [took.script, hscript, Script.faultless_willing.writeFault?_eq_none] at refused
      exact absurd refused.symm (Option.some_ne_none _)
  | unflushed strings_eq took refused last =>
      rw [took.script, hscript, Script.faultless_willing.flush] at refused
      exact absurd refused.symm (Option.some_ne_none _)

end Sink

namespace Screen

/-- Drawing on a connection that does not stall. -/
theorem exists_drawn_run {screen : Screen} (h : screen.sink.script.Prompt) (pieces : List Piece) :
    ∃ progress : Progress,
      screen.sink.Drawn (screen.run (pieces.map stroke)).2.sink (pieces.map Piece.text) progress
        ∧ (screen.run (pieces.map stroke)).1 = progress.drawing
        ∧ (screen.run (pieces.map stroke)).2.reserved = (screen.reserved || progress.reserves) := by
  induction pieces generalizing screen with
  | nil => exact ⟨⟨[], none⟩, .done (.refl _), rfl, (Bool.or_false _).symm⟩
  | cons piece pieces ih =>
      have hstroked := screen.stroked_run_cons (stroke piece) (pieces.map stroke)
      rw [List.map_cons]
      generalize screen.run (stroke piece :: pieces.map stroke) = result at hstroked ⊢
      cases hstroked with
      | @settled mid took flushed =>
          have hpiece := took.trans (Sink.took_flush flushed)
          rw [List.append_nil] at hpiece
          have hprompt : (screen.settle piece mid.flush.2).sink.script.Prompt := hpiece.script ▸ h
          obtain ⟨progress, hdrawn, hdrawing, hreserved⟩ := ih hprompt
          refine ⟨progress.after piece.text, hdrawn.cons hpiece, hdrawing, hreserved.trans ?_⟩
          rw [Progress.reserves_after, ← Bool.or_assoc, piece.text_beq_reservation]
          rfl
      | @unflushed mid fault took refused =>
          refine ⟨⟨[], some ⟨piece.text, piece.bytes, fault⟩⟩, ?_, rfl, (Bool.or_false _).symm⟩
          exact .unflushed (List.nil_append _).symm took refused rfl
      | @unwritten mid part rest fault split more took refused =>
          refine ⟨⟨[], some ⟨piece.text, part, fault⟩⟩, ?_, rfl, (Bool.or_false _).symm⟩
          exact .unwritten (List.nil_append _).symm split more took refused rfl
      | @heldUp mid part rest split took stalls =>
          rw [took.script] at stalls
          exact absurd stalls (h _)

/-- Draws one thing after the other, whatever becomes of them. -/
def drawAll (screen : Screen) : List Draw → List Drawing × Screen
  | [] => ([], screen)
  | draw :: draws =>
    let (drawing, screen) := screen.draw draw
    let (drawings, screen) := screen.drawAll draws
    (drawing :: drawings, screen)

end Screen

/-- An attempt to draw something. -/
structure Attempt extends Progress where
  draw : Draw
  deriving DecidableEq

/-- The attempt was made between two states of a connection, with the row of the status line
    reserved or not. -/
structure Attempt.Made (reserved : Bool) (before after : Sink) (attempt : Attempt) : Prop where
  drawn : before.Drawn after (attempt.draw.strings reserved) attempt.toProgress
  /-- The connection took a beginning of what was to be drawn. -/
  taken : attempt.taken <+: (attempt.draw.strings reserved).flatMap Utf8.encode
  /-- Nothing was given up if, and only if, all was written and flushed. -/
  done_iff : attempt.break? = none ↔ attempt.whole = attempt.draw.strings reserved
  /-- A drawing that was not given up is what a connection gets that takes everything. -/
  willing : attempt.break? = none → attempt.taken
    = ((Screen.mk (.ofScript .willing) reserved).draw attempt.draw).2.sink.accepted.toList
  /-- A status line that was begun has its row. -/
  row : ∀ header, "\x1b7\x1b[s\x1b[H\x1b[2K" ++ header ++ "\x1b[u\x1b8" ∈ attempt.begun →
    reserved = true ∨ attempt.reserves = true

namespace Screen

/-- A drawing is an attempt, and reserves the row of the status line if the attempt does. -/
theorem exists_made_draw {screen : Screen} (h : screen.sink.script.Prompt) (draw : Draw) :
    ∃ attempt : Attempt, attempt.draw = draw ∧ (screen.draw draw).1 = attempt.drawing
      ∧ attempt.Made screen.reserved screen.sink (screen.draw draw).2.sink
      ∧ (screen.draw draw).2.reserved = (screen.reserved || attempt.reserves) := by
  obtain ⟨progress, hdrawn, hdrawing, hreserved⟩ :=
    exists_drawn_run h (draw.pieces screen.reserved)
  rw [Draw.map_text_pieces] at hdrawn
  refine ⟨⟨progress, draw⟩, rfl, hdrawing, ⟨hdrawn, hdrawn.taken_prefix, hdrawn.break?_eq_none_iff,
    ?_, ?_⟩, hreserved⟩
  · intro hdone
    obtain ⟨progress', hwilling, -, -⟩ := @exists_drawn_run
      ⟨.ofScript .willing, screen.reserved⟩ Script.prompt_willing (draw.pieces screen.reserved)
    rw [Draw.map_text_pieces] at hwilling
    obtain rfl : progress = ⟨draw.strings screen.reserved, none⟩ :=
      Progress.ext (hdrawn.break?_eq_none_iff.1 hdone) hdone
    obtain rfl := hwilling.eq_of_willing rfl
    exact hwilling.accepted.symm
  · intro header hbegun
    cases hrow : screen.reserved with
    | true => exact Or.inl rfl
    | false => exact Or.inr ((hrow ▸ hdrawn).reserves_of_status hbegun)

/-- Whatever a connection that does not stall does with the calls to it, what it takes is taken by
    one attempt after the other. Each attempt ends as its drawing does, and is made with the row of
    the status line reserved if, and only if, it was at the start or an earlier attempt has reserved
    it. -/
theorem attempts_of_drawAll {screen : Screen} (h : screen.sink.script.Prompt) (draws : List Draw) :
    ∃ attempts : List Attempt, attempts.map Attempt.draw = draws
      ∧ (screen.drawAll draws).1 = attempts.map (·.drawing)
      ∧ (screen.drawAll draws).2.sink.accepted.toList
        = screen.sink.accepted.toList ++ attempts.flatMap (·.taken)
      ∧ ∀ earlier attempt later, attempts = earlier ++ attempt :: later →
        attempt.Made (screen.reserved || earlier.any (·.reserves))
          (screen.drawAll (earlier.map Attempt.draw)).2.sink
          (screen.drawAll ((earlier ++ [attempt]).map Attempt.draw)).2.sink := by
  induction draws generalizing screen with
  | nil =>
      refine ⟨[], rfl, rfl, (List.append_nil _).symm, ?_⟩
      intro earlier attempt later hsplit
      simp at hsplit
  | cons draw draws ih =>
      obtain ⟨attempt, rfl, hdrawing, hmade, hreserved⟩ := exists_made_draw h draw
      obtain ⟨attempts, rfl, hdrawings, haccepted, hmades⟩ := ih (hmade.drawn.script ▸ h)
      refine ⟨attempt :: attempts, rfl, congr (congrArg List.cons hdrawing) hdrawings, ?_, ?_⟩
      · rw [List.flatMap_cons, ← List.append_assoc, ← hmade.drawn.accepted]
        exact haccepted
      · intro earlier attempt' later hsplit
        cases earlier with
        | nil =>
            obtain ⟨rfl, -⟩ := List.cons.inj hsplit
            rw [List.any_nil, Bool.or_false]
            exact hmade
        | cons first earlier =>
            obtain ⟨rfl, hlater⟩ := List.cons.inj hsplit
            rw [List.any_cons, ← Bool.or_assoc, ← hreserved]
            exact hmades earlier attempt' later hlater

/-- A connection that breaks off the first prompt within the reservation, does not flush the second
    one's, and breaks off the third prompt within its status line. The row is reserved from then on,
    also for the last prompt, which is drawn. What comes between is drawn as well, though the first
    call for it is interrupted. -/
theorem attempts_of_drawAll_of_faulty :
    let script : Script :=
      { onWrite := fun call =>
          if call = 0 then .take (some 3) else if call = 1 then .take (some 0)
          else if call = 4 then .take (some 5) else if call = 5 then .fail (.ofKind .brokenPipe)
          else if call = 6 then .fail (.ofKind .interrupted) else .take none
        onFlush := fun call => if call = 0 then some (.ofKind .timedOut) else none
        onShutdown := none
        interruptions := fun call => if call = 6 then 1 else 0
        resumes := by
          intro call
          repeat' split
          all_goals first | rfl | omega }
    let draws : List Draw :=
      [.prompt "h" "", .prompt "h" "", .prompt "h" "a", .clear, .line "x", .prompt "h" "a"]
    let row := Utf8.encode "\x1b7\x1b[s\x1b[H\x1b[1L\x1b[u\x1b8"
    let status := Utf8.encode "\x1b7\x1b[s\x1b[H\x1b[2Kh\x1b[u\x1b8"
    script.Prompt ∧ ∃ attempts : List Attempt, attempts.map Attempt.draw = draws
      ∧ attempts.map (·.break?.map Break.fault)
        = [some (.ofKind .writeZero), some (.ofKind .timedOut), some (.ofKind .brokenPipe),
            none, none, none]
      ∧ attempts.flatMap (·.taken)
        = row.take 3 ++ row ++ row ++ status.take 5 ++ Utf8.encode "\x1b[2J\x1b[H\r\x1b[Kx\r\n"
          ++ status ++ Utf8.encode "\r> a\x1b[K" := by
  intro script draws row status
  have hprompt : script.Prompt := by
    intro call
    dsimp only [script]
    repeat' split
    all_goals simp
  have hfaults : ((ofScript script).drawAll draws).1.map Drawing.fault?
      = [some (.ofKind .writeZero), some (.ofKind .timedOut), some (.ofKind .brokenPipe),
          none, none, none] := by
    decide +kernel
  have hbytes : ((ofScript script).drawAll draws).2.sink.accepted.toList
      = row.take 3 ++ row ++ row ++ status.take 5 ++ Utf8.encode "\x1b[2J\x1b[H\r\x1b[Kx\r\n"
        ++ status ++ Utf8.encode "\r> a\x1b[K" := by
    decide +kernel
  obtain ⟨attempts, hdraws, hresults, haccepted, -⟩ :=
    @attempts_of_drawAll (ofScript script) hprompt draws
  rw [hresults, List.map_map] at hfaults
  refine ⟨hprompt, attempts, hdraws, ?_, haccepted.symm.trans hbytes⟩
  rw [← hfaults]
  exact List.map_congr_left fun attempt _ => attempt.fault?_drawing.symm

end Screen

end LineChat
