import LineChat.Screen.Basic

set_option autoImplicit false

/-! # Calls to a connection

To write is to call the connection until it has taken everything, and to draw is to write and to
flush one stroke after the other. How either ends is said once: what was taken before, and which
call was the one that went wrong or did not return (`Sink.Written`, `Screen.Stroked`). With a call
that is interrupted nothing is wrong: it has taken nothing, and another one follows. -/

namespace LineChat

/-! ## Calls that go well -/

/-- What is wrong with a call to write: it takes nothing, or it fails and was not interrupted. -/
def Script.writeFault? (script : Script) (call : Nat) : Option IoFault :=
  match script.onWrite call with
  | .take (some 0) => some (.ofKind .writeZero)
  | .fail fault => if fault.kind == .interrupted then none else some fault
  | .take _ | .stall => none

theorem Script.writeFault?_of_isInterrupted {script : Script} {call : Nat}
    (h : (script.onWrite call).isInterrupted = true) : script.writeFault? call = none := by
  unfold writeFault?
  generalize script.onWrite call = verdict at h
  cases verdict with
  | take limit? | stall => exact nomatch h
  | fail fault => exact if_pos h

namespace Sink

/-- Between two states of a connection it took these bytes and was flushed so many times, and every
    call went well. -/
structure Took (before after : Sink) (bytes : List UInt8) (flushes : Nat) : Prop where
  script : after.script = before.script
  accepted : after.accepted.toList = before.accepted.toList ++ bytes
  flushes : after.flushes = before.flushes + flushes
  shutdowns : after.shutdowns = before.shutdowns
  le_writes : before.writes ≤ after.writes
  wrote : ∀ call, before.writes ≤ call → call < after.writes →
    before.script.writeFault? call = none
  flushed : ∀ call, before.flushes ≤ call → call < after.flushes →
    before.script.onFlush call = none

theorem Took.refl (sink : Sink) : sink.Took sink [] 0 where
  script := rfl
  accepted := (List.append_nil _).symm
  flushes := rfl
  shutdowns := rfl
  le_writes := Nat.le_refl _
  wrote := fun _ hle hlt => absurd hle (Nat.not_le_of_lt hlt)
  flushed := fun _ hle hlt => absurd hle (Nat.not_le_of_lt hlt)

theorem Took.trans {before mid after : Sink} {bytes bytes' : List UInt8} {flushes flushes' : Nat}
    (h : before.Took mid bytes flushes) (h' : mid.Took after bytes' flushes') :
    before.Took after (bytes ++ bytes') (flushes + flushes') where
  script := h'.script.trans h.script
  accepted := by rw [h'.accepted, h.accepted, List.append_assoc]
  flushes := by rw [h'.flushes, h.flushes, Nat.add_assoc]
  shutdowns := h'.shutdowns.trans h.shutdowns
  le_writes := Nat.le_trans h.le_writes h'.le_writes
  wrote := by
    intro call hle hlt
    rcases Nat.lt_or_ge call mid.writes with hmid | hmid
    · exact h.wrote call hle hmid
    · exact h.script ▸ h'.wrote call hmid hlt
  flushed := by
    intro call hle hlt
    rcases Nat.lt_or_ge call mid.flushes with hmid | hmid
    · exact h.flushed call hle hmid
    · exact h.script ▸ h'.flushed call hmid hlt

theorem took_accept {sink : Sink} (h : sink.script.writeFault? sink.writes = none)
    (bytes : List UInt8) : sink.Took (sink.accept bytes) bytes 0 where
  script := rfl
  accepted := Array.toList_appendList
  flushes := rfl
  shutdowns := rfl
  le_writes := Nat.le_succ _
  wrote := by
    intro call hle hlt
    obtain rfl : call = sink.writes := Nat.le_antisymm (Nat.lt_succ_iff.1 hlt) hle
    exact h
  flushed := fun _ hle hlt => absurd hle (Nat.not_le_of_lt hlt)

theorem took_flush {sink : Sink} (h : sink.script.onFlush sink.flushes = none) :
    sink.Took sink.flush.2 [] 1 where
  script := rfl
  accepted := (List.append_nil _).symm
  flushes := rfl
  shutdowns := rfl
  le_writes := Nat.le_refl _
  wrote := fun _ hle hlt => absurd hle (Nat.not_le_of_lt hlt)
  flushed := by
    intro call hle hlt
    obtain rfl : call = sink.flushes := Nat.le_antisymm (Nat.lt_succ_iff.1 hlt) hle
    exact h

/-! ## Calls that are made again -/

theorem took_resumeWithin (n : Nat) (sink : Sink) : sink.Took (sink.resumeWithin n) [] 0 := by
  induction n generalizing sink with
  | zero => exact .refl sink
  | succ n ih =>
      rw [resumeWithin]
      split
      · rename_i hagain
        exact (took_accept (Script.writeFault?_of_isInterrupted hagain) []).trans (ih _)
      · exact .refl sink

/-- What comes after the calls that are made again is a call that is not. -/
theorem isInterrupted_resumeWithin {n : Nat} {sink : Sink}
    (h : (sink.script.onWrite (sink.writes + n)).isInterrupted = false) :
    (sink.script.onWrite (sink.resumeWithin n).writes).isInterrupted = false := by
  induction n generalizing sink with
  | zero => exact h
  | succ n ih =>
      rw [resumeWithin]
      split
      · have hlater : sink.writes + (n + 1) = (sink.accept []).writes + n := by
          show _ = sink.writes + 1 + n
          omega
        rw [hlater] at h
        exact @ih (sink.accept []) h
      · rename_i hnow
        exact Bool.eq_false_iff.2 hnow

theorem took_resume (sink : Sink) : sink.Took sink.resume [] 0 :=
  took_resumeWithin _ sink

theorem isInterrupted_resume (sink : Sink) :
    (sink.resume.script.onWrite sink.resume.writes).isInterrupted = false := by
  rw [sink.took_resume.script]
  exact isInterrupted_resumeWithin (sink.script.resumes _)

/-! ## Writing -/

/-- How writing ends: all is taken, or before that a call goes wrong or does not return. -/
inductive Written (before : Sink) (bytes : List UInt8) : Writing × Sink → Prop
  | done {after : Sink} (took : before.Took after bytes 0) : Written before bytes (.done, after)
  | failed {mid : Sink} {part rest : List UInt8} {fault : IoFault} (split : bytes = part ++ rest)
      (more : rest ≠ []) (took : before.Took mid part 0)
      (refused : mid.script.writeFault? mid.writes = some fault) :
      Written before bytes (.failed fault, mid.accept [])
  | stalled {mid : Sink} {part rest : List UInt8} (split : bytes = part ++ rest)
      (took : before.Took mid part 0) (stalls : mid.script.onWrite mid.writes = .stall) :
      Written before bytes (.stalled rest, mid)

/-- The calls that went well come before the others. -/
theorem Written.of_took {sink sink' : Sink} {bytes bytes' : List UInt8} {result : Writing × Sink}
    (hfirst : sink.Took sink' bytes 0) (h : sink'.Written bytes' result) :
    sink.Written (bytes ++ bytes') result := by
  cases h with
  | done took => exact .done (hfirst.trans took)
  | failed split more took refused =>
      exact .failed (by rw [split, List.append_assoc]) more (hfirst.trans took) refused
  | stalled split took stalls =>
      exact .stalled (by rw [split, List.append_assoc]) (hfirst.trans took) stalls

theorem written_writeWithin {sink : Sink} {n : Nat} {bytes : List UInt8} (hn : bytes.length ≤ n) :
    sink.Written bytes (writeWithin n sink bytes) := by
  induction n generalizing sink bytes with
  | zero =>
      obtain rfl : bytes = [] := List.length_eq_zero_iff.1 (Nat.le_zero.1 hn)
      exact .done (.refl sink)
  | succ n ih =>
      cases bytes with
      | nil => exact .done (.refl sink)
      | cons b bytes =>
          simp only [writeWithin]
          refine .of_took sink.took_resume ?_
          have hnow := sink.isInterrupted_resume
          generalize sink.resume = sink at hnow ⊢
          have hrefused : ∀ {fault}, sink.script.writeFault? sink.writes = some fault →
              sink.Written (b :: bytes) (.failed fault, sink.accept []) :=
            .failed (List.nil_append _).symm (List.cons_ne_nil _ _) (.refl sink)
          cases hverdict : sink.script.onWrite sink.writes with
          | stall => exact .stalled (List.nil_append _).symm (.refl sink) hverdict
          | fail fault =>
              rw [hverdict] at hnow
              refine hrefused ?_
              rw [Script.writeFault?, hverdict]
              exact if_neg (Bool.eq_false_iff.1 hnow)
          | take limit? =>
              dsimp only
              split
              · rename_i hzero
                cases limit? with
                | none => exact absurd hzero (Nat.succ_ne_zero _)
                | some limit =>
                    obtain rfl : limit = 0 := hzero
                    exact hrefused (by simp only [Script.writeFault?, hverdict])
              · rename_i k hsome
                have hcall : sink.script.writeFault? sink.writes = none := by
                  simp only [Script.writeFault?, hverdict]
                  cases limit? with
                  | none => rfl
                  | some limit => obtain rfl : limit = k + 1 := hsome; rfl
                -- a byte at least was taken, so there are calls enough for the others
                have hrest : ((b :: bytes).drop (k + 1)).length ≤ n := by
                  simp only [List.length_cons, List.length_drop] at hn ⊢
                  omega
                have hlater := @ih (sink.accept ((b :: bytes).take (k + 1))) _ hrest
                have hall := hlater.of_took (took_accept hcall _)
                rwa [List.take_append_drop] at hall

end Sink

/-! ## Drawing -/

namespace Screen

/-- How drawing goes on with a stroke: it is written and flushed, or else drawing ends with it. -/
inductive Stroked (screen : Screen) (stroke : Stroke) (later : List Stroke) :
    Drawing × Screen → Prop
  | settled {mid : Sink} (took : screen.sink.Took mid stroke.left 0)
      (flushed : mid.script.onFlush mid.flushes = none) :
      Stroked screen stroke later ((screen.settle stroke.piece mid.flush.2).run later)
  | unflushed {mid : Sink} {fault : IoFault} (took : screen.sink.Took mid stroke.left 0)
      (refused : mid.script.onFlush mid.flushes = some fault) :
      Stroked screen stroke later (.failed fault, { screen with sink := mid.flush.2 })
  | unwritten {mid : Sink} {part rest : List UInt8} {fault : IoFault}
      (split : stroke.left = part ++ rest) (more : rest ≠ []) (took : screen.sink.Took mid part 0)
      (refused : mid.script.writeFault? mid.writes = some fault) :
      Stroked screen stroke later (.failed fault, { screen with sink := mid.accept [] })
  | heldUp {mid : Sink} {part rest : List UInt8} (split : stroke.left = part ++ rest)
      (took : screen.sink.Took mid part 0) (stalls : mid.script.onWrite mid.writes = .stall) :
      Stroked screen stroke later
        (.stalled ({ stroke with left := rest } :: later), { screen with sink := mid })

theorem stroked_run_cons (screen : Screen) (stroke : Stroke) (later : List Stroke) :
    screen.Stroked stroke later (screen.run (stroke :: later)) := by
  have hwritten := @Sink.written_writeWithin screen.sink _ _ (Nat.le_refl stroke.left.length)
  simp only [run, Sink.write]
  generalize Sink.writeWithin stroke.left.length screen.sink stroke.left = result at hwritten ⊢
  cases hwritten with
  | failed split more took refused => exact .unwritten split more took refused
  | stalled split took stalls => exact .heldUp split took stalls
  | @done mid took =>
      simp only [Sink.flush]
      cases hflush : mid.script.onFlush mid.flushes with
      | none => exact .settled took hflush
      | some fault => exact .unflushed took hflush

end Screen

end LineChat
