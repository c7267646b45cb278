import LineChat.Proofs.Screen.Calls
import LineChat.Session.Pen

set_option autoImplicit false

/-! # Drawing on a connection

Drawing neither changes what a connection will do nor shuts it down. On a connection with which
nothing goes wrong it does not fail, and where it is held up, the connection holds up the next call
as well. -/

namespace LineChat

/-! ## Connections that do not fail -/

/-- A connection that takes something of whatever it is given, though it may take its time and be
    interrupted. -/
structure Script.Faultless (script : Script) : Prop where
  write : ∀ call fault, script.onWrite call = .fail fault → fault.kind = .interrupted
  take : ∀ call, script.onWrite call ≠ .take (some 0)
  flush : ∀ call, script.onFlush call = none

/-- A connection that takes its time with nothing. -/
def Script.Prompt (script : Script) : Prop :=
  ∀ call, script.onWrite call ≠ .stall

theorem Script.faultless_willing : Script.willing.Faultless where
  write := fun _ _ => nofun
  take := fun _ => nofun
  flush := fun _ => rfl

theorem Script.prompt_willing : Script.willing.Prompt :=
  fun _ => nofun

theorem Script.Prompt.stalled {sink : Sink} (h : sink.script.Prompt) : sink.stalled = false := by
  unfold Sink.stalled
  split
  · next hstall => exact absurd hstall (h sink.writes)
  · rfl
  · rfl

theorem Script.Faultless.writeFault?_eq_none {script : Script} (h : script.Faultless) (call : Nat) :
    script.writeFault? call = none := by
  unfold writeFault?
  split
  · rename_i htake
    exact absurd htake (h.take call)
  · rename_i hfail
    exact if_pos (beq_iff_eq.2 (h.write call _ hfail))
  · rfl
  · rfl

/-! ## Drawing -/

namespace Screen

/-- Drawing is no shutting down, and leaves the script alone. -/
theorem kept_run (screen : Screen) (strokes : List Stroke) :
    (screen.run strokes).2.sink.script = screen.sink.script
      ∧ (screen.run strokes).2.sink.shutdowns = screen.sink.shutdowns := by
  induction strokes generalizing screen with
  | nil => exact ⟨rfl, rfl⟩
  | cons stroke strokes ih =>
      have hstroked := screen.stroked_run_cons stroke strokes
      generalize screen.run (stroke :: strokes) = result at hstroked ⊢
      cases hstroked with
      | @settled mid took flushed =>
          obtain ⟨hscript, hshutdowns⟩ := ih (screen.settle stroke.piece mid.flush.2)
          exact ⟨hscript.trans took.script, hshutdowns.trans took.shutdowns⟩
      | unflushed took refused => exact ⟨took.script, took.shutdowns⟩
      | unwritten split more took refused => exact ⟨took.script, took.shutdowns⟩
      | heldUp split took stalls => exact ⟨took.script, took.shutdowns⟩

theorem run_ne_failed {screen : Screen} (h : screen.sink.script.Faultless) (strokes : List Stroke)
    (fault : IoFault) (screen' : Screen) : screen.run strokes ≠ (.failed fault, screen') := by
  induction strokes generalizing screen with
  | nil => simp [run]
  | cons stroke strokes ih =>
      have hstroked := screen.stroked_run_cons stroke strokes
      generalize screen.run (stroke :: strokes) = result at hstroked ⊢
      cases hstroked with
      | @settled mid took flushed =>
          exact @ih (screen.settle stroke.piece mid.flush.2) (took.script.symm ▸ h)
      | unflushed took refused =>
          rw [took.script, h.flush] at refused
          exact absurd refused.symm (Option.some_ne_none _)
      | unwritten split more took refused =>
          rw [took.script, h.writeFault?_eq_none] at refused
          exact absurd refused.symm (Option.some_ne_none _)
      | heldUp split took stalls => simp

/-- A drawing that is held up leaves the connection as it is found to be. -/
theorem stalled_run {screen screen' : Screen} {strokes left : List Stroke}
    (h : screen.run strokes = (.stalled left, screen')) : screen'.sink.stalled = true := by
  induction strokes generalizing screen with
  | nil => simp [run] at h
  | cons stroke strokes ih =>
      have hstroked := screen.stroked_run_cons stroke strokes
      generalize hresult : screen.run (stroke :: strokes) = result at hstroked
      rw [hresult] at h
      cases hstroked with
      | settled took flushed => exact ih h
      | unflushed took refused | unwritten split more took refused => simp at h
      | heldUp split took stalls =>
          obtain ⟨-, rfl⟩ := Prod.mk.inj h
          simp only [Sink.stalled, stalls]

end Screen

/-! ## Pens -/

namespace Pen

variable {online : Nat} {draft : String} {screen screen' : Screen} {busy : Bool} {pen pen' : Pen}

/-- A call asks for the terminal. -/
theorem called_of_step (h : pen.step online draft screen busy = some (.called pen')) :
    ∃ call later, pen = .ready (call :: later)
      ∧ pen' = if busy then .queued (call.draw online draft) later
        else .writing (call.draw online draft) (screen.strokes (call.draw online draft)) later := by
  cases pen with
  | queued draw later => simp [step] at h
  | ready calls =>
      cases calls with
      | nil => simp [step] at h
      | cons call later =>
          simp only [step, Option.some.injEq, Move.called.injEq] at h
          exact ⟨call, later, rfl, h.symm⟩
  | writing draw strokes later =>
      simp only [step] at h
      split at h
      · simp at h
      · split at h <;> simp at h

theorem heldUp_of_step (h : pen.step online draft screen busy = some (.heldUp pen' screen')) :
    ∃ draw strokes strokes' later, pen = .writing draw strokes later
      ∧ pen' = .writing draw strokes' later ∧ screen.sink.stalled = false
      ∧ screen.run strokes = (.stalled strokes', screen') := by
  cases pen with
  | queued draw later => simp [step] at h
  | ready calls => cases calls <;> simp [step] at h
  | writing draw strokes later =>
      simp only [step] at h
      split at h
      · simp at h
      · rename_i hstalled
        split at h <;> simp only [Option.some.injEq, Move.heldUp.injEq, reduceCtorEq] at h
        rename_i hrun
        obtain ⟨rfl, rfl⟩ := h
        exact ⟨draw, strokes, _, later, rfl, rfl, by simpa using hstalled, hrun⟩

theorem drew_of_step {draw : Draw}
    (h : pen.step online draft screen busy = some (.drew draw pen' screen')) :
    ∃ strokes later, pen = .writing draw strokes later ∧ pen' = .ready later
      ∧ screen.sink.stalled = false ∧ screen.run strokes = (.done, screen') := by
  cases pen with
  | queued draw later => simp [step] at h
  | ready calls => cases calls <;> simp [step] at h
  | writing draw strokes later =>
      simp only [step] at h
      split at h
      · simp at h
      · rename_i hstalled
        split at h <;> simp only [Option.some.injEq, Move.drew.injEq, reduceCtorEq] at h
        rename_i hrun
        obtain ⟨rfl, rfl, rfl⟩ := h
        exact ⟨strokes, later, rfl, rfl, by simpa using hstalled, hrun⟩

theorem failed_of_step {fault : IoFault}
    (h : pen.step online draft screen busy = some (.failed fault screen')) :
    ∃ draw strokes later, pen = .writing draw strokes later
      ∧ screen.sink.stalled = false ∧ screen.run strokes = (.failed fault, screen') := by
  cases pen with
  | queued draw later => simp [step] at h
  | ready calls => cases calls <;> simp [step] at h
  | writing draw strokes later =>
      simp only [step] at h
      split at h
      · simp at h
      · rename_i hstalled
        split at h <;> simp only [Option.some.injEq, Move.failed.injEq, reduceCtorEq] at h
        rename_i hrun
        obtain ⟨rfl, rfl⟩ := h
        exact ⟨draw, strokes, later, rfl, by simpa using hstalled, hrun⟩

/-- A pen waits if it is in line, or if the connection would hold it up. -/
theorem waiting_of_step (h : pen.step online draft screen busy = none) :
    (∃ draw later, pen = .queued draw later) ∨ pen.holds = true ∧ screen.sink.stalled = true := by
  cases pen with
  | queued draw later => exact Or.inl ⟨draw, later, rfl⟩
  | ready calls => cases calls <;> simp [step] at h
  | writing draw strokes later =>
      simp only [step] at h
      split at h
      · rename_i hstalled
        exact Or.inr ⟨rfl, hstalled⟩
      · split at h <;> simp at h

end Pen

end LineChat
