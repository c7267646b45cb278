import LineChat.Fault

set_option autoImplicit false

/-! # Bytes that leave

The writing side of a connection takes what it likes of the bytes it is given: all of them, some,
or none, in which case it cannot be written to. It may also fail, or make the writer wait. What it
will do is a `Script`, call by call, and the counters of a `Sink` say how far the script has been
followed.

A call that is interrupted has taken nothing, and to write all of a string is documented as making
it again. So it is not how writing ends: it counts like any other call, and what becomes of the next
one is up to the script. -/

namespace LineChat

/-! ## What a connection does with what is written -/

/-- What becomes of one call to write. -/
inductive Verdict
  /-- Takes at most so many bytes, or all of them where nothing is said. -/
  | take (limit? : Option Nat)
  | fail (fault : IoFault)
  /-- The call does not return. -/
  | stall

/-- Whether the call is made again. -/
def Verdict.isInterrupted : Verdict → Bool
  | fail fault => fault.kind == .interrupted
  | take _ | stall => false

/-- What a connection will do. Calls are counted from zero. -/
structure Script where
  onWrite : Nat → Verdict
  onFlush : Nat → Option IoFault
  onShutdown : Option IoFault
  /-- How many calls to write may be interrupted, from this one on, before one that is not. -/
  interruptions : Nat → Nat
  /-- No connection interrupts for ever. -/
  resumes : ∀ call, (onWrite (call + interruptions call)).isInterrupted = false

/-- A connection with which nothing goes wrong. -/
def Script.willing : Script where
  onWrite _ := .take none
  onFlush _ := none
  onShutdown := none
  interruptions _ := 0
  resumes _ := rfl

/-- The writing side of a connection. -/
structure Sink where
  script : Script
  /-- How many calls to write have returned under this script. -/
  writes : Nat
  /-- How many calls to flush have returned under this script. -/
  flushes : Nat
  /-- The bytes taken so far. -/
  accepted : Array UInt8
  /-- How often the connection was shut down. -/
  shutdowns : Nat

/-- How writing some bytes ends. -/
inductive Writing
  | done
  | failed (fault : IoFault)
  /-- The connection makes the writer wait, with these bytes left. -/
  | stalled (rest : List UInt8)

namespace Sink

/-- A connection that nothing has been written to. -/
def ofScript (script : Script) : Sink :=
  ⟨script, 0, 0, #[], 0⟩

/-- The connection from now on under another script. -/
def rescript (sink : Sink) (script : Script) : Sink :=
  { sink with script, writes := 0, flushes := 0 }

/-- Whether the next call to write would not return. -/
def stalled (sink : Sink) : Bool :=
  match sink.script.onWrite sink.writes with
  | .stall => true
  | .take _ | .fail _ => false

/-- The connection after a call that took these bytes. -/
def accept (sink : Sink) (bytes : List UInt8) : Sink :=
  { sink with accepted := sink.accepted ++ bytes, writes := sink.writes + 1 }

/-- The connection after the interrupted calls that come next, so many of them at most. -/
def resumeWithin : Nat → Sink → Sink
  | 0, sink => sink
  | n + 1, sink =>
    if (sink.script.onWrite sink.writes).isInterrupted then resumeWithin n (sink.accept [])
    else sink

/-- The connection after the interrupted calls that come next. -/
def resume (sink : Sink) : Sink :=
  sink.resumeWithin (sink.script.interruptions sink.writes)

/-- Writes bytes with at most so many calls that are not interrupted. -/
def writeWithin : Nat → Sink → List UInt8 → Writing × Sink
  | _, sink, [] => (.done, sink)
  | 0, sink, rest => (.stalled rest, sink)
  | n + 1, sink, bytes =>
    let sink := sink.resume
    match sink.script.onWrite sink.writes with
    | .stall => (.stalled bytes, sink)
    | .fail fault => (.failed fault, sink.accept [])
    | .take limit? =>
      match limit?.getD bytes.length with
      | 0 => (.failed (.ofKind .writeZero), sink.accept [])
      | k + 1 => writeWithin n (sink.accept (bytes.take (k + 1))) (bytes.drop (k + 1))

/-- Writes bytes, call after call, until all are taken. Each call that goes well takes one at
    least, so there are no more calls than bytes. -/
def write (sink : Sink) (bytes : List UInt8) : Writing × Sink :=
  sink.writeWithin bytes.length bytes

/-- Flushes the connection. -/
def flush (sink : Sink) : Option IoFault × Sink :=
  (sink.script.onFlush sink.flushes, { sink with flushes := sink.flushes + 1 })

/-- Shuts the connection down. -/
def shutdown (sink : Sink) : Option IoFault × Sink :=
  (sink.script.onShutdown, { sink with shutdowns := sink.shutdowns + 1 })

end Sink

/-! ## Connections with one weakness -/

/-- How a connection behaves, as it is usually told: in a few words and with one fault. -/
structure Manner where
  /-- Nothing can be written. -/
  stalls : Bool
  /-- How many calls to write go well before one fails. -/
  failAfter? : Option Nat
  /-- Whether the calls after the one that fails go well again. -/
  failOnce : Bool
  /-- How many bytes a call takes at most. -/
  limit? : Option Nat
  flushFails : Bool
  shutdownFails : Bool
  /-- What goes wrong whenever something does. -/
  fault : IoFault

namespace Manner

/-- Whether no more than one call to write fails. That is so of interruptions. -/
def passes (manner : Manner) : Bool :=
  manner.failOnce || manner.fault.kind == .interrupted

/-- What becomes of a call to write that is not held up. -/
def verdict (manner : Manner) (call : Nat) : Verdict :=
  match manner.failAfter? with
  | none => .take manner.limit?
  | some n =>
    if call < n ∨ manner.passes ∧ n < call then .take manner.limit? else .fail manner.fault

theorem failAfter?_of_isInterrupted {manner : Manner} {call : Nat}
    (h : (manner.verdict call).isInterrupted = true) : manner.failAfter? = some call := by
  unfold verdict at h
  split at h
  · cases h
  · rename_i n hn
    split at h
    · cases h
    · rename_i hcall
      have hpasses : manner.passes = true := Bool.or_eq_true_iff.2 (Or.inr h)
      simp only [hpasses, true_and, not_or, Nat.not_lt] at hcall
      rw [hn, Nat.le_antisymm hcall.2 hcall.1]

/-- The script of a connection that behaves in this manner. -/
def script (manner : Manner) : Script where
  onWrite call := if manner.stalls then .stall else manner.verdict call
  onFlush _ := if manner.flushFails then some manner.fault else none
  onShutdown := if manner.shutdownFails then some manner.fault else none
  interruptions call := if manner.failAfter? = some call then 1 else 0
  resumes call := by
    split
    · rfl
    · rw [← Bool.not_eq_true]
      intro hagain
      have hlater := failAfter?_of_isInterrupted hagain
      split at hlater
      · rename_i hnow
        rw [hnow, Option.some.injEq] at hlater
        omega
      · contradiction

end Manner

end LineChat
