import LineChat.Draft
import LineChat.Event
import LineChat.Line
import LineChat.Proofs.Key.Decoding
import LineChat.Text.Trim

set_option autoImplicit false

/-! # What is said by typing

`typed` folds what a reader gives over the line that is being typed. It says which lines come of it
and how the typing ends, and it knows nothing of terminals, of the room or of who has the turn. This
is what a session is measured against. -/

namespace LineChat

/-! ## Endings -/

/-- What puts an end to typing. -/
inductive Ending
  | interrupt
  | endOfInput
  /-- The input has ended. -/
  | closed
  /-- Reading has failed. -/
  | failed (fault : IoFault)
  deriving DecidableEq, Repr

namespace Ending

/-- What has gone wrong when typing ends like this. -/
def faults : Ending → List SessionFault
  | interrupt | endOfInput | closed => []
  | failed fault => [.read fault]

/-- How a session ends whose typing ends like this, if nothing else goes wrong. -/
def outcome : Ending → Outcome
  | interrupt | endOfInput | closed => .well
  | failed fault => .failed (.read fault)

/-- What a session shows on its own terminal when typing ends like this. -/
def farewells : Ending → List String
  | interrupt => ["^C"]
  | endOfInput => ["^D"]
  | closed => []
  | failed fault => [Line.readError fault.message]

end Ending

/-- How a session ends in which this has gone wrong, in this order: only the first fault counts. -/
def Outcome.ofFaults : List SessionFault → Outcome
  | [] => .well
  | fault :: _ => .failed fault

theorem Ending.outcome_eq (ending : Ending) : ending.outcome = .ofFaults ending.faults := by
  cases ending <;> rfl

/-! ## The fold -/

/-- What comes of typing: the lines in order, and the end if there is one. -/
structure Typing where
  lines : List String
  ending? : Option Ending
  deriving DecidableEq, Repr

namespace Typing

/-- The same with other lines in front. -/
def after (said : List String) (typing : Typing) : Typing :=
  { typing with lines := said ++ typing.lines }

@[simp] theorem ending?_after (said : List String) (typing : Typing) :
    (typing.after said).ending? = typing.ending? := rfl

theorem after_after (said said' : List String) (typing : Typing) :
    (typing.after said').after said = typing.after (said ++ said') := by
  simp [after]

end Typing

/-- The line that comes of entering what is pending: it is said without the blanks around it, and
    not at all if nothing is left of it. -/
def entered (pending : List Char) : List String :=
  let text := Text.trim (String.ofList pending)
  if text.isEmpty then [] else [text]

/-- What comes of readings when these characters are pending. -/
def typed : List Char → List Reading → Typing
  | _, [] => ⟨[], none⟩
  | pending, .key (.char c) :: readings => typed (pending ++ [c]) readings
  | pending, .key .backspace :: readings => typed pending.dropLast readings
  | pending, .key .ignored :: readings => typed pending readings
  | pending, .key .enter :: readings => (typed [] readings).after (entered pending)
  | _, .key .interrupt :: _ => ⟨[], some .interrupt⟩
  | _, .key .endOfInput :: _ => ⟨[], some .endOfInput⟩
  | pending, .closed :: _ => ⟨entered pending, some .closed⟩
  | _, .failed fault :: _ => ⟨[], some (.failed fault)⟩

/-- Whether typing ends with this, whatever is pending. -/
def Reading.isFinal : Reading → Bool
  | .key .interrupt | .key .endOfInput | .closed | .failed _ => true
  | .key .enter | .key .backspace | .key (.char _) | .key .ignored => false

/-- Typing ends where something is read that ends it, if it has not ended before. -/
theorem isSome_ending?_of_isFinal {readings : List Reading} {reading : Reading}
    (hmem : reading ∈ readings) (hfinal : reading.isFinal = true) (pending : List Char) :
    (typed pending readings).ending?.isSome = true := by
  induction readings generalizing pending with
  | nil => exact absurd hmem List.not_mem_nil
  | cons first readings ih =>
      have hlater : first.isFinal = false → reading ∈ readings := by
        intro hfirst
        rcases List.mem_cons.1 hmem with rfl | hmem
        · simp [hfinal] at hfirst
        · exact hmem
      cases first with
      | closed | failed fault => rfl
      | key key =>
          cases key with
          | interrupt | endOfInput => rfl
          | enter => simpa only [typed, Typing.ending?_after] using ih (hlater rfl) []
          | backspace => simpa only [typed] using ih (hlater rfl) pending.dropLast
          | char c => simpa only [typed] using ih (hlater rfl) (pending ++ [c])
          | ignored => simpa only [typed] using ih (hlater rfl) pending

/-- Typing ends where the input ends or fails, if it has not ended before. -/
theorem isSome_ending?_typed {readings : List Reading} {reading : Reading}
    (hmem : reading ∈ readings) (hend : reading = .closed ∨ ∃ fault, reading = .failed fault)
    (pending : List Char) : (typed pending readings).ending?.isSome = true := by
  refine isSome_ending?_of_isFinal hmem ?_ pending
  rcases hend with rfl | ⟨fault, rfl⟩ <;> rfl

/-- An interrupt drops what is pending; the end of the input says it. -/
example : typed [] [.key (.char 'a'), .key .enter, .key (.char ' '), .key .enter, .key (.char 'b'),
      .key .interrupt, .closed] = ⟨["a"], some .interrupt⟩
    ∧ typed [] [.key (.char 'a'), .key (.char 'b'), .key .backspace, .closed]
      = ⟨["a"], some .closed⟩ := by
  decide

end LineChat
