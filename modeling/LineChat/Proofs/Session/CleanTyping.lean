import LineChat.Proofs.Session.Discipline
import LineChat.Proofs.Text.Clean

set_option autoImplicit false

/-! # What is typed has no control characters

A reader gives the meaning of a character and never the character itself, if it is a control
character: so none gets into the line that is being typed, and no cutting, joining or garbling of
the input helps it in (`isControl_of_mem_decoded`). What comes of a line is a part of it, so none is
ever said (`clean_of_mem_typed`). -/

namespace LineChat

namespace KeyReader

theorem isControl_of_finish {inlet : Inlet} {bytes : List UInt8} {c : Char}
    (h : (finish inlet bytes).2 = some (.key (.char c))) : Text.isControl c = false := by
  unfold finish at h
  cases hdecode : Utf8.decode? bytes with
  | none => simp [hdecode] at h
  | some d =>
      simp only [hdecode, Option.some.injEq, Reading.key.injEq] at h
      exact (Key.isControl_of_classify_eq_char h).2

/-- Whatever state a reader is in, no step gives a control character to type. -/
theorem isControl_of_step {reader reader' : KeyReader} {c : Char}
    (h : reader.step = some (reader', some (.key (.char c)))) : Text.isControl c = false := by
  have hstepping := stepping_of_step h
  generalize hreading : some (Reading.key (.char c)) = reading? at hstepping
  cases hstepping with
  | ended _ | again _ _ | endedEarly _ _ | failed _ _ | stray _ _ | lead _ _ | cut _ _
  | more _ _ _ => simp at hreading
  | single _ _ | last _ _ _ => exact isControl_of_finish hreading.symm

/-- Whatever a reader gives, it gives at some step. -/
theorem exists_step_of_mem_decoded {reader : KeyReader} {reading : Reading}
    (h : reading ∈ reader.decoded) :
    ∃ before after, step before = some (after, some reading) := by
  -- by the number of steps that are left
  induction hn : reader.effort using Nat.strongRecOn generalizing reader with
  | _ n ih =>
      cases hstep : reader.step with
      | none => simp [decoded_of_waiting hstep] at h
      | some next =>
          obtain ⟨reader', reading?⟩ := next
          have hless := effort_lt_of_step hstep
          rw [decoded_of_step hstep] at h
          rcases List.mem_append.1 h with hnow | hlater
          · obtain rfl := Option.mem_toList.1 hnow
            exact ⟨reader, reader', hstep⟩
          · exact ih _ (by omega) hlater rfl

theorem isControl_of_mem_decoded {reader : KeyReader} {c : Char}
    (h : .key (.char c) ∈ reader.decoded) : Text.isControl c = false := by
  obtain ⟨before, after, hstep⟩ := exists_step_of_mem_decoded h
  exact isControl_of_step hstep

end KeyReader

theorem clean_of_mem_entered {pending : List Char} {text : String}
    (hpending : ∀ c ∈ pending, Text.isControl c = false) (h : text ∈ entered pending) :
    Text.Clean text := by
  unfold entered at h
  dsimp only at h
  split at h
  · exact absurd h List.not_mem_nil
  · obtain rfl := List.mem_singleton.1 h
    refine Text.Clean.trim ((Text.clean_iff _).2 ?_)
    rwa [String.toList_ofList]

/-- If none is typed, none is said. -/
theorem clean_of_mem_typed {pending : List Char} {readings : List Reading} {text : String}
    (hpending : ∀ c ∈ pending, Text.isControl c = false)
    (hreadings : ∀ c, .key (.char c) ∈ readings → Text.isControl c = false)
    (h : text ∈ (typed pending readings).lines) : Text.Clean text := by
  induction readings generalizing pending with
  | nil => simp [typed] at h
  | cons reading readings ih =>
      have hlater : ∀ c, .key (.char c) ∈ readings → Text.isControl c = false :=
        fun c hc => hreadings c (List.mem_cons_of_mem _ hc)
      cases reading with
      | closed =>
          simp only [typed] at h
          exact clean_of_mem_entered hpending h
      | failed fault => simp [typed] at h
      | key key =>
          cases key with
          | interrupt | endOfInput => simp [typed] at h
          | ignored =>
              simp only [typed] at h
              exact ih hpending hlater h
          | backspace =>
              simp only [typed] at h
              exact ih (fun c hc => hpending c ((List.dropLast_sublist pending).subset hc)) hlater h
          | char c =>
              simp only [typed] at h
              refine ih ?_ hlater h
              rw [List.forall_mem_append, List.forall_mem_singleton]
              exact ⟨hpending, hreadings c List.mem_cons_self⟩
          | enter =>
              simp only [typed, Typing.after, List.mem_append] at h
              rcases h with hnow | hafter
              · exact clean_of_mem_entered hpending hnow
              · exact ih (List.forall_mem_nil _) hlater hafter

/-- Whatever arrives, what a session has to say of it has no control characters. -/
theorem Given.clean_of_mem_intended {given : Given} {later : List ReadEvent} {text : String}
    (h : text ∈ (given.intended later).lines) : Text.Clean text :=
  clean_of_mem_typed (List.forall_mem_nil _) (fun _ => KeyReader.isControl_of_mem_decoded) h

end LineChat
