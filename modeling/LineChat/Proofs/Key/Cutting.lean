import LineChat.Proofs.Key.Reads
import LineChat.Proofs.Session.Typing

set_option autoImplicit false

/-! # How the input is cut

Bytes arrive in pieces, and where they are cut is up to the network. The keys do depend on it: a
line feed that comes right behind a carriage return belongs to it only if both are in the buffer.
What is said by typing does not. The Enter that is read too often meets a line that is empty, and
everything else that the reader does depends on the next byte and on the bytes that it holds.

So two readers that hold the same bytes and have the same ones to come are followed step by step,
however the bytes are cut for either of them (`typed_decoded_of_holds`). -/

namespace LineChat

namespace Inlet

/-- These bytes are to be read, and then the end. -/
def Holds (inlet : Inlet) (bytes : List UInt8) : Prop :=
  ∃ chunks : List (List UInt8), [] ∉ chunks ∧ inlet.events = chunks.map .data ++ [.close]
    ∧ inlet.buffer ++ chunks.flatten = bytes

theorem holds_ofEvents {chunks : List (List UInt8)} (h : [] ∉ chunks) :
    (ofEvents (chunks.map .data ++ [.close])).Holds chunks.flatten :=
  ⟨chunks, h, rfl, rfl⟩

theorem holds_iff (inlet : Inlet) (bytes : List UInt8) :
    inlet.Holds bytes
      ↔ ∃ coming, inlet.Offers coming ∧ (inlet.buffer :: coming).flatMap id = bytes := by
  constructor
  · rintro ⟨chunks, hne, hevents, hbytes⟩
    refine ⟨reads chunks, ⟨chunks, hne, hevents, rfl⟩, ?_⟩
    rw [List.flatMap_id, List.flatten_cons, flatten_reads, hbytes]
  · rintro ⟨_, ⟨chunks, hne, hevents, rfl⟩, hbytes⟩
    refine ⟨chunks, hne, hevents, ?_⟩
    rw [← hbytes, List.flatMap_id, List.flatten_cons, flatten_reads]

/-- After the last byte comes the end. -/
theorem Holds.peek_nil {inlet : Inlet} (h : inlet.Holds []) :
    ∃ inlet', inlet.peek = (.finished, inlet') := by
  obtain ⟨coming, hoffers, hbytes⟩ := (holds_iff _ _).1 h
  rcases hoffers.peek with ⟨-, -, hpeek⟩ | ⟨b, later, inlet', coming', -, hbuffer, -, hsame⟩
  · exact ⟨_, hpeek⟩
  · have hthis := (hsame id rfl).trans hbytes
    rw [hbuffer] at hthis
    exact absurd hthis (List.cons_ne_nil _ _)

/-- The first byte is what is next, and to look at it loses nothing. -/
theorem Holds.peek_cons {inlet : Inlet} {b : UInt8} {bytes : List UInt8}
    (h : inlet.Holds (b :: bytes)) :
    ∃ inlet', inlet.peek = (.byte b, inlet') ∧ inlet'.Holds (b :: bytes)
      ∧ inlet'.skip.Holds bytes := by
  obtain ⟨coming, hoffers, hbytes⟩ := (holds_iff _ _).1 h
  rcases hoffers.peek with
    ⟨hbuffer, rfl, -⟩ | ⟨c, later, inlet', coming', hpeek, hbuffer, hcoming, hsame⟩
  · rw [hbuffer] at hbytes
    exact absurd hbytes.symm (List.cons_ne_nil _ _)
  · have hthis := (hsame id rfl).trans hbytes
    have hsplit := hthis
    rw [hbuffer] at hsplit
    obtain ⟨rfl, hrest⟩ := List.cons.inj hsplit
    refine ⟨inlet', hpeek, (holds_iff _ _).2 ⟨coming', hcoming, hthis⟩,
      (holds_iff _ _).2 ⟨coming', hcoming, ?_⟩⟩
    rw [skip, hbuffer]
    exact hrest

end Inlet

namespace KeyReader

/-! ## The line feed that was cut off -/

/-- What the line feed comes to that was taken along is what comes of reading it after an Enter:
    nothing. -/
theorem typed_joinLineEnd (c : Char) (inlet : Inlet) :
    typed [] (between (joinLineEnd c inlet)).decoded = typed [] (between inlet).decoded := by
  unfold joinLineEnd
  split
  · rename_i hjoin
    have hpeek : inlet.peek = (.byte 0x0A, inlet) := by
      obtain ⟨buffer, events⟩ := inlet
      obtain ⟨rest, rfl⟩ := List.head?_eq_some_iff.1 hjoin.2
      rfl
    have hfinish : finish inlet.skip [0x0A] = (between inlet.skip, some (.key .enter)) := rfl
    have hstep := step_of_stepping (.single hpeek rfl)
    rw [hfinish] at hstep
    rw [decoded_of_step hstep]
    show _ = (typed [] (between inlet.skip).decoded).after (entered [])
    rfl
  · rfl

/-! ## Two readers of the same bytes -/

/-- What comes of a reading and of what follows it is settled by what comes of the latter. -/
theorem typed_cons_congr {readings readings' : List Reading}
    (h : ∀ pending, typed pending readings = typed pending readings') (reading : Reading)
    (pending : List Char) : typed pending (reading :: readings) = typed pending (reading :: readings') := by
  cases reading with
  | closed | failed fault => rfl
  | key key =>
      cases key with
      | interrupt | endOfInput => rfl
      | enter | backspace | char c | ignored => simp only [typed, h]

/-- A character that is complete is read the same, whether or not a line feed goes with it. -/
theorem typed_finish {inlet inlet' : Inlet}
    (h : ∀ pending, typed pending (between inlet).decoded = typed pending (between inlet').decoded)
    (bytes : List UInt8) (pending : List Char) :
    typed pending ((finish inlet bytes).2.toList ++ (finish inlet bytes).1.decoded)
      = typed pending ((finish inlet' bytes).2.toList ++ (finish inlet' bytes).1.decoded) := by
  unfold finish
  cases Utf8.decode? bytes with
  | none => exact typed_cons_congr h _ pending
  | some c =>
      by_cases hc : c = '\r'
      · subst hc
        show (typed [] (between (joinLineEnd '\r' inlet)).decoded).after (entered pending)
          = (typed [] (between (joinLineEnd '\r' inlet')).decoded).after (entered pending)
        rw [typed_joinLineEnd, typed_joinLineEnd, h]
      · have hnone : ∀ inlet, joinLineEnd c inlet = inlet := fun inlet => if_neg fun hjoin => hc hjoin.1
        simp only [hnone]
        exact typed_cons_congr h _ pending

/-- A byte that is used up is never looked at again. -/
theorem effort_between_skip_lt {inlet inlet' : Inlet} {b : UInt8}
    (h : inlet.peek = (.byte b, inlet')) (held : List UInt8) :
    (between inlet'.skip).effort < effort ⟨inlet, held⟩ := by
  obtain ⟨hsize, hbuffer⟩ := Inlet.size_of_peek_byte h
  have hskip := Inlet.size_skip hbuffer
  simp only [effort, between, List.length_nil]
  omega

/-- Readers of the same bytes give readings from which the same comes. -/
theorem typed_decoded_of_holds {inlet inlet' : Inlet} {bytes : List UInt8}
    (h : inlet.Holds bytes) (h' : inlet'.Holds bytes) (held : List UInt8) (pending : List Char) :
    typed pending (decoded ⟨inlet, held⟩) = typed pending (decoded ⟨inlet', held⟩) := by
  -- by the steps that are left to the first reader; the second one makes the same steps, except that
  -- only one of them may take a line feed along
  induction hn : effort ⟨inlet, held⟩ using Nat.strongRecOn
    generalizing inlet inlet' bytes held pending with
  | _ n ih =>
      cases bytes with
      | nil =>
          obtain ⟨next, hpeek⟩ := h.peek_nil
          obtain ⟨next', hpeek'⟩ := h'.peek_nil
          rw [decoded_of_step (step_of_stepping (.ended hpeek)),
            decoded_of_step (step_of_stepping (.ended hpeek'))]
          rfl
      | cons b bytes =>
          obtain ⟨next, hpeek, hstays, hrest⟩ := h.peek_cons
          obtain ⟨next', hpeek', hstays', hrest'⟩ := h'.peek_cons
          have hbetween : ∀ pending, typed pending (between next.skip).decoded
              = typed pending (between next'.skip).decoded := fun pending =>
            ih _ (hn ▸ effort_between_skip_lt hpeek held) hrest hrest' [] pending rfl
          cases held with
          | nil =>
              show typed pending (between inlet).decoded = typed pending (between inlet').decoded
              by_cases hstray : Utf8.width b = 0
              · rw [decoded_of_step (step_of_stepping (.stray hpeek hstray)),
                  decoded_of_step (step_of_stepping (.stray hpeek' hstray))]
                exact typed_cons_congr hbetween _ pending
              by_cases hsingle : Utf8.width b = 1
              · rw [decoded_of_step (step_of_stepping (.single hpeek hsingle)),
                  decoded_of_step (step_of_stepping (.single hpeek' hsingle))]
                exact typed_finish hbetween [b] pending
              · have hstep := step_of_stepping (.lead hpeek ⟨hstray, hsingle⟩)
                rw [decoded_of_step hstep,
                  decoded_of_step (step_of_stepping (.lead hpeek' ⟨hstray, hsingle⟩))]
                exact ih _ (hn ▸ effort_lt_of_step hstep) hrest hrest' [b] pending rfl
          | cons lead later =>
              cases hcont : Utf8.isContinuation b with
              | false =>
                  have hstep := step_of_stepping (@Stepping.cut _ _ _ lead later hpeek hcont)
                  rw [decoded_of_step hstep, decoded_of_step (step_of_stepping (.cut hpeek' hcont))]
                  exact typed_cons_congr (fun pending =>
                    ih _ (hn ▸ effort_lt_of_step hstep) hstays hstays' [] pending rfl) _ pending
              | true =>
                  by_cases hwidth : (lead :: (later ++ [b])).length < Utf8.width lead
                  · have hstep := step_of_stepping (.more hpeek hcont hwidth)
                    rw [decoded_of_step hstep,
                      decoded_of_step (step_of_stepping (.more hpeek' hcont hwidth))]
                    exact ih _ (hn ▸ effort_lt_of_step hstep) hrest hrest' _ pending rfl
                  · rw [decoded_of_step (step_of_stepping (.last hpeek hcont hwidth)),
                      decoded_of_step (step_of_stepping (.last hpeek' hcont hwidth))]
                    exact typed_finish hbetween _ pending

/-- However bytes are cut, the same comes of them. -/
theorem typed_decoded_of_cuts {chunks chunks' : List (List UInt8)} (hne : [] ∉ chunks)
    (hne' : [] ∉ chunks') (hsame : chunks.flatten = chunks'.flatten) :
    typed [] (ofEvents (chunks.map .data ++ [.close])).decoded
      = typed [] (ofEvents (chunks'.map .data ++ [.close])).decoded :=
  typed_decoded_of_holds (hsame ▸ Inlet.holds_ofEvents hne) (Inlet.holds_ofEvents hne') [] []

/-- A line end that is cut in two is one Enter more, and says the same. -/
example :
    (ofEvents [.data [104, 13, 10], .close]).decoded
        = [.key (.char 'h'), .key .enter, .closed]
      ∧ (ofEvents [.data [104, 13], .data [10], .close]).decoded
        = [.key (.char 'h'), .key .enter, .key .enter, .closed] := by
  decide +kernel

end KeyReader

end LineChat
