import LineChat.Proofs.Key.Resuming

set_option autoImplicit false

/-! # Failures to read

What a failure to read comes to depends on where it falls. Between two characters it is treated by
its kind: an interrupted read is made again, an unexpected end is the end, and everything else is a
failure. Within a character everything is a failure, and the bytes of the character are lost
(`decoded_of_fault`). Either way the reader goes on behind it as if it had just begun.

Whether a reader is within a character when it has read some bytes can be told from the bytes alone
(`Utf8.isOpen`), by an invariant of its steps: what is held is the beginning of a character, and
together with what is left to be read it is open or not (`Inclined`). -/

namespace LineChat

namespace Inlet

/-! ## Bytes and nothing else -/

/-- These bytes are left to be read, and neither an end nor a failure is among them. -/
def Carries (inlet : Inlet) (bytes : List UInt8) : Prop :=
  ∃ chunks : List (List UInt8), [] ∉ chunks ∧ inlet.events = chunks.map .data
    ∧ inlet.buffer ++ chunks.flatten = bytes

variable {inlet : Inlet} {bytes : List UInt8}

theorem carries_ofEvents {chunks : List (List UInt8)} (h : [] ∉ chunks) :
    (ofEvents (chunks.map .data)).Carries chunks.flatten :=
  ⟨chunks, h, rfl, rfl⟩

/-- A look finds the first of the bytes, which is in the buffer then, or nothing if none is left. -/
theorem Carries.peek (h : inlet.Carries bytes) :
    (bytes = [] ∧ inlet = ⟨[], []⟩)
      ∨ ∃ b rest inlet', bytes = b :: rest ∧ inlet.peek = (.byte b, inlet') ∧ inlet'.Carries bytes
          ∧ inlet'.skip.Carries rest := by
  obtain ⟨buffer, events⟩ := inlet
  cases buffer with
  | cons b later =>
      obtain ⟨chunks, hne, rfl, rfl⟩ := h
      exact Or.inr ⟨b, _, _, rfl, rfl, ⟨chunks, hne, rfl, rfl⟩, ⟨chunks, hne, rfl, rfl⟩⟩
  | nil =>
      obtain ⟨chunks, hne, rfl, rfl⟩ := h
      rcases chunks with _ | ⟨_ | ⟨b, chunk⟩, chunks⟩
      · exact Or.inl ⟨rfl, rfl⟩
      · exact absurd List.mem_cons_self hne
      · have hrest : [] ∉ chunks := fun hmem => hne (List.mem_cons_of_mem _ hmem)
        -- what does not fit into the buffer is a chunk of its own
        obtain ⟨chunks', hne', hevents, hflatten⟩ : ∃ chunks' : List (List UInt8), [] ∉ chunks'
            ∧ leftover (b :: chunk) (chunks.map .data) = chunks'.map .data
            ∧ chunks'.flatten = (b :: chunk).drop bufferSize ++ chunks.flatten := by
          unfold leftover
          split
          · rename_i hfits
            exact ⟨chunks, hrest, rfl, by rw [List.drop_of_length_le hfits, List.nil_append]⟩
          · rename_i hlong
            refine ⟨(b :: chunk).drop bufferSize :: chunks, ?_, rfl, rfl⟩
            rw [List.mem_cons, not_or]
            exact ⟨fun hnil => hlong (List.drop_eq_nil_iff.1 hnil.symm), hrest⟩
        refine Or.inr ⟨b, chunk ++ chunks.flatten, _, rfl, rfl, ⟨chunks', hne', hevents, ?_⟩,
          ⟨chunks', hne', hevents, ?_⟩⟩
        · show (b :: chunk).take bufferSize ++ chunks'.flatten = b :: chunk ++ chunks.flatten
          rw [hflatten, ← List.append_assoc, List.take_append_drop]
        · show ((b :: chunk).take bufferSize).tail ++ chunks'.flatten = chunk ++ chunks.flatten
          rw [hflatten, ← List.append_assoc]
          show chunk.take (bufferSize - 1) ++ chunk.drop (bufferSize - 1) ++ _ = _
          rw [List.take_append_drop]

/-- A line feed that goes with a carriage return opens and closes nothing. -/
theorem Carries.joinLineEnd (h : inlet.Carries bytes) (c : Char) :
    ∃ bytes', (KeyReader.joinLineEnd c inlet).Carries bytes'
      ∧ Utf8.isOpen bytes' = Utf8.isOpen bytes := by
  unfold KeyReader.joinLineEnd
  split
  · rename_i hjoin
    obtain ⟨chunks, hne, hevents, rfl⟩ := h
    obtain ⟨rest, hbuffer⟩ := List.head?_eq_some_iff.1 hjoin.2
    refine ⟨rest ++ chunks.flatten, ⟨chunks, hne, hevents, by rw [skip, hbuffer]; rfl⟩, ?_⟩
    rw [hbuffer, List.cons_append, Utf8.isOpen_cons_of_width_le (by decide)]
  · exact ⟨bytes, h, rfl⟩

end Inlet

namespace KeyReader

open Inlet

/-! ## Within a character, or not -/

/-- What is held is the beginning of a character, and the bytes that are left to be read, and after
    which nothing comes, end within a character or do not. -/
structure Inclined (reader : KeyReader) (within : Bool) : Prop where
  held : ∀ lead later, reader.held = lead :: later → Utf8.Short lead later
  left : ∃ bytes, reader.inlet.Carries bytes ∧ Utf8.isOpen (reader.held ++ bytes) = within

variable {reader reader' : KeyReader} {reading? : Option Reading} {within : Bool}

theorem inclined_ofEvents {chunks : List (List UInt8)} (h : [] ∉ chunks) :
    (ofEvents (chunks.map .data)).Inclined (Utf8.isOpen chunks.flatten) :=
  ⟨nofun, _, carries_ofEvents h, rfl⟩

theorem inclined_between {inlet : Inlet} {bytes : List UInt8} (h : inlet.Carries bytes) :
    (between inlet).Inclined (Utf8.isOpen bytes) :=
  ⟨nofun, bytes, h, rfl⟩

theorem inclined_finish {inlet : Inlet} {bytes : List UInt8} (h : inlet.Carries bytes)
    (character : List UInt8) : (finish inlet character).1.Inclined (Utf8.isOpen bytes) := by
  unfold finish
  cases Utf8.decode? character with
  | none => exact inclined_between h
  | some c =>
      obtain ⟨bytes', hbytes', hopen⟩ := h.joinLineEnd c
      exact hopen ▸ inclined_between hbytes'

/-- While there are bytes to be read, no step changes whether they end within a character. -/
theorem Inclined.step (h : reader.Inclined within)
    (hstep : reader.step = some (reader', reading?)) : reader'.Inclined within := by
  obtain ⟨hheld, bytes, hbytes, rfl⟩ := h
  have hpeek := hbytes.peek
  -- what is next is a byte
  rcases hpeek with ⟨-, hempty⟩ | ⟨b, rest, next, rfl, hpeek, hstays, hrest⟩
  · have hpending : reader.inlet.peek.1 = .pending := by
      rw [hempty]
      rfl
    rw [(step_eq_none_iff reader).2 hpending] at hstep
    exact absurd hstep nofun
  have hnext : ∀ {p : Peek} {inlet : Inlet}, reader.inlet.peek = (p, inlet) →
      p = .byte b ∧ inlet = next := fun hp => Prod.mk.inj (hp.symm.trans hpeek)
  cases stepping_of_step hstep with
  | ended hp | again hp _ | endedEarly hp _ | failed hp _ => exact absurd (hnext hp).1 nofun
  | stray hp hwidth =>
      obtain ⟨hb, rfl⟩ := hnext hp
      obtain rfl := Peek.byte.inj hb
      show Inclined _ (Utf8.isOpen (_ :: rest))
      rw [Utf8.isOpen_cons_of_width_le (by omega)]
      exact inclined_between hrest
  | single hp hwidth =>
      obtain ⟨hb, rfl⟩ := hnext hp
      obtain rfl := Peek.byte.inj hb
      show Inclined _ (Utf8.isOpen (_ :: rest))
      rw [Utf8.isOpen_cons_of_width_le (by omega)]
      exact inclined_finish hrest _
  | lead hp hwidth =>
      obtain ⟨hb, rfl⟩ := hnext hp
      obtain rfl := Peek.byte.inj hb
      refine ⟨fun lead later hthis => ?_, rest, hrest, rfl⟩
      obtain ⟨rfl, rfl⟩ := List.cons.inj hthis
      exact ⟨by simp only [List.length_nil]; omega, by simp⟩
  | cut hp hcont =>
      obtain ⟨hb, rfl⟩ := hnext hp
      obtain rfl := Peek.byte.inj hb
      rw [Utf8.isOpen_append_cons hcont]
      exact inclined_between hstays
  | @more inlet inlet' b' lead later hp hcont hwidth =>
      obtain ⟨hb, rfl⟩ := hnext hp
      obtain rfl := Peek.byte.inj hb
      have hshort := hheld lead later rfl
      refine ⟨fun lead' later' hthis => ?_, rest, hrest, by simp⟩
      obtain ⟨rfl, rfl⟩ := List.cons.inj hthis
      refine ⟨hwidth, fun c hc => ?_⟩
      rcases List.mem_append.1 hc with hc | hc
      · exact hshort.continues c hc
      · exact List.mem_singleton.1 hc ▸ hcont
  | @last inlet inlet' b' lead later hp hcont hwidth =>
      obtain ⟨hb, rfl⟩ := hnext hp
      obtain rfl := Peek.byte.inj hb
      have hshort := hheld lead later rfl
      have hshaped : Utf8.Shaped lead (later ++ [b']) := by
        refine ⟨?_, fun c hc => ?_⟩
        · have hless := hshort.width
          simp only [List.length_cons, List.length_append, List.length_nil] at hwidth ⊢
          omega
        · rcases List.mem_append.1 hc with hc | hc
          · exact hshort.continues c hc
          · exact List.mem_singleton.1 hc ▸ hcont
      have hopen := hshaped.isOpen_append rest
      rw [List.cons_append, List.append_assoc, List.singleton_append, ← List.cons_append] at hopen
      show Inclined _ (Utf8.isOpen (lead :: later ++ b' :: rest))
      rw [hopen]
      exact inclined_finish hrest _

/-- A reader gives the same of some bytes, whatever comes behind them, and then it goes on with what
    it holds of a character. -/
theorem Inclined.exists_held (h : reader.Inclined within) :
    ∃ held, (held = [] ↔ within = false) ∧ ∀ later,
      (reader.followedBy later).decoded = reader.decoded ++ decoded ⟨.ofEvents later, held⟩ := by
  -- by the number of steps that are left
  induction hn : reader.effort using Nat.strongRecOn generalizing reader with
  | _ n ih =>
      cases hstep : reader.step with
      | some next =>
          obtain ⟨reader', reading?⟩ := next
          have hless := effort_lt_of_step hstep
          obtain ⟨held, hopen, hlater⟩ := ih _ (by omega) (h.step hstep) rfl
          refine ⟨held, hopen, fun later => ?_⟩
          rw [decoded_of_step (step_followedBy hstep later), hlater, decoded_of_step hstep,
            List.append_assoc]
      | none =>
          obtain ⟨⟨buffer, events⟩, held⟩ := reader
          obtain ⟨rfl, rfl⟩ := (Inlet.peek_eq_pending_iff _).1 ((step_eq_none_iff _).1 hstep)
          obtain ⟨hheld, bytes, ⟨chunks, -, hevents, hbytes⟩, hopen⟩ := h
          obtain rfl : chunks = [] := List.map_eq_nil_iff.1 hevents.symm
          obtain rfl : bytes = [] := hbytes.symm
          rw [List.append_nil] at hopen
          refine ⟨held, ?_, fun later => ?_⟩
          · cases held with
            | nil => exact iff_of_true rfl hopen.symm
            | cons lead rest =>
                have hwithin : within = true := hopen.symm.trans (hheld lead rest rfl).isOpen
                simp [hwithin]
          · rw [decoded_of_waiting hstep]
            rfl

/-- What comes behind some bytes finds the reader with what it holds of a character, and nothing if
    they do not end within one. -/
theorem exists_decoded_append {chunks : List (List UInt8)} (h : [] ∉ chunks) :
    ∃ held, (held = [] ↔ Utf8.isOpen chunks.flatten = false) ∧ ∀ later,
      (ofEvents (chunks.map .data ++ later)).decoded
        = (keysOf chunks).map .key ++ decoded ⟨.ofEvents later, held⟩ := by
  obtain ⟨held, hopen, hlater⟩ := (inclined_ofEvents h).exists_held
  -- the end comes behind these bytes whatever is held, so the keys are those up to the end
  have hkeys : (ofChunks chunks).decoded = (keysOf chunks).map .key ++ [.closed] := by
    obtain ⟨keys, hspelled⟩ := Key.exists_spelled (folded (reads chunks))
    rw [keysOf_of_spelled hspelled]
    exact decoded_of_spelled hspelled (brings_ofEvents h)
  have hclose : (ofChunks chunks).decoded
      = (ofEvents (chunks.map .data)).decoded ++ [.closed] := by
    have hpeek : (Inlet.ofEvents [.close]).peek = (.finished, ⟨[], []⟩) := rfl
    have hstep := step_of_stepping (@Stepping.ended _ _ held hpeek)
    have hnothing : (between ⟨[], []⟩).decoded = [] := rfl
    have hthis := hlater [.close]
    rw [decoded_of_step hstep, hnothing, List.append_nil] at hthis
    exact hthis
  rw [hkeys] at hclose
  refine ⟨held, hopen, fun later => ?_⟩
  rw [List.append_cancel_right hclose]
  exact hlater later

/-! ## Failures -/

/-- What a failure is read as, within a character or not. -/
def ofFault (within : Bool) (fault : IoFault) : Option Reading :=
  if within then some (.failed fault)
  else match fault.kind with
    | .interrupted => none
    | .unexpectedEof => some .closed
    | _ => some (.failed fault)

theorem decoded_fault_cons (held : List UInt8) (fault : IoFault) (later : List ReadEvent) :
    decoded ⟨.ofEvents (.error fault :: later), held⟩
      = (ofFault (!held.isEmpty) fault).toList ++ (ofEvents later).decoded := by
  have hpeek : (Inlet.ofEvents (.error fault :: later)).peek
      = (.failed fault, .ofEvents later) := rfl
  cases held with
  | cons lead rest => exact decoded_of_step (step_of_stepping (.failed hpeek nofun))
  | nil =>
      by_cases hinterrupted : fault.kind = .interrupted
      · rw [ofFault, hinterrupted]
        exact decoded_of_step (step_of_stepping (.again hpeek hinterrupted))
      by_cases heof : fault.kind = .unexpectedEof
      · rw [ofFault, heof]
        exact decoded_of_step (step_of_stepping (.endedEarly hpeek heof))
      · have hother : ofFault false fault = some (.failed fault) := by
          unfold ofFault
          split <;> simp_all
        rw [show (!([] : List UInt8).isEmpty) = false from rfl, hother]
        exact decoded_of_step (step_of_stepping (.failed hpeek fun _ => ⟨hinterrupted, heof⟩))

/-- A failure behind some bytes is read by its kind between two characters, and as a failure within
    one. The keys of the bytes are the same as if the end came there, and what comes later is read
    from the start. -/
theorem decoded_of_fault {chunks : List (List UInt8)} (h : [] ∉ chunks) (fault : IoFault)
    (later : List ReadEvent) :
    (ofEvents (chunks.map .data ++ .error fault :: later)).decoded
      = (keysOf chunks).map .key ++ (ofFault (Utf8.isOpen chunks.flatten) fault).toList
        ++ (ofEvents later).decoded := by
  obtain ⟨held, hopen, hlater⟩ := exists_decoded_append h
  have hwithin : (!held.isEmpty) = Utf8.isOpen chunks.flatten := by
    cases hbytes : Utf8.isOpen chunks.flatten with
    | false => simp [hopen.2 hbytes]
    | true => simp [hopen, hbytes]
  rw [hlater, decoded_fault_cons, hwithin, List.append_assoc]

/-- Between two characters a read that is interrupted might as well not have been made. -/
theorem decoded_of_interrupted {chunks : List (List UInt8)} (h : [] ∉ chunks)
    (hbetween : Utf8.isOpen chunks.flatten = false) {fault : IoFault}
    (hkind : fault.kind = .interrupted) (later : List ReadEvent) :
    (ofEvents (chunks.map .data ++ .error fault :: later)).decoded
      = (ofEvents (chunks.map .data ++ later)).decoded := by
  obtain ⟨held, hopen, hlater⟩ := exists_decoded_append h
  obtain rfl := hopen.2 hbetween
  rw [hlater, hlater, decoded_fault_cons, ofFault, hkind]
  rfl

end KeyReader

end LineChat
