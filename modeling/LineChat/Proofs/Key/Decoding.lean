import LineChat.Key.Reader

set_option autoImplicit false

/-! # What a reader gives before it has to wait

`KeyReader.decoded` is all that a reader gives of what has arrived. A step that can be made is made
the same whatever arrives later (`step_followedBy`), and it brings the reader nearer to the point
where it has to wait (`effort_lt_of_step`). So the readings may be looked at one step at a time, and
never depend on how much of the input was there when the first of them were made. -/

namespace LineChat

namespace Inlet

/-- The inlet with more to be read behind what is there. -/
def followedBy (inlet : Inlet) (later : List ReadEvent) : Inlet :=
  { inlet with events := inlet.events ++ later }

theorem leftover_append (bytes : List UInt8) (rest later : List ReadEvent) :
    leftover bytes (rest ++ later) = leftover bytes rest ++ later := by
  unfold leftover
  split <;> rfl

/-- What is next is no matter of what comes later, unless nothing is there. -/
theorem peek_followedBy {inlet inlet' : Inlet} {p : Peek} (h : inlet.peek = (p, inlet'))
    (hp : p ≠ .pending) (later : List ReadEvent) :
    (inlet.followedBy later).peek = (p, inlet'.followedBy later) := by
  obtain ⟨buffer, events⟩ := inlet
  cases buffer with
  | cons b rest =>
      obtain ⟨rfl, rfl⟩ := Prod.mk.inj h
      rfl
  | nil =>
      cases events with
      | nil => exact absurd (congrArg Prod.fst h).symm hp
      | cons event rest =>
          cases event with
          | close | error fault =>
              obtain ⟨rfl, rfl⟩ := Prod.mk.inj h
              rfl
          | data bytes =>
              cases bytes with
              | nil =>
                  obtain ⟨rfl, rfl⟩ := Prod.mk.inj h
                  rfl
              | cons b bytes =>
                  obtain ⟨rfl, rfl⟩ := Prod.mk.inj h
                  show (Peek.byte b, (⟨_, leftover (b :: bytes) (rest ++ later)⟩ : Inlet)) = _
                  rw [leftover_append]
                  rfl

theorem skip_followedBy (inlet : Inlet) (later : List ReadEvent) :
    (inlet.followedBy later).skip = inlet.skip.followedBy later := rfl

theorem peek_eq_pending_iff (inlet : Inlet) :
    inlet.peek.1 = .pending ↔ inlet.buffer = [] ∧ inlet.events = [] := by
  obtain ⟨buffer, events⟩ := inlet
  rcases buffer with _ | ⟨b, rest⟩
  · rcases events with _ | ⟨(_ | ⟨_, _⟩) | _ | _, rest⟩ <;> simp [peek, refill]
  · simp [peek]

/-! ## How much a look takes -/

@[simp] theorem eventsSize_cons (event : ReadEvent) (events : List ReadEvent) :
    eventsSize (event :: events) = eventSize event + eventsSize events := rfl

theorem size_leftover (bytes : List UInt8) (rest : List ReadEvent) :
    (bytes.take bufferSize).length + eventsSize (leftover bytes rest)
      ≤ bytes.length + 1 + eventsSize rest := by
  unfold leftover
  rw [List.length_take]
  split
  · omega
  · simp only [eventsSize_cons, eventSize, List.length_drop]
    omega

/-- A byte that is next is in the buffer, and to look at it adds nothing. -/
theorem size_of_peek_byte {inlet inlet' : Inlet} {b : UInt8} (h : inlet.peek = (.byte b, inlet')) :
    inlet'.size ≤ inlet.size ∧ 0 < inlet'.buffer.length := by
  obtain ⟨buffer, events⟩ := inlet
  rcases buffer with _ | ⟨c, rest⟩
  · rcases events with _ | ⟨(_ | ⟨c, bytes⟩) | _ | _, rest⟩ <;>
      simp only [peek, refill, Prod.mk.injEq, reduceCtorEq, false_and] at h
    obtain ⟨-, rfl⟩ := h
    have hsize := size_leftover (c :: bytes) rest
    refine ⟨?_, by simp [bufferSize]⟩
    simp only [size, List.length_nil, eventsSize_cons, eventSize]
    omega
  · simp only [peek, Prod.mk.injEq] at h
    obtain ⟨-, rfl⟩ := h
    exact ⟨Nat.le_refl _, by simp⟩

theorem size_of_peek_event {inlet inlet' : Inlet} {p : Peek} (h : inlet.peek = (p, inlet'))
    (hp : p = .finished ∨ ∃ fault, p = .failed fault) : inlet'.size < inlet.size := by
  obtain ⟨buffer, events⟩ := inlet
  rcases buffer with _ | ⟨c, rest⟩
  · rcases events with _ | ⟨(_ | ⟨c, bytes⟩) | _ | _, rest⟩ <;>
      simp only [peek, refill, Prod.mk.injEq] at h <;> obtain ⟨rfl, rfl⟩ := h <;>
      simp [size, eventSize] at hp ⊢
  · simp only [peek, Prod.mk.injEq] at h
    simp [← h.1] at hp

theorem size_skip {inlet : Inlet} (h : 0 < inlet.buffer.length) :
    inlet.skip.size + 1 = inlet.size := by
  simp only [skip, size, List.length_tail]
  omega

theorem size_skip_le (inlet : Inlet) : inlet.skip.size ≤ inlet.size := by
  simp only [skip, size, List.length_tail]
  omega

end Inlet

namespace KeyReader

/-! ## Steps -/

/-- The reader with more to be read behind what is there. -/
def followedBy (reader : KeyReader) (later : List ReadEvent) : KeyReader :=
  { reader with inlet := reader.inlet.followedBy later }

@[simp] theorem followedBy_nil (reader : KeyReader) : reader.followedBy [] = reader := by
  simp [followedBy, Inlet.followedBy]

theorem followedBy_followedBy (reader : KeyReader) (later later' : List ReadEvent) :
    (reader.followedBy later).followedBy later' = reader.followedBy (later ++ later') := by
  simp [followedBy, Inlet.followedBy]

theorem push_eq_followedBy (reader : KeyReader) (event : ReadEvent) :
    reader.push event = reader.followedBy [event] := rfl

theorem joinLineEnd_followedBy (c : Char) (inlet : Inlet) (later : List ReadEvent) :
    joinLineEnd c (inlet.followedBy later) = (joinLineEnd c inlet).followedBy later := by
  unfold joinLineEnd
  show (if c = '\r' ∧ inlet.buffer.head? = some 0x0A then _ else _) = _
  split <;> rfl

theorem finish_followedBy (inlet : Inlet) (bytes : List UInt8) (later : List ReadEvent) :
    finish (inlet.followedBy later) bytes
      = ((finish inlet bytes).1.followedBy later, (finish inlet bytes).2) := by
  unfold finish
  cases Utf8.decode? bytes with
  | none => rfl
  | some c =>
      simp only [joinLineEnd_followedBy]
      rfl

/-- What a step makes of what it finds. Between two characters it is the first byte of the next
    one, and else it is a byte of the character under way. -/
inductive Stepping : KeyReader → KeyReader → Option Reading → Prop
  | ended {inlet inlet' : Inlet} {held : List UInt8} (hpeek : inlet.peek = (.finished, inlet')) :
    Stepping ⟨inlet, held⟩ (between inlet') (some .closed)
  | again {inlet inlet' : Inlet} {fault : IoFault} (hpeek : inlet.peek = (.failed fault, inlet'))
    (hkind : fault.kind = .interrupted) : Stepping (between inlet) (between inlet') none
  | endedEarly {inlet inlet' : Inlet} {fault : IoFault}
    (hpeek : inlet.peek = (.failed fault, inlet')) (hkind : fault.kind = .unexpectedEof) :
    Stepping (between inlet) (between inlet') (some .closed)
  | failed {inlet inlet' : Inlet} {held : List UInt8} {fault : IoFault}
    (hpeek : inlet.peek = (.failed fault, inlet'))
    (hkind : held = [] → fault.kind ≠ .interrupted ∧ fault.kind ≠ .unexpectedEof) :
    Stepping ⟨inlet, held⟩ (between inlet') (some (.failed fault))
  | stray {inlet inlet' : Inlet} {b : UInt8} (hpeek : inlet.peek = (.byte b, inlet'))
    (hwidth : Utf8.width b = 0) :
    Stepping (between inlet) (between inlet'.skip) (some (.key .ignored))
  | single {inlet inlet' : Inlet} {b : UInt8} (hpeek : inlet.peek = (.byte b, inlet'))
    (hwidth : Utf8.width b = 1) :
    Stepping (between inlet) (finish inlet'.skip [b]).1 (finish inlet'.skip [b]).2
  | lead {inlet inlet' : Inlet} {b : UInt8} (hpeek : inlet.peek = (.byte b, inlet'))
    (hwidth : Utf8.width b ≠ 0 ∧ Utf8.width b ≠ 1) :
    Stepping (between inlet) ⟨inlet'.skip, [b]⟩ none
  | cut {inlet inlet' : Inlet} {b lead : UInt8} {later : List UInt8}
    (hpeek : inlet.peek = (.byte b, inlet')) (hcont : Utf8.isContinuation b = false) :
    Stepping ⟨inlet, lead :: later⟩ (between inlet') (some (.key .ignored))
  | more {inlet inlet' : Inlet} {b lead : UInt8} {later : List UInt8}
    (hpeek : inlet.peek = (.byte b, inlet')) (hcont : Utf8.isContinuation b = true)
    (hwidth : (lead :: (later ++ [b])).length < Utf8.width lead) :
    Stepping ⟨inlet, lead :: later⟩ ⟨inlet'.skip, lead :: (later ++ [b])⟩ none
  | last {inlet inlet' : Inlet} {b lead : UInt8} {later : List UInt8}
    (hpeek : inlet.peek = (.byte b, inlet')) (hcont : Utf8.isContinuation b = true)
    (hwidth : ¬ (lead :: (later ++ [b])).length < Utf8.width lead) :
    Stepping ⟨inlet, lead :: later⟩ (finish inlet'.skip (lead :: (later ++ [b]))).1
      (finish inlet'.skip (lead :: (later ++ [b]))).2

theorem stepping_of_step {reader reader' : KeyReader} {reading? : Option Reading}
    (h : reader.step = some (reader', reading?)) : Stepping reader reader' reading? := by
  obtain ⟨inlet, held⟩ := reader
  rcases hpeek : inlet.peek with ⟨p, inlet'⟩
  cases held with
  | nil =>
      simp only [step, stepFirst, hpeek] at h
      cases p with
      | pending => simp at h
      | finished =>
          obtain ⟨rfl, rfl⟩ := Prod.mk.inj (Option.some.inj h)
          exact .ended hpeek
      | failed fault =>
          dsimp only at h
          split at h <;> obtain ⟨rfl, rfl⟩ := Prod.mk.inj (Option.some.inj h)
          · exact .again hpeek ‹_›
          · exact .endedEarly hpeek ‹_›
          · exact .failed hpeek fun _ => ⟨‹_›, ‹_›⟩
      | byte b =>
          dsimp only at h
          split at h <;> obtain ⟨rfl, rfl⟩ := Prod.mk.inj (Option.some.inj h)
          · exact .stray hpeek ‹_›
          · exact .single hpeek ‹_›
          · exact .lead hpeek ⟨‹_›, ‹_›⟩
  | cons lead later =>
      simp only [step, stepNext, hpeek] at h
      cases p with
      | pending => simp at h
      | finished =>
          obtain ⟨rfl, rfl⟩ := Prod.mk.inj (Option.some.inj h)
          exact .ended hpeek
      | failed fault =>
          obtain ⟨rfl, rfl⟩ := Prod.mk.inj (Option.some.inj h)
          exact .failed hpeek nofun
      | byte b =>
          dsimp only at h
          split at h
          · rename_i hcont
            obtain ⟨rfl, rfl⟩ := Prod.mk.inj (Option.some.inj h)
            exact .cut hpeek (by simpa using hcont)
          · rename_i hcont
            have hcont : Utf8.isContinuation b = true := by simpa using hcont
            split at h <;> obtain ⟨rfl, rfl⟩ := Prod.mk.inj (Option.some.inj h)
            · exact .more hpeek hcont ‹_›
            · exact .last hpeek hcont ‹_›

theorem step_of_stepping {reader reader' : KeyReader} {reading? : Option Reading}
    (h : Stepping reader reader' reading?) : reader.step = some (reader', reading?) := by
  cases h with
  | @ended inlet inlet' held hpeek => cases held <;> simp [step, stepFirst, stepNext, hpeek]
  | again hpeek hkind | endedEarly hpeek hkind =>
      simp [between, step, stepFirst, hpeek, hkind]
  | @failed inlet inlet' held fault hpeek hkind =>
      -- within a character no fault is forgiven
      cases held with
      | nil =>
          obtain ⟨hinterrupted, heof⟩ := hkind rfl
          simp only [step, stepFirst, hpeek]
      | cons lead later => simp [step, stepNext, hpeek]
  | stray hpeek hwidth | single hpeek hwidth => simp [between, step, stepFirst, hpeek, hwidth]
  | lead hpeek hwidth =>
      simp only [between, step, stepFirst, hpeek]
      split <;> first | rfl | simp_all
  | cut hpeek hcont => simp [step, stepNext, hpeek, hcont]
  | more hpeek hcont hwidth | last hpeek hcont hwidth =>
      simp only [step, stepNext, hpeek, hcont, Bool.not_true, Bool.false_eq_true, if_false, hwidth,
        if_true]

/-- The reader waits only where nothing is there. -/
theorem step_eq_none_iff (reader : KeyReader) :
    reader.step = none ↔ reader.inlet.peek.1 = .pending := by
  obtain ⟨inlet, held⟩ := reader
  rcases hpeek : inlet.peek with ⟨p, inlet'⟩
  constructor
  · intro h
    cases p with
    | pending => rfl
    | finished => cases held <;> simp [step, stepFirst, stepNext, hpeek] at h
    | failed fault =>
        cases held with
        | nil =>
            simp only [step, stepFirst, hpeek] at h
            split at h <;> simp at h
        | cons lead held => simp [step, stepNext, hpeek] at h
    | byte b =>
        cases held with
        | nil =>
            simp only [step, stepFirst, hpeek] at h
            split at h <;> simp at h
        | cons lead held =>
            simp only [step, stepNext, hpeek] at h
            split at h
            · simp at h
            · split at h <;> simp at h
  · rintro rfl
    cases held <;> simp [step, stepFirst, stepNext, hpeek]

/-- A step that can be made is made the same, whatever arrives later. -/
theorem step_followedBy {reader reader' : KeyReader} {reading? : Option Reading}
    (h : reader.step = some (reader', reading?)) (later : List ReadEvent) :
    (reader.followedBy later).step = some (reader'.followedBy later, reading?) := by
  refine step_of_stepping ?_
  cases stepping_of_step h with
  | ended hpeek => exact .ended (Inlet.peek_followedBy hpeek nofun later)
  | again hpeek hkind => exact .again (Inlet.peek_followedBy hpeek nofun later) hkind
  | endedEarly hpeek hkind => exact .endedEarly (Inlet.peek_followedBy hpeek nofun later) hkind
  | failed hpeek hkind => exact .failed (Inlet.peek_followedBy hpeek nofun later) hkind
  | stray hpeek hwidth => exact .stray (Inlet.peek_followedBy hpeek nofun later) hwidth
  | lead hpeek hwidth => exact .lead (Inlet.peek_followedBy hpeek nofun later) hwidth
  | cut hpeek hcont => exact .cut (Inlet.peek_followedBy hpeek nofun later) hcont
  | more hpeek hcont hwidth =>
      exact .more (Inlet.peek_followedBy hpeek nofun later) hcont hwidth
  | single hpeek hwidth =>
      have hsingle := Stepping.single (Inlet.peek_followedBy hpeek nofun later) hwidth
      rwa [Inlet.skip_followedBy, finish_followedBy] at hsingle
  | last hpeek hcont hwidth =>
      have hlast := Stepping.last (Inlet.peek_followedBy hpeek nofun later) hcont hwidth
      rwa [Inlet.skip_followedBy, finish_followedBy] at hlast

theorem effort_finish_le (inlet : Inlet) (bytes : List UInt8) :
    (finish inlet bytes).1.effort ≤ 2 * inlet.size := by
  unfold finish
  cases Utf8.decode? bytes with
  | none => exact Nat.le_refl _
  | some c =>
      show 2 * (joinLineEnd c inlet).size + 0 ≤ _
      unfold joinLineEnd
      have hskip := inlet.size_skip_le
      split <;> omega

/-- Every step leaves fewer to be made. -/
theorem effort_lt_of_step {reader reader' : KeyReader} {reading? : Option Reading}
    (h : reader.step = some (reader', reading?)) : reader'.effort < reader.effort := by
  have hevent : ∀ {inlet inlet' : Inlet} {held : List UInt8} {p : Peek},
      inlet.peek = (p, inlet') → (p = .finished ∨ ∃ fault, p = .failed fault) →
      (between inlet').effort < effort ⟨inlet, held⟩ := by
    intro inlet inlet' held p hpeek hp
    have hless := Inlet.size_of_peek_event hpeek hp
    simp only [effort, between, List.length_nil]
    omega
  have hbyte : ∀ {inlet inlet' : Inlet} {b : UInt8}, inlet.peek = (.byte b, inlet') →
      inlet'.skip.size + 1 ≤ inlet.size := by
    intro inlet inlet' b hpeek
    obtain ⟨hle, hbuffer⟩ := Inlet.size_of_peek_byte hpeek
    have hskip := Inlet.size_skip hbuffer
    omega
  cases stepping_of_step h with
  | ended hpeek => exact hevent hpeek (Or.inl rfl)
  | again hpeek _ | endedEarly hpeek _ | failed hpeek _ =>
      exact hevent hpeek (Or.inr ⟨_, rfl⟩)
  | stray hpeek _ | lead hpeek _ | more hpeek _ _ =>
      have hless := hbyte hpeek
      simp only [effort, between, List.length_nil, List.length_cons, List.length_append]
      omega
  | cut hpeek _ =>
      -- the byte stays, but those that were held do not
      have hle := (Inlet.size_of_peek_byte hpeek).1
      simp only [effort, between, List.length_nil, List.length_cons]
      omega
  | single hpeek _ | last hpeek _ _ =>
      have hless := hbyte hpeek
      refine Nat.lt_of_le_of_lt (effort_finish_le _ _) ?_
      simp only [effort, between]
      omega

/-! ## Readings -/

/-- What a reader gives in so many steps at most. -/
def decodedWithin : Nat → KeyReader → List Reading
  | 0, _ => []
  | n + 1, reader =>
    match reader.step with
    | none => []
    | some (reader, reading?) => reading?.toList ++ decodedWithin n reader

/-- What a reader gives of what has arrived. -/
def decoded (reader : KeyReader) : List Reading :=
  reader.decodedWithin reader.effort

/-- Once there are steps enough, more of them make no difference. -/
theorem decodedWithin_eq {n m : Nat} {reader : KeyReader} (hn : reader.effort ≤ n)
    (hm : reader.effort ≤ m) : decodedWithin n reader = decodedWithin m reader := by
  induction n generalizing m reader with
  | zero =>
      cases m with
      | zero => rfl
      | succ m =>
          cases hstep : reader.step with
          | none => simp [decodedWithin, hstep]
          | some next =>
              have hless := effort_lt_of_step hstep
              omega
  | succ n ih =>
      cases hstep : reader.step with
      | none => cases m <;> simp [decodedWithin, hstep]
      | some next =>
          have hless := effort_lt_of_step hstep
          cases m with
          | zero => omega
          | succ m =>
              simp only [decodedWithin, hstep]
              rw [@ih m next.1 (by omega) (by omega)]

theorem decoded_of_step {reader reader' : KeyReader} {reading? : Option Reading}
    (h : reader.step = some (reader', reading?)) :
    reader.decoded = reading?.toList ++ reader'.decoded := by
  have hless := effort_lt_of_step h
  obtain ⟨n, hn⟩ : ∃ n, reader.effort = n + 1 := ⟨reader.effort - 1, by omega⟩
  rw [decoded, hn]
  simp only [decodedWithin, h]
  rw [decodedWithin_eq (by omega) (Nat.le_refl _)]
  rfl

theorem decoded_of_waiting {reader : KeyReader} (h : reader.step = none) :
    reader.decoded = [] := by
  unfold decoded
  cases reader.effort <;> simp [decodedWithin, h]

/-! ## The end of the input -/

/-- An end that has arrived is what is next, or it is still to come. -/
theorem close_of_peek {inlet inlet' : Inlet} {p : Peek} (h : inlet.peek = (p, inlet'))
    (hclose : ReadEvent.close ∈ inlet.events) : p = .finished ∨ ReadEvent.close ∈ inlet'.events := by
  obtain ⟨buffer, events⟩ := inlet
  rcases buffer with _ | ⟨b, buffer⟩
  · rcases events with _ | ⟨event, rest⟩
    · exact absurd hclose List.not_mem_nil
    · have hmem : event ≠ .close → ReadEvent.close ∈ rest := fun hne =>
        (List.mem_cons.1 hclose).resolve_left (Ne.symm hne)
      rcases event with (_ | ⟨b, bytes⟩) | _ | fault <;>
        simp only [Inlet.peek, Inlet.refill, Prod.mk.injEq] at h <;> obtain ⟨rfl, rfl⟩ := h
      · exact Or.inl rfl
      · -- bytes that do not fit into the buffer stay in front of the others
        refine Or.inr ?_
        have hrest := hmem (by simp)
        show ReadEvent.close ∈ Inlet.leftover (b :: bytes) rest
        unfold Inlet.leftover
        split
        · exact hrest
        · exact List.mem_cons_of_mem _ hrest
      · exact Or.inl rfl
      · exact Or.inr (hmem (by simp))
  · simp only [Inlet.peek, Prod.mk.injEq] at h
    exact Or.inr (h.2 ▸ hclose)

@[simp] theorem events_finish (inlet : Inlet) (bytes : List UInt8) :
    (finish inlet bytes).1.inlet.events = inlet.events := by
  unfold finish
  cases Utf8.decode? bytes with
  | none => rfl
  | some c =>
      show (joinLineEnd c inlet).events = _
      unfold joinLineEnd
      split <;> rfl

theorem close_of_step {reader reader' : KeyReader} {reading? : Option Reading}
    (h : reader.step = some (reader', reading?)) (hclose : ReadEvent.close ∈ reader.inlet.events) :
    reading? = some .closed ∨ ReadEvent.close ∈ reader'.inlet.events := by
  cases stepping_of_step h with
  | ended hpeek | endedEarly hpeek _ => exact Or.inl rfl
  | again hpeek _ | failed hpeek _ | stray hpeek _ | lead hpeek _ | cut hpeek _ | more hpeek _ _ =>
      exact Or.inr ((close_of_peek hpeek hclose).resolve_left nofun)
  | single hpeek _ | last hpeek _ _ =>
      rw [events_finish]
      exact Or.inr ((close_of_peek hpeek hclose).resolve_left nofun)

/-- If the end of the input has arrived, it will be read. -/
theorem closed_mem_decoded {reader : KeyReader} (h : ReadEvent.close ∈ reader.inlet.events) :
    Reading.closed ∈ reader.decoded := by
  -- by the number of steps that are left
  induction hn : reader.effort using Nat.strongRecOn generalizing reader with
  | _ n ih =>
      cases hstep : reader.step with
      | none =>
          have hnothing := (Inlet.peek_eq_pending_iff _).1 ((step_eq_none_iff reader).1 hstep)
          simp [hnothing.2] at h
      | some next =>
          obtain ⟨reader', reading?⟩ := next
          have hless := effort_lt_of_step hstep
          rw [decoded_of_step hstep]
          rcases close_of_step hstep h with rfl | hmem
          · simp
          · exact List.mem_append_right _ (ih _ (by omega) hmem rfl)

/-- An end behind everything else stays there until nothing is left. -/
theorem getLast?_events_of_peek {inlet inlet' : Inlet} {p : Peek} (h : inlet.peek = (p, inlet'))
    (hlast : inlet.events.getLast? = some .close) :
    p = .finished ∧ inlet' = ⟨[], []⟩ ∨ inlet'.events.getLast? = some .close := by
  obtain ⟨buffer, events⟩ := inlet
  rcases buffer with _ | ⟨b, buffer⟩
  · rcases events with _ | ⟨event, _ | ⟨next, rest⟩⟩
    · exact absurd hlast (by simp)
    · obtain rfl : event = .close := by simpa using hlast
      obtain ⟨rfl, rfl⟩ := Prod.mk.inj h
      exact Or.inl ⟨rfl, rfl⟩
    · rw [List.getLast?_cons_cons] at hlast
      refine Or.inr ?_
      rcases event with (_ | ⟨b, bytes⟩) | _ | fault <;>
        simp only [Inlet.peek, Inlet.refill, Prod.mk.injEq] at h <;> obtain ⟨-, rfl⟩ := h <;>
        try exact hlast
      show (Inlet.leftover (b :: bytes) (next :: rest)).getLast? = _
      unfold Inlet.leftover
      split
      · exact hlast
      · rw [List.getLast?_cons_cons, hlast]
  · simp only [Inlet.peek, Prod.mk.injEq] at h
    exact Or.inr (h.2 ▸ hlast)

theorem getLast?_events_of_waiting {reader : KeyReader} (h : reader.step = none) :
    reader.inlet.events.getLast? ≠ some .close := by
  have hnothing := (Inlet.peek_eq_pending_iff _).1 ((step_eq_none_iff reader).1 h)
  simp [hnothing.2]

theorem getLast?_events_of_step {reader reader' : KeyReader} {reading? : Option Reading}
    (h : reader.step = some (reader', reading?))
    (hlast : reader.inlet.events.getLast? = some .close) :
    reading? = some .closed ∧ reader'.inlet.isEmpty = true
      ∨ reader'.inlet.events.getLast? = some .close := by
  cases stepping_of_step h with
  | ended hpeek =>
      refine (getLast?_events_of_peek hpeek hlast).imp ?_ id
      rintro ⟨-, rfl⟩
      exact ⟨rfl, rfl⟩
  | endedEarly hpeek _ | again hpeek _ | failed hpeek _ | stray hpeek _ | lead hpeek _
  | cut hpeek _ | more hpeek _ _ =>
      exact Or.inr ((getLast?_events_of_peek hpeek hlast).resolve_left (by simp))
  | single hpeek _ | last hpeek _ _ =>
      rw [events_finish]
      exact Or.inr ((getLast?_events_of_peek hpeek hlast).resolve_left (by simp))

/-- If the end is what arrived last, a reader gives nothing but what it makes of what arrived. -/
theorem readings_eq_decoded {reader : KeyReader}
    (hlast : reader.inlet.events.getLast? = some .close) : reader.readings = reader.decoded := by
  suffices hwithin : ∀ n, reader.effort ≤ n → readingsWithin n reader = decodedWithin n reader from
    hwithin _ (Nat.le_refl _)
  intro n hn
  induction n generalizing reader with
  | zero =>
      cases hstep : reader.step with
      | none => exact absurd hlast (getLast?_events_of_waiting hstep)
      | some next => exact absurd (effort_lt_of_step hstep) (by omega)
  | succ n ih =>
      cases hstep : reader.step with
      | none => exact absurd hlast (getLast?_events_of_waiting hstep)
      | some next =>
          obtain ⟨reader', reading?⟩ := next
          have hless := effort_lt_of_step hstep
          have hnext := getLast?_events_of_step hstep hlast
          simp only [readingsWithin, decodedWithin, hstep]
          cases reading? with
          | none => exact ih (hnext.resolve_left (by simp)) (by omega)
          | some reading =>
              dsimp only
              split
              · rename_i hend
                obtain ⟨rfl, hempty⟩ := hend
                have hwaiting : reader'.step = none := by
                  refine (step_eq_none_iff reader').2 ((Inlet.peek_eq_pending_iff _).2 ?_)
                  simpa [Inlet.isEmpty] using hempty
                have hnothing : decodedWithin n reader' = [] := by
                  cases n <;> simp [decodedWithin, hwaiting]
                rw [hnothing]
                rfl
              · rename_i hgoes
                have hlast' := hnext.resolve_left fun hthis =>
                  hgoes ⟨Option.some.inj hthis.1, hthis.2⟩
                exact congrArg _ (ih hlast' (by omega))

end KeyReader

end LineChat
