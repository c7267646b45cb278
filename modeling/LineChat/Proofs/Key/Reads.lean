import LineChat.Proofs.Key.Decoding

set_option autoImplicit false

/-! # Reads

Bytes that arrive together are read together, as many at a time as fit into the buffer. What becomes
of a line feed behind a carriage return is settled within a read, so from the reads one can tell
which bytes the reader takes one after the other (`Inlet.folded`). -/

namespace LineChat

/-! ## Leaving out -/

/-- What is left of a list if some of what directly follows the one thing is left out, where it is
    the other. -/
inductive Folded {α : Type} (first second : α) : List α → List α → Prop
  | nil : Folded first second [] []
  | keep {kept all : List α} (a : α) (h : Folded first second kept all) :
    Folded first second (a :: kept) (a :: all)
  | fold {kept all : List α} (h : Folded first second kept all) :
    Folded first second (first :: kept) (first :: second :: all)

section

variable {α : Type} {first second : α} {kept all : List α}

theorem Folded.append {kept' all' : List α} (h : Folded first second kept all)
    (h' : Folded first second kept' all') :
    Folded first second (kept ++ kept') (all ++ all') := by
  induction h with
  | nil => exact h'
  | keep a _ ih => exact .keep a ih
  | fold _ ih => exact .fold ih

theorem Folded.sublist (h : Folded first second kept all) : List.Sublist kept all := by
  induction h with
  | nil => exact .slnil
  | keep a _ ih => exact ih.cons_cons a
  | fold _ ih => exact (ih.cons second).cons_cons first

/-- If the one thing was not kept, nothing was left out. -/
theorem Folded.eq_of_notMem (h : Folded first second kept all) (hnot : first ∉ kept) :
    kept = all := by
  induction h with
  | nil => rfl
  | keep a _ ih => rw [ih fun hmem => hnot (List.mem_cons_of_mem _ hmem)]
  | fold _ _ => exact absurd List.mem_cons_self hnot

/-- What comes first stays. -/
theorem Folded.head?_eq (h : Folded first second kept all) : kept.head? = all.head? := by
  cases h <;> rfl

/-- Where the one thing does not occur, nothing is left out. -/
theorem Folded.of_notMem {others : List α} (h : Folded first second kept (others ++ all))
    (hnot : first ∉ others) :
    ∃ kept', kept = others ++ kept' ∧ Folded first second kept' all := by
  induction others generalizing kept with
  | nil => exact ⟨kept, rfl, h⟩
  | cons a others ih =>
      rw [List.mem_cons, not_or] at hnot
      obtain ⟨hne, hothers⟩ := hnot
      rw [List.cons_append] at h
      generalize hall : a :: (others ++ all) = whole at h
      cases h with
      | nil => exact absurd hall (List.cons_ne_nil _ _)
      | keep b h =>
          obtain ⟨rfl, rfl⟩ := List.cons.inj hall
          obtain ⟨kept', rfl, hkept'⟩ := ih h hothers
          exact ⟨kept', rfl, hkept'⟩
      | fold h => exact absurd (List.cons.inj hall).1.symm hne

end

namespace Inlet

/-! ## What is read at a time -/

/-- The reads that take bytes which arrived together. -/
def cutUp : List UInt8 → List (List UInt8)
  | [] => []
  | b :: bytes => (b :: bytes).take bufferSize :: cutUp ((b :: bytes).drop bufferSize)
termination_by bytes => bytes.length
decreasing_by
  simp only [List.length_drop, List.length_cons, bufferSize]
  omega

/-- The reads that take bytes which arrived in these chunks. -/
def reads (chunks : List (List UInt8)) : List (List UInt8) :=
  chunks.flatMap cutUp

@[simp] theorem cutUp_nil : cutUp [] = [] := by
  rw [cutUp]

/-- Few bytes are read at once. -/
theorem cutUp_of_length_le {bytes : List UInt8} (hne : bytes ≠ []) (h : bytes.length ≤ bufferSize) :
    cutUp bytes = [bytes] := by
  obtain ⟨b, later, rfl⟩ := List.exists_cons_of_ne_nil hne
  rw [cutUp, List.take_of_length_le h, List.drop_of_length_le h, cutUp_nil]

/-- Reading neither loses nor adds a byte. -/
theorem flatten_cutUp (bytes : List UInt8) : (cutUp bytes).flatten = bytes := by
  induction bytes using cutUp.induct with
  | case1 => rw [cutUp_nil, List.flatten_nil]
  | case2 b bytes ih => rw [cutUp, List.flatten_cons, ih, List.take_append_drop]

theorem reads_cons (chunk : List UInt8) (chunks : List (List UInt8)) :
    reads (chunk :: chunks) = cutUp chunk ++ reads chunks :=
  List.flatMap_cons

/-- Chunks that are not too long are read as they are. -/
theorem reads_of_length_le {chunks : List (List UInt8)}
    (h : ∀ chunk ∈ chunks, chunk ≠ [] ∧ chunk.length ≤ bufferSize) : reads chunks = chunks := by
  induction chunks with
  | nil => rfl
  | cons chunk chunks ih =>
      obtain ⟨⟨hne, hlength⟩, hchunks⟩ := List.forall_mem_cons.1 h
      rw [reads_cons, cutUp_of_length_le hne hlength, ih hchunks, List.singleton_append]

theorem length_le_of_mem_cutUp {bytes read : List UInt8} (h : read ∈ cutUp bytes) :
    read.length ≤ bufferSize := by
  induction bytes using cutUp.induct with
  | case1 => simp at h
  | case2 b bytes ih =>
      rw [cutUp, List.mem_cons] at h
      rcases h with rfl | h
      · exact List.length_take_le _ _
      · exact ih h

/-- No read takes more than fits into the buffer. -/
theorem length_le_of_mem_reads {chunks : List (List UInt8)} {read : List UInt8}
    (h : read ∈ reads chunks) : read.length ≤ bufferSize := by
  obtain ⟨chunk, -, hmem⟩ := List.mem_flatMap.1 h
  exact length_le_of_mem_cutUp hmem

/-- A chunk without bytes is not read. -/
theorem reads_filter (chunks : List (List UInt8)) :
    reads (chunks.filter fun chunk => !chunk.isEmpty) = reads chunks := by
  induction chunks with
  | nil => rfl
  | cons chunk chunks ih =>
      cases chunk with
      | nil => rw [List.filter_cons_of_neg (by simp), ih, reads_cons, cutUp_nil, List.nil_append]
      | cons b chunk => rw [List.filter_cons_of_pos (by simp), reads_cons, ih, reads_cons]

theorem reads_append (chunks chunks' : List (List UInt8)) :
    reads (chunks ++ chunks') = reads chunks ++ reads chunks' :=
  List.flatMap_append

theorem flatten_reads (chunks : List (List UInt8)) : (reads chunks).flatten = chunks.flatten := by
  induction chunks with
  | nil => rfl
  | cons chunk chunks ih =>
      rw [reads_cons, List.flatten_append, flatten_cutUp, ih, List.flatten_cons]

/-! ## Line ends -/

/-- The bytes of a read but for each line feed that directly follows a carriage return. The flag
    says whether what comes first follows one. -/
def foldLineEnds (returned : Bool) : List UInt8 → List UInt8
  | [] => []
  | b :: bytes =>
    if returned && b == 0x0A then foldLineEnds false bytes
    else b :: foldLineEnds (b == 0x0D) bytes

/-- The bytes that the reader takes one after the other. -/
def folded (reads : List (List UInt8)) : List UInt8 :=
  reads.flatMap (foldLineEnds false)

theorem foldLineEnds_of_kept {returned : Bool} {b : UInt8} (h : (returned && b == 0x0A) = false)
    (bytes : List UInt8) :
    foldLineEnds returned (b :: bytes) = b :: foldLineEnds (b == 0x0D) bytes := by
  rw [foldLineEnds, h, if_neg Bool.false_ne_true]

theorem folded_cons (read : List UInt8) (reads : List (List UInt8)) :
    folded (read :: reads) = foldLineEnds false read ++ folded reads :=
  List.flatMap_cons

theorem folded_singleton (read : List UInt8) : folded [read] = foldLineEnds false read :=
  List.append_nil _

theorem folded_append (reads reads' : List (List UInt8)) :
    folded (reads ++ reads') = folded reads ++ folded reads' :=
  List.flatMap_append

/-- Chunks that fit into the buffer are read one by one, those apart that have no bytes. -/
theorem folded_reads {chunks : List (List UInt8)}
    (h : ∀ chunk ∈ chunks, chunk.length ≤ bufferSize) : folded (reads chunks) = folded chunks := by
  induction chunks with
  | nil => rfl
  | cons chunk chunks ih =>
      obtain ⟨hlength, hchunks⟩ := List.forall_mem_cons.1 h
      rw [reads_cons, folded_append, ih hchunks, ← List.singleton_append, folded_append]
      cases chunk with
      | nil => rw [cutUp_nil]; rfl
      | cons b chunk => rw [cutUp_of_length_le (List.cons_ne_nil _ _) hlength]

/-- A byte that is no line feed behind a carriage return stays, and which of the bytes behind it do
    depends on nothing before it. -/
theorem foldLineEnds_append_cons {returned : Bool} {before : List UInt8} {b : UInt8}
    (h : b = 0x0A → before.getLast?.elim returned (· == 0x0D) = false) (after : List UInt8) :
    foldLineEnds returned (before ++ b :: after)
      = foldLineEnds returned before ++ b :: foldLineEnds (b == 0x0D) after := by
  induction before generalizing returned with
  | nil =>
      refine foldLineEnds_of_kept ?_ after
      by_cases hb : b = 0x0A
      · rw [show returned = false from h hb, Bool.false_and]
      · rw [beq_false_of_ne hb, Bool.and_false]
  | cons c before ih =>
      -- the byte before is the last one of the rest, or else the first one
      have hrest : b = 0x0A → before.getLast?.elim (c == 0x0D) (· == 0x0D) = false := by
        intro hb
        have hlast := h hb
        rw [List.getLast?_cons] at hlast
        cases hbefore : before.getLast? with
        | none | some d => rwa [hbefore] at hlast
      cases hkept : returned && c == 0x0A with
      | false =>
          rw [List.cons_append, foldLineEnds_of_kept hkept, foldLineEnds_of_kept hkept, ih hrest]
          rfl
      | true =>
          obtain ⟨rfl, hc⟩ := Bool.and_eq_true_iff.1 hkept
          obtain rfl := eq_of_beq hc
          exact ih hrest

/-- Behind a carriage return a line feed is skipped, if it is what comes first. -/
theorem foldLineEnds_true (bytes : List UInt8) :
    foldLineEnds true bytes
      = foldLineEnds false (if bytes.head? = some 0x0A then bytes.tail else bytes) := by
  cases bytes with
  | nil => rfl
  | cons b bytes =>
      by_cases hb : b = 0x0A
      · subst hb
        rfl
      · simp [foldLineEnds, hb]

/-- Line feeds are left out behind carriage returns, and nothing else. -/
theorem folded_foldLineEnds (bytes : List UInt8) :
    Folded 0x0D 0x0A (foldLineEnds false bytes) bytes
      ∧ Folded 0x0D 0x0A (0x0D :: foldLineEnds true bytes) (0x0D :: bytes) := by
  induction bytes with
  | nil => exact ⟨.nil, .keep _ .nil⟩
  | cons b bytes ih =>
      obtain ⟨hother, hreturn⟩ := ih
      have hkept : Folded 0x0D 0x0A (b :: foldLineEnds (b == 0x0D) bytes) (b :: bytes) := by
        by_cases hb : b = 0x0D
        · subst hb
          exact hreturn
        · rw [beq_false_of_ne hb]
          exact .keep b hother
      refine ⟨hkept, ?_⟩
      by_cases hb : b = 0x0A
      · subst hb
        exact .fold hother
      · rw [foldLineEnds_of_kept (by rw [beq_false_of_ne hb, Bool.and_false])]
        exact .keep _ hkept

theorem folded_flatten (reads : List (List UInt8)) :
    Folded 0x0D 0x0A (folded reads) reads.flatten := by
  induction reads with
  | nil => exact .nil
  | cons read reads ih =>
      rw [folded_cons, List.flatten_cons]
      exact (folded_foldLineEnds read).1.append ih

/-! ## What is to come -/

/-- These reads are to come, and then the end. -/
def Offers (inlet : Inlet) (coming : List (List UInt8)) : Prop :=
  ∃ chunks : List (List UInt8), [] ∉ chunks ∧ inlet.events = chunks.map .data ++ [.close]
    ∧ reads chunks = coming

variable {inlet : Inlet} {bytes : List UInt8} {coming : List (List UInt8)}

/-- The next look finds the end if nothing is left, or else the first byte of what is in the buffer,
    into which the next read is taken if it is empty. -/
theorem Offers.peek (h : inlet.Offers coming) :
    (inlet.buffer = [] ∧ coming = [] ∧ inlet.peek = (.finished, ⟨[], []⟩))
      ∨ ∃ b later inlet' coming', inlet.peek = (.byte b, inlet') ∧ inlet'.buffer = b :: later
          ∧ inlet'.Offers coming'
          ∧ ∀ f : List UInt8 → List UInt8, f [] = [] →
              (inlet'.buffer :: coming').flatMap f = (inlet.buffer :: coming).flatMap f := by
  obtain ⟨buffer, events⟩ := inlet
  cases buffer with
  | cons b later => exact Or.inr ⟨b, later, _, coming, rfl, rfl, h, fun _ _ => rfl⟩
  | nil =>
      obtain ⟨chunks, hne, rfl, rfl⟩ := h
      rcases chunks with _ | ⟨_ | ⟨b, chunk⟩, chunks⟩
      · exact Or.inl ⟨rfl, rfl, rfl⟩
      · exact absurd List.mem_cons_self hne
      · have hrest : [] ∉ chunks := fun hmem => hne (List.mem_cons_of_mem _ hmem)
        refine Or.inr ⟨b, _, _, cutUp ((b :: chunk).drop bufferSize) ++ reads chunks, rfl, rfl,
          ?_, ?_⟩
        · show Offers ⟨_, leftover (b :: chunk) (chunks.map .data ++ [.close])⟩ _
          unfold leftover
          split
          · rename_i hfits
            refine ⟨chunks, hrest, rfl, ?_⟩
            rw [List.drop_of_length_le hfits, cutUp_nil, List.nil_append]
          · rename_i hlong
            refine ⟨(b :: chunk).drop bufferSize :: chunks, ?_, rfl, rfl⟩
            rw [List.mem_cons, not_or]
            exact ⟨fun hnil => hlong (List.drop_eq_nil_iff.1 hnil.symm), hrest⟩
        · intro f hf
          have hempty : ∀ reads, ([] :: reads).flatMap f = reads.flatMap f := by
            intro reads
            rw [List.flatMap_cons, hf, List.nil_append]
          rw [hempty, reads_cons, cutUp]
          rfl

/-- The reader takes these bytes one after the other, and then comes the end. -/
def Brings (inlet : Inlet) (bytes : List UInt8) : Prop :=
  ∃ coming, inlet.Offers coming ∧ folded (inlet.buffer :: coming) = bytes

theorem brings_ofEvents {chunks : List (List UInt8)} (h : [] ∉ chunks) :
    (ofEvents (chunks.map .data ++ [.close])).Brings (folded (reads chunks)) :=
  ⟨reads chunks, ⟨chunks, h, rfl, rfl⟩, rfl⟩

/-- When the last byte has been taken, the end comes. -/
theorem Brings.peek_nil (h : inlet.Brings []) : inlet.peek = (.finished, ⟨[], []⟩) := by
  obtain ⟨coming, hoffers, hbytes⟩ := h
  rcases hoffers.peek with ⟨-, -, hpeek⟩ | ⟨b, later, inlet', coming', -, hbuffer, -, hsame⟩
  · exact hpeek
  · have hthis := (hsame (foldLineEnds false) rfl).trans hbytes
    rw [hbuffer] at hthis
    exact absurd hthis (List.cons_ne_nil _ _)

/-- The inlet when a byte has been used up. A line feed goes with a carriage return. -/
def pass (b : UInt8) (inlet : Inlet) : Inlet :=
  if b = 0x0D then KeyReader.joinLineEnd '\r' inlet.skip else inlet.skip

theorem pass_of_ne {b : UInt8} (h : b ≠ 0x0D) (inlet : Inlet) : inlet.pass b = inlet.skip :=
  if_neg h

theorem Offers.pass (h : inlet.Offers coming) (b : UInt8) : (inlet.pass b).Offers coming := by
  unfold Inlet.pass KeyReader.joinLineEnd
  split
  · split <;> exact h
  · exact h

theorem foldLineEnds_pass {b : UInt8} {later : List UInt8} (h : inlet.buffer = b :: later) :
    foldLineEnds false (inlet.pass b).buffer = foldLineEnds (b == 0x0D) later := by
  by_cases hb : b = 0x0D
  · subst hb
    simp only [pass, KeyReader.joinLineEnd, skip, h, true_and, List.tail_cons, if_true,
      beq_self_eq_true, foldLineEnds_true]
    split <;> rfl
  · rw [pass_of_ne hb, skip, h, beq_false_of_ne hb]
    rfl

/-- The first byte is what is next. Once it is used up, those behind it are to be taken. -/
theorem Brings.peek_cons {b : UInt8} (h : inlet.Brings (b :: bytes)) :
    ∃ inlet', inlet.peek = (.byte b, inlet') ∧ inlet'.Brings (b :: bytes)
      ∧ (inlet'.pass b).Brings bytes := by
  obtain ⟨coming, hoffers, hbytes⟩ := h
  rcases hoffers.peek with
    ⟨hbuffer, rfl, -⟩ | ⟨c, later, inlet', coming', hpeek, hbuffer, hcoming, hsame⟩
  · rw [hbuffer] at hbytes
    exact absurd hbytes.symm (List.cons_ne_nil _ _)
  · have hthis : folded (inlet'.buffer :: coming') = b :: bytes :=
      (hsame (foldLineEnds false) rfl).trans hbytes
    have hsplit := hthis
    rw [folded_cons, hbuffer, foldLineEnds_of_kept (Bool.false_and _), List.cons_append] at hsplit
    obtain ⟨rfl, hrest⟩ := List.cons.inj hsplit
    refine ⟨inlet', hpeek, ⟨coming', hcoming, hthis⟩, coming', hcoming.pass c, ?_⟩
    rw [folded_cons, foldLineEnds_pass hbuffer, hrest]

end Inlet

end LineChat
