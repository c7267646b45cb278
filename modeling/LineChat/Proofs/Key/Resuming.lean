import LineChat.Proofs.Key.Spelling

set_option autoImplicit false

/-! # Where reading resumes

A byte that continues nothing is where the next character starts, whatever came before it. So the
keys of what comes from there on are the same as if nothing had come before (`Key.Spelled.append`),
and a byte that is a character of its own is never lost. -/

namespace LineChat

/-- The key that is given, if it is one. -/
def Reading.key? : Reading → Option Key
  | .key given => some given
  | .closed | .failed _ => none

/-! ## Ending within a character -/

namespace Utf8

/-- Whether bytes end within a character: after the last of them that continues nothing, fewer bytes
    come than it asks for. -/
def isOpen : List UInt8 → Bool
  | [] => false
  | b :: bytes =>
    if bytes.all isContinuation then decide (bytes.length + 1 < width b) else isOpen bytes

theorem isOpen_of_continues {bytes : List UInt8} (h : ∀ b ∈ bytes, isContinuation b = true) :
    isOpen bytes = false := by
  cases bytes with
  | nil => rfl
  | cons b bytes =>
      obtain ⟨hb, hbytes⟩ := List.forall_mem_cons.1 h
      rw [isOpen, if_pos (List.all_eq_true.2 hbytes), width_of_isContinuation hb]
      exact decide_eq_false (Nat.not_lt_zero _)

/-- A byte that asks for no others leaves nothing open. -/
theorem isOpen_cons_of_width_le {b : UInt8} (h : width b ≤ 1) (bytes : List UInt8) :
    isOpen (b :: bytes) = isOpen bytes := by
  rw [isOpen]
  split
  · rename_i hall
    rw [isOpen_of_continues (List.all_eq_true.1 hall)]
    exact decide_eq_false (by omega)
  · rfl

theorem isOpen_append_of_continues {later : List UInt8} (h : ∀ b ∈ later, isContinuation b = true)
    (rest : List UInt8) : isOpen (later ++ rest) = isOpen rest := by
  induction later with
  | nil => rfl
  | cons b later ih =>
      obtain ⟨hb, hlater⟩ := List.forall_mem_cons.1 h
      have hwidth : width b ≤ 1 := by
        rw [width_of_isContinuation hb]
        exact Nat.zero_le 1
      rw [List.cons_append, isOpen_cons_of_width_le hwidth, ih hlater]

/-- A character that is complete leaves nothing open. -/
theorem Shaped.isOpen_append {lead : UInt8} {later : List UInt8} (h : Shaped lead later)
    (rest : List UInt8) : isOpen (lead :: later ++ rest) = isOpen rest := by
  rw [List.cons_append, isOpen]
  split
  · rename_i hall
    have hrest := (List.forall_mem_append.1 (List.all_eq_true.1 hall)).2
    rw [isOpen_of_continues hrest, h.width, List.length_append]
    exact decide_eq_false (by omega)
  · exact isOpen_append_of_continues h.continues rest

theorem Short.isOpen {lead : UInt8} {later : List UInt8} (h : Short lead later) :
    isOpen (lead :: later) = true := by
  rw [Utf8.isOpen, if_pos (List.all_eq_true.2 h.continues)]
  exact decide_eq_true h.width

/-- Before a byte that continues nothing, nothing stays open. -/
theorem isOpen_append_cons {b : UInt8} (hb : isContinuation b = false) (bytes rest : List UInt8) :
    isOpen (bytes ++ b :: rest) = isOpen (b :: rest) := by
  induction bytes with
  | nil => rfl
  | cons c bytes ih =>
      have hall : (bytes ++ b :: rest).all isContinuation = false := by
        simp [hb]
      rw [List.cons_append, isOpen, hall, if_neg Bool.false_ne_true, ih]

/-- To leave out line feeds behind carriage returns opens and closes nothing. -/
theorem isOpen_of_folded {kept all : List UInt8} (h : Folded 0x0D 0x0A kept all) :
    isOpen kept = isOpen all := by
  induction h with
  | nil => rfl
  | @keep kept all b h ih =>
      cases hkept : kept.all isContinuation with
      | true =>
          -- without a carriage return nothing is left out
          have hreturn : 0x0D ∉ kept := fun hmem =>
            absurd (List.all_eq_true.1 hkept _ hmem) (by decide)
          rw [h.eq_of_notMem hreturn]
      | false =>
          have hall : all.all isContinuation = false := by
            rw [Bool.eq_false_iff] at hkept ⊢
            exact fun hall => hkept (List.all_eq_true.2 fun c hc =>
              List.all_eq_true.1 hall c (h.sublist.subset hc))
          rw [isOpen, isOpen, hkept, hall, if_neg Bool.false_ne_true, if_neg Bool.false_ne_true, ih]
  | @fold kept all h ih =>
      rw [isOpen_cons_of_width_le (by decide), isOpen_cons_of_width_le (by decide),
        isOpen_cons_of_width_le (by decide), ih]

end Utf8

/-! ## One after the other -/

namespace Key

open Utf8

/-- What comes after some bytes and starts with one that continues nothing is read as if they had
    not come. They are read as if it did not come, except that it ends a character that they leave
    open. -/
theorem Spelled.append {bytes rest : List UInt8} {b : UInt8} {keys keys' : List Key}
    (h : Spelled bytes keys) (hb : isContinuation b = false) (h' : Spelled (b :: rest) keys') :
    Spelled (bytes ++ b :: rest)
      (keys ++ (if isOpen bytes then [ignored] else []) ++ keys') := by
  -- by the characters of what comes before; only one that the end cuts off meets the byte
  induction h with
  | nil => exact h'
  | stray hwidth h ih =>
      rw [isOpen_cons_of_width_le (by omega)]
      exact .stray hwidth ih
  | whole hshaped hkey h ih =>
      rw [hshaped.isOpen_append, List.append_assoc]
      exact .whole hshaped hkey ih
  | cut hshort hcont h ih =>
      rw [isOpen_append_cons hcont, List.append_assoc]
      exact .cut hshort hcont ih
  | ended hshort =>
      rw [hshort.isOpen]
      exact .cut hshort hb h'

/-- A byte below `0x80` is the key of its character. -/
theorem Spelled.cons {b : UInt8} {rest : List UInt8} {keys : List Key} (hb : b.toNat < 0x80)
    (h : Spelled rest keys) : Spelled (b :: rest) (classify (Char.ofNat b.toNat) :: keys) := by
  have hshaped : Shaped b [] := ⟨by have := width_cases b; simp; omega, by simp⟩
  have hc : (Char.ofNat b.toNat).toNat = b.toNat := by
    have hvalid : b.toNat.isValidChar := Or.inl (by omega)
    rw [← scalar?_eq_some_iff, scalar?, dif_pos hvalid, Char.ofNat, dif_pos hvalid]
  refine .whole hshaped (.char _ ?_) h
  rw [← spread_iff, hc]
  exact .one hb rfl

end Key

namespace KeyReader

open Inlet

/-- The keys of what arrives in chunks, up to the end that follows. A chunk without bytes does not
    arrive. -/
def keysOf (chunks : List (List UInt8)) : List Key :=
  (ofChunks (chunks.filter fun chunk => !chunk.isEmpty)).readings.filterMap Reading.key?

theorem keysOf_of_spelled {chunks : List (List UInt8)} {keys : List Key}
    (h : Key.Spelled (folded (reads chunks)) keys) : keysOf chunks = keys := by
  have hne : [] ∉ chunks.filter fun chunk => !chunk.isEmpty := by
    simp
  rw [← reads_filter] at h
  rw [keysOf, readings_of_spelled hne h, List.filterMap_append, List.filterMap_map]
  have hkey : Reading.key? ∘ Reading.key = some := rfl
  rw [hkey, List.filterMap_some]
  exact List.append_nil keys

theorem spelled_keysOf (chunks : List (List UInt8)) :
    Key.Spelled (folded (reads chunks)) (keysOf chunks) := by
  obtain ⟨keys, hkeys⟩ := Key.exists_spelled (folded (reads chunks))
  rwa [keysOf_of_spelled hkeys]

/-- Behind some chunks the others give the keys that they give by themselves, if they start with a
    byte that continues nothing. -/
theorem keysOf_append {chunks chunks' : List (List UInt8)} {b : UInt8} {rest : List UInt8}
    (hstart : chunks'.flatten = b :: rest) (hb : Utf8.isContinuation b = false) :
    keysOf (chunks ++ chunks')
      = keysOf chunks ++ (if Utf8.isOpen chunks.flatten then [.ignored] else [])
        ++ keysOf chunks' := by
  have hopen := Utf8.isOpen_of_folded (folded_flatten (reads chunks))
  have hfolded := folded_flatten (reads chunks')
  have hspelled := spelled_keysOf chunks'
  rw [flatten_reads] at hopen
  rw [flatten_reads, hstart] at hfolded
  obtain ⟨rest', hrest⟩ := List.head?_eq_some_iff.1 hfolded.head?_eq
  apply keysOf_of_spelled
  rw [reads_append, folded_append, ← hopen]
  rw [hrest] at hspelled ⊢
  exact (spelled_keysOf chunks).append hb hspelled

/-- Within a read a byte below `0x80` gives its key. What comes before it and behind it gives the
    keys that it gives by itself. -/
theorem keysOf_of_split {chunks before after : List (List UInt8)} {x y : List UInt8} {b : UInt8}
    (hsplit : reads chunks = before ++ (x ++ b :: y) :: after) (hb : b.toNat < 0x80)
    (hfold : ¬ (b = 0x0A ∧ x.getLast? = some 0x0D)) :
    keysOf chunks
      = keysOf (before ++ [x])
        ++ (if Utf8.isOpen (before ++ [x]).flatten then [.ignored] else [])
        ++ Key.classify (Char.ofNat b.toNat)
          :: keysOf ((if b = 0x0D ∧ y.head? = some 0x0A then y.tail else y) :: after) := by
  have hfits : ∀ read ∈ before ++ (x ++ b :: y) :: after, read.length ≤ bufferSize := by
    rw [← hsplit]
    exact fun read => length_le_of_mem_reads
  obtain ⟨hbefore, hread⟩ := List.forall_mem_append.1 hfits
  obtain ⟨hthis, hafter⟩ := List.forall_mem_cons.1 hread
  rw [List.length_append, List.length_cons] at hthis
  generalize hy' : (if b = 0x0D ∧ y.head? = some 0x0A then y.tail else y) = y'
  have hlength : y'.length ≤ y.length := by
    rw [← hy']
    split
    · rw [List.length_tail]
      exact Nat.sub_le _ _
    · exact Nat.le_refl _
  have hreturn : foldLineEnds (b == 0x0D) y = foldLineEnds false y' := by
    by_cases hcr : b = 0x0D
    · rw [hcr, beq_self_eq_true, foldLineEnds_true, ← hy']
      simp only [hcr, true_and]
    · rw [beq_false_of_ne hcr, ← hy', if_neg fun h => hcr h.1]
  have hfirst : folded (reads (before ++ [x])) = folded before ++ foldLineEnds false x := by
    rw [folded_reads, folded_append, folded_singleton]
    intro read hmem
    rcases List.mem_append.1 hmem with hmem | hmem
    · exact hbefore read hmem
    · rw [List.mem_singleton.1 hmem]
      omega
  have hlast : folded (reads (y' :: after)) = foldLineEnds false y' ++ folded after := by
    rw [folded_reads, folded_cons]
    exact List.forall_mem_cons.2 ⟨by omega, hafter⟩
  have hkept : b = 0x0A → x.getLast?.elim false (· == 0x0D) = false := by
    intro hlf
    cases hx : x.getLast? with
    | none => rfl
    | some c => exact beq_false_of_ne fun hc => hfold ⟨hlf, hc ▸ hx⟩
  have hopen := Utf8.isOpen_of_folded (folded_flatten (reads (before ++ [x])))
  rw [flatten_reads] at hopen
  apply keysOf_of_spelled
  rw [← hopen, hsplit, folded_append, folded_cons, foldLineEnds_append_cons hkept, hreturn,
    List.append_assoc, List.cons_append, ← hlast, ← List.append_assoc, ← hfirst]
  exact (spelled_keysOf _).append (Utf8.isContinuation_of_lt hb) (.cons hb (spelled_keysOf _))

/-- Reading resumes at every byte that continues nothing. Between two reads the keys before it and
    from it on are those of the reads on either side, except that it ends a character that was left
    open. Within a read the same is so for every byte that is a character of its own, unless it is a
    line feed that goes with the carriage return before it: the byte gives its key, and what comes
    behind it gives the keys that it would give by itself. -/
theorem keysOf_resume :
    (∀ (chunks chunks' : List (List UInt8)) (b : UInt8) (rest : List UInt8),
        chunks'.flatten = b :: rest → Utf8.isContinuation b = false →
        keysOf (chunks ++ chunks')
          = keysOf chunks ++ (if Utf8.isOpen chunks.flatten then [.ignored] else [])
            ++ keysOf chunks')
      ∧ ∀ (chunks before after : List (List UInt8)) (x y : List UInt8) (b : UInt8),
        reads chunks = before ++ (x ++ b :: y) :: after → b.toNat < 0x80 →
        ¬ (b = 0x0A ∧ x.getLast? = some 0x0D) →
        keysOf chunks
          = keysOf (before ++ [x])
            ++ (if Utf8.isOpen (before ++ [x]).flatten then [.ignored] else [])
            ++ Key.classify (Char.ofNat b.toNat)
              :: keysOf ((if b = 0x0D ∧ y.head? = some 0x0A then y.tail else y) :: after) :=
  ⟨fun _ _ _ _ => keysOf_append, fun _ _ _ _ _ _ => keysOf_of_split⟩

/-- A lead byte before a carriage return, and one before another lead byte. The latter starts a
    character that the next read does not continue. In that read a control character comes in the
    middle of a character, and what would have continued that is left alone. -/
theorem keysOf_resume_of_garbage :
    let before : List (List UInt8) := [[0xC3, 0x0D], [0xC2, 0xF0, 0x9F]]
    let after : List (List UInt8) := [[0x0D, 0x0A, 0xE2, 0x82, 0x04, 0x80, 0x0D, 0x0A, 0x08]]
    keysOf (before ++ after)
        = [.ignored, .enter, .ignored] ++ [.ignored]
          ++ [.enter, .ignored, .endOfInput, .ignored, .enter, .backspace]
      ∧ keysOf after
        = [.enter] ++ [.ignored] ++ .endOfInput :: keysOf [[0x80, 0x0D, 0x0A, 0x08]] := by
  intro before after
  have hbefore : keysOf before = [.ignored, .enter, .ignored] := by
    decide +kernel
  have hafter : keysOf after
      = [.enter, .ignored, .endOfInput, .ignored, .enter, .backspace] := by
    decide +kernel
  have hhead : keysOf [[0x0D, 0x0A, 0xE2, 0x82]] = [.enter] := by
    decide +kernel
  have hreads : reads after = after := reads_of_length_le (by decide)
  have hboth := keysOf_resume.1 before after 0x0D _ rfl (by decide)
  have hsplit := keysOf_resume.2 after [] [] [0x0D, 0x0A, 0xE2, 0x82] [0x80, 0x0D, 0x0A, 0x08] 0x04
    hreads (by decide) (by decide)
  rw [hbefore, hafter] at hboth
  rw [List.nil_append, hhead] at hsplit
  exact ⟨hboth, hsplit⟩

end KeyReader

end LineChat
