import LineChat.Proofs.Key.Reads
import LineChat.Proofs.Text.Encoding

set_option autoImplicit false

/-! # The keys that bytes spell

What the reader makes of bytes, one after the other and read by read, is what there is to be made of
them at one glance (`Key.Spelled`). -/

namespace LineChat

/-! ## Bytes at one glance -/

namespace Utf8

/-- A lead byte with fewer continuation bytes than it asks for. -/
structure Short (lead : UInt8) (later : List UInt8) : Prop where
  width : later.length + 1 < width lead
  continues : ∀ b ∈ later, isContinuation b = true

end Utf8

namespace Key

/-- What bytes mean that have the shape of a character: the key of the character that they encode,
    or nothing if there is none. -/
inductive Means (bytes : List UInt8) : Key → Prop
  | char (c : Char) (hencoded : String.utf8EncodeChar c = bytes) : Means bytes (classify c)
  | nothing (hnone : ∀ c, String.utf8EncodeChar c ≠ bytes) : Means bytes ignored

/-- The keys that bytes spell, if the end comes after them. -/
inductive Spelled : List UInt8 → List Key → Prop
  | nil : Spelled [] []
  /-- A byte that starts no character is ignored on its own. -/
  | stray {b : UInt8} {rest : List UInt8} {keys : List Key} (hwidth : Utf8.width b = 0)
    (h : Spelled rest keys) : Spelled (b :: rest) (ignored :: keys)
  /-- A lead byte takes the continuation bytes that it asks for. -/
  | whole {lead : UInt8} {later rest : List UInt8} {key : Key} {keys : List Key}
    (hshaped : Utf8.Shaped lead later) (hkey : Means (lead :: later) key)
    (h : Spelled rest keys) : Spelled (lead :: later ++ rest) (key :: keys)
  /-- Another byte that comes before these ends the character, and is left. -/
  | cut {lead b : UInt8} {later rest : List UInt8} {keys : List Key}
    (hshort : Utf8.Short lead later) (hcont : Utf8.isContinuation b = false)
    (h : Spelled (b :: rest) keys) : Spelled (lead :: later ++ b :: rest) (ignored :: keys)
  /-- The end comes before these. -/
  | ended {lead : UInt8} {later : List UInt8} (hshort : Utf8.Short lead later) :
    Spelled (lead :: later) []

theorem exists_means (bytes : List UInt8) : ∃ key, Means bytes key := by
  by_cases h : ∃ c, String.utf8EncodeChar c = bytes
  · obtain ⟨c, hencoded⟩ := h
    exact ⟨_, .char c hencoded⟩
  · exact ⟨_, .nothing fun c hencoded => h ⟨c, hencoded⟩⟩

/-- Of some bytes a number of continuation bytes is taken, or all that come first if there are
    fewer. -/
theorem exists_continues (n : Nat) (bytes : List UInt8) :
    ∃ later rest, bytes = later ++ rest ∧ (∀ b ∈ later, Utf8.isContinuation b = true)
      ∧ (later.length = n ∨ later.length < n
        ∧ ∀ b ∈ rest.head?, Utf8.isContinuation b = false) := by
  induction n generalizing bytes with
  | zero => exact ⟨[], bytes, rfl, by simp, Or.inl rfl⟩
  | succ n ih =>
      cases bytes with
      | nil => exact ⟨[], [], rfl, by simp, Or.inr ⟨Nat.succ_pos n, by simp⟩⟩
      | cons b bytes =>
          cases hb : Utf8.isContinuation b with
          | false =>
              exact ⟨[], b :: bytes, rfl, by simp, Or.inr ⟨Nat.succ_pos n, by simpa using hb⟩⟩
          | true =>
              obtain ⟨later, rest, rfl, hcont, hlength⟩ := ih bytes
              refine ⟨b :: later, rest, rfl, List.forall_mem_cons.2 ⟨hb, hcont⟩, ?_⟩
              exact hlength.imp (congrArg (· + 1)) fun h => ⟨Nat.succ_lt_succ h.1, h.2⟩

/-- Whatever the bytes are, they spell keys. -/
theorem exists_spelled (bytes : List UInt8) : ∃ keys, Spelled bytes keys := by
  induction hn : bytes.length using Nat.strongRecOn generalizing bytes with
  | _ n ih =>
      cases bytes with
      | nil => exact ⟨[], .nil⟩
      | cons lead bytes =>
          have hrest : ∀ rest, rest.length < (lead :: bytes).length → ∃ keys, Spelled rest keys :=
            fun rest hless => ih _ (hn ▸ hless) rest rfl
          by_cases hstray : Utf8.width lead = 0
          · obtain ⟨keys, hkeys⟩ := hrest bytes (Nat.lt_succ_self _)
            exact ⟨_, .stray hstray hkeys⟩
          obtain ⟨later, rest, rfl, hcont, hall | ⟨hfew, hhead⟩⟩ :=
            exists_continues (Utf8.width lead - 1) bytes
          · -- all the bytes of the character are there
            obtain ⟨key, hkey⟩ := exists_means (lead :: later)
            have hless : rest.length < (lead :: (later ++ rest)).length := by
              simp only [List.length_cons, List.length_append]
              omega
            obtain ⟨keys, hkeys⟩ := hrest rest hless
            exact ⟨_, .whole ⟨by omega, hcont⟩ hkey hkeys⟩
          · have hshort : Utf8.Short lead later := ⟨by omega, hcont⟩
            cases rest with
            | nil => exact ⟨[], by simpa using Spelled.ended hshort⟩
            | cons b rest =>
                have hless : (b :: rest).length < (lead :: (later ++ b :: rest)).length := by
                  simp only [List.length_cons, List.length_append]
                  omega
                obtain ⟨keys, hkeys⟩ := hrest (b :: rest) hless
                exact ⟨_, .cut hshort (hhead b rfl) hkeys⟩

end Key

namespace KeyReader

open Inlet

variable {inlet : Inlet} {lead : UInt8} {later rest : List UInt8}

/-- Continuation bytes are held as long as the character is not complete. -/
theorem decoded_of_continues {held : List UInt8} (h : inlet.Brings (later ++ rest))
    (hcont : ∀ b ∈ later, Utf8.isContinuation b = true)
    (hwidth : held.length + later.length + 1 < Utf8.width lead) :
    ∃ inlet', inlet'.Brings rest
      ∧ decoded ⟨inlet, lead :: held⟩ = decoded ⟨inlet', lead :: (held ++ later)⟩ := by
  induction later generalizing inlet held with
  | nil => exact ⟨inlet, h, by rw [List.append_nil]⟩
  | cons b later ih =>
      obtain ⟨hb, hlater⟩ := List.forall_mem_cons.1 hcont
      obtain ⟨next, hpeek, -, hrest⟩ := h.peek_cons
      rw [pass_of_ne (Utf8.ne_of_isContinuation hb rfl)] at hrest
      have hmore : (lead :: (held ++ [b])).length < Utf8.width lead := by
        simp only [List.length_cons, List.length_append, List.length_nil] at hwidth ⊢
        omega
      obtain ⟨inlet', hinlet, hdecoded⟩ := @ih next.skip (held ++ [b]) hrest hlater (by
        simp only [List.length_cons, List.length_append, List.length_nil] at hwidth ⊢
        omega)
      rw [decoded_of_step (step_of_stepping (.more hpeek hb hmore)), hdecoded, List.append_assoc]
      exact ⟨inlet', hinlet, rfl⟩

/-- A character that is not complete is held as a whole. -/
theorem decoded_of_short (h : inlet.Brings (lead :: later ++ rest))
    (hshort : Utf8.Short lead later) :
    ∃ inlet', inlet'.Brings rest
      ∧ (between inlet).decoded = decoded ⟨inlet', lead :: later⟩ := by
  obtain ⟨hwidth, hcont⟩ := hshort
  obtain ⟨next, hpeek, -, hrest⟩ := h.peek_cons
  have hlead : lead ≠ 0x0D := by
    rintro rfl
    exact absurd hwidth (by simp [Utf8.width])
  rw [pass_of_ne hlead] at hrest
  obtain ⟨inlet', hinlet, hdecoded⟩ := @decoded_of_continues _ lead _ _ [] hrest hcont (by simpa)
  have hstep := step_of_stepping (.lead hpeek ⟨by omega, by omega⟩)
  exact ⟨inlet', hinlet, (decoded_of_step hstep).trans hdecoded⟩

/-- A character that is complete gives its key, and takes a line feed along behind a carriage
    return. -/
theorem finish_of_means {key : Key} (hshaped : Utf8.Shaped lead later)
    (hkey : Key.Means (lead :: later) key) (inlet : Inlet) :
    finish inlet (lead :: later)
      = (between (if lead = 0x0D then joinLineEnd '\r' inlet else inlet), some (.key key)) := by
  -- a carriage return is a character of its own, so the lead byte tells whether it is one
  have hreturn : ∀ c, lead = 0x0D → (String.utf8EncodeChar c = lead :: later ↔ c = '\r') := by
    rintro c rfl
    have hlater : later = [] := List.length_eq_zero_iff.1 (Nat.succ.inj hshaped.width.symm)
    rw [← Utf8.decode?_eq_some_iff hshaped, hlater]
    exact Option.some_inj.trans eq_comm
  unfold finish
  cases hkey with
  | char c hencoded =>
      rw [(Utf8.decode?_eq_some_iff hshaped c).2 hencoded]
      by_cases hlead : lead = 0x0D
      · rw [if_pos hlead, (hreturn c hlead).1 hencoded]
      · have hc : c ≠ '\r' := by
          rintro rfl
          exact hlead (List.cons.inj hencoded).1.symm
        have hjoin : joinLineEnd c inlet = inlet := if_neg fun hjoin => hc hjoin.1
        rw [if_neg hlead]
        exact congrArg (fun inlet => (between inlet, _)) hjoin
  | nothing hnone =>
      have hdecode : Utf8.decode? (lead :: later) = none :=
        Option.eq_none_iff_forall_ne_some.2 fun c hc =>
          hnone c ((Utf8.decode?_eq_some_iff hshaped c).1 hc)
      rw [hdecode, if_neg fun hlead => hnone '\r' ((hreturn '\r' hlead).2 rfl)]

theorem decoded_of_spelled {bytes : List UInt8} {keys : List Key} (h : Key.Spelled bytes keys)
    (hinlet : inlet.Brings bytes) :
    (between inlet).decoded = keys.map .key ++ [.closed] := by
  induction h generalizing inlet with
  | nil => exact decoded_of_step (step_of_stepping (.ended hinlet.peek_nil))
  | @stray b rest keys hwidth h ih =>
      obtain ⟨next, hpeek, -, hrest⟩ := hinlet.peek_cons
      have hb : b ≠ 0x0D := by
        rintro rfl
        exact absurd hwidth (by simp [Utf8.width])
      rw [pass_of_ne hb] at hrest
      rw [decoded_of_step (step_of_stepping (.stray hpeek hwidth)), ih hrest]
      rfl
  | @whole lead later rest key keys hshaped hkey h ih =>
      rcases List.eq_nil_or_concat later with rfl | ⟨init, b, rfl⟩
      · obtain ⟨next, hpeek, -, hrest⟩ := hinlet.peek_cons
        have hstep := step_of_stepping (.single hpeek hshaped.width)
        rw [finish_of_means hshaped hkey] at hstep
        rw [decoded_of_step hstep]
        exact congrArg _ (ih hrest)
      · rw [List.concat_eq_append] at hshaped hkey hinlet
        obtain ⟨hinit, hb⟩ := List.forall_mem_append.1 hshaped.continues
        have hlength : Utf8.width lead = (lead :: (init ++ [b])).length := hshaped.width
        have hshort : Utf8.Short lead init := ⟨by simp [hlength], hinit⟩
        obtain ⟨inlet', hinlet', hdecoded⟩ := @decoded_of_short inlet lead init (b :: rest)
          (by simpa using hinlet) hshort
        obtain ⟨next, hpeek, -, hrest⟩ := hinlet'.peek_cons
        have hcont : Utf8.isContinuation b = true := hb b (List.mem_singleton_self b)
        have hlead : lead ≠ 0x0D := by
          rintro rfl
          simp [Utf8.width] at hlength
        have hstep := step_of_stepping (.last hpeek hcont (Nat.not_lt_of_le (Nat.le_of_eq hlength)))
        rw [finish_of_means hshaped hkey, if_neg hlead] at hstep
        rw [pass_of_ne (Utf8.ne_of_isContinuation hcont rfl)] at hrest
        rw [hdecoded, decoded_of_step hstep]
        exact congrArg _ (ih hrest)
  | @cut lead b later rest keys hshort hcont h ih =>
      obtain ⟨inlet', hinlet', hdecoded⟩ := decoded_of_short hinlet hshort
      obtain ⟨next, hpeek, hstays, -⟩ := hinlet'.peek_cons
      rw [hdecoded, decoded_of_step (step_of_stepping (.cut hpeek hcont)), ih hstays]
      rfl
  | @ended lead later hshort =>
      obtain ⟨inlet', hinlet', hdecoded⟩ := @decoded_of_short inlet lead later [] (by simpa) hshort
      rw [hdecoded, decoded_of_step (step_of_stepping (.ended hinlet'.peek_nil))]
      rfl

end KeyReader

/-! ## Texts -/

namespace Key

theorem spelled_text (text : List Char) :
    Spelled (text.flatMap String.utf8EncodeChar) (text.map classify) := by
  induction text with
  | nil => exact .nil
  | cons c text ih =>
      obtain ⟨lead, later, hbytes, hshaped⟩ := (Utf8.spread_utf8EncodeChar c).shaped
      rw [List.flatMap_cons, hbytes]
      exact .whole hshaped (.char c hbytes) ih

end Key

/-- If bytes are left out of the encoding of a text, line feeds are left out of the text. -/
theorem Folded.exists_text {kept : List UInt8} {text : List Char}
    (h : Folded 0x0D 0x0A kept (text.flatMap String.utf8EncodeChar)) :
    ∃ kept', Folded '\r' '\n' kept' text ∧ kept'.flatMap String.utf8EncodeChar = kept := by
  induction hn : text.length using Nat.strongRecOn generalizing kept text with
  | _ n ih =>
      cases text with
      | nil =>
          cases h
          exact ⟨[], .nil, rfl⟩
      | cons c text =>
          rw [List.flatMap_cons] at h
          by_cases hc : c = '\r'
          · subst hc
            have hreturn : String.utf8EncodeChar '\r' = [0x0D] := rfl
            rw [hreturn, List.singleton_append] at h
            generalize hall : text.flatMap String.utf8EncodeChar = all at h
            cases h with
            | keep _ h =>
                subst hall
                obtain ⟨kept', hkept', rfl⟩ := ih _ (hn ▸ Nat.lt_succ_self _) h rfl
                exact ⟨_, .keep _ hkept', rfl⟩
            | fold h =>
                obtain ⟨c, text, rfl, hc, rfl⟩ := Utf8.exists_cons_of_flatMap (by decide) hall
                obtain rfl : c = '\n' := Utf8.char_ext hc
                have hless : text.length < n := by
                  simp only [← hn, List.length_cons]
                  omega
                obtain ⟨kept', hkept', rfl⟩ := ih _ hless h rfl
                exact ⟨_, .fold hkept', rfl⟩
          · -- no other character has a byte that is a carriage return
            obtain ⟨rest, rfl, hrest⟩ := h.of_notMem fun hmem =>
              hc (Utf8.char_ext (Utf8.utf8EncodeChar_of_mem (by decide) hmem).1)
            obtain ⟨kept', hkept', rfl⟩ := ih _ (hn ▸ Nat.lt_succ_self _) hrest rfl
            exact ⟨c :: kept', .keep c hkept', List.flatMap_cons⟩

namespace KeyReader

open Inlet

/-- What arrives in chunks, and the end behind it. -/
def ofChunks (chunks : List (List UInt8)) : KeyReader :=
  ofEvents (chunks.map .data ++ [.close])

theorem readings_of_spelled {chunks : List (List UInt8)} (h : [] ∉ chunks) {keys : List Key}
    (hkeys : Key.Spelled (folded (reads chunks)) keys) :
    (ofChunks chunks).readings = keys.map .key ++ [.closed] := by
  rw [readings_eq_decoded (by simp [ofChunks, ofEvents, Inlet.ofEvents])]
  exact decoded_of_spelled hkeys (brings_ofEvents h)

/-- The keys are those that the bytes spell, without the line feeds that are read together with the
    carriage return before them. Of a text they are the keys of its characters. -/
theorem readings_of_reads {chunks : List (List UInt8)} (h : [] ∉ chunks) :
    (∃ keys, Key.Spelled (folded (reads chunks)) keys)
      ∧ (∀ keys, Key.Spelled (folded (reads chunks)) keys
        ↔ (ofChunks chunks).readings = keys.map .key ++ [.closed])
      ∧ ∀ text : String, chunks.flatten = Utf8.encode text →
        ∃ kept, Folded '\r' '\n' kept text.toList
          ∧ kept.flatMap String.utf8EncodeChar = folded (reads chunks)
          ∧ (ofChunks chunks).readings = kept.map (.key ∘ Key.classify) ++ [.closed] := by
  obtain ⟨keys, hkeys⟩ := Key.exists_spelled (folded (reads chunks))
  refine ⟨⟨keys, hkeys⟩, fun keys' => ⟨readings_of_spelled h, fun hreadings => ?_⟩, ?_⟩
  · -- the keys that are spelled are those that are read, so they are no others
    rw [readings_of_spelled h hkeys, List.append_cancel_right_eq] at hreadings
    rwa [(List.map_inj_right fun _ _ => Reading.key.inj).1 hreadings] at hkeys
  · intro text htext
    have hfolded := folded_flatten (reads chunks)
    rw [flatten_reads, htext] at hfolded
    obtain ⟨kept, hkept, hbytes⟩ := hfolded.exists_text
    refine ⟨kept, hkept, hbytes, ?_⟩
    rw [readings_of_spelled h (hbytes ▸ Key.spelled_text kept), List.map_map]

/-- A line end that is cut in two and one that is not, an overlong form that is cut as well, a lead
    byte before a letter, and a character that the end cuts off. -/
theorem readings_of_reads_of_garbage :
    let chunks : List (List UInt8) :=
      [[0x61, 0x0D], [0x0A, 0x0D, 0x0A], [0xE0, 0x80], [0xAF, 0xC3, 0x41, 0xF0, 0x9F]]
    [] ∉ chunks
      ∧ Key.Spelled [0x61, 0x0D, 0x0A, 0x0D, 0xE0, 0x80, 0xAF, 0xC3, 0x41, 0xF0, 0x9F]
        [.char 'a', .enter, .enter, .enter, .ignored, .ignored, .char 'A'] := by
  intro chunks
  have hne : [] ∉ chunks := by decide
  have hreads : reads chunks = chunks := reads_of_length_le (by decide)
  have hreadings : (ofChunks chunks).readings
      = [Key.char 'a', .enter, .enter, .enter, .ignored, .ignored, .char 'A'].map .key
        ++ [.closed] := by
    decide +kernel
  have hspelled := ((readings_of_reads hne).2.1 _).2 hreadings
  rw [hreads] at hspelled
  exact ⟨hne, hspelled⟩

end KeyReader

end LineChat
