import LineChat.Text.Utf8

set_option autoImplicit false

/-! # Decoding undoes encoding

A lead byte and as many continuation bytes as it asks for have the shape of a character. What is
decoded from them is the one character whose encoding they are, and nothing if there is none. -/

namespace LineChat.Utf8

/-! ## Classes of bytes -/

theorem isContinuation_iff (b : UInt8) :
    isContinuation b = true ↔ 128 ≤ b.toNat ∧ b.toNat ≤ 191 := by
  simp [isContinuation, UInt8.le_iff_toNat_le]

theorem ne_of_isContinuation {b b' : UInt8} (hb : isContinuation b = true)
    (hb' : isContinuation b' = false) : b ≠ b' := by
  rintro rfl
  rw [hb] at hb'
  exact Bool.noConfusion hb'

/-- Which bytes a character of each width starts with. -/
theorem width_cases (b : UInt8) :
    (b.toNat ≤ 127 ∧ width b = 1) ∨ (194 ≤ b.toNat ∧ b.toNat ≤ 223 ∧ width b = 2)
      ∨ (224 ≤ b.toNat ∧ b.toNat ≤ 239 ∧ width b = 3)
      ∨ (240 ≤ b.toNat ∧ b.toNat ≤ 244 ∧ width b = 4)
      ∨ ((128 ≤ b.toNat ∧ b.toNat ≤ 193 ∨ 245 ≤ b.toNat) ∧ width b = 0) := by
  unfold width
  simp only [UInt8.le_iff_toNat_le, Bool.and_eq_true, decide_eq_true_eq, UInt8.reduceToNat]
  repeat' split
  all_goals omega

/-- No character starts with a byte that continues one. -/
theorem width_of_isContinuation {b : UInt8} (h : isContinuation b = true) : width b = 0 := by
  have hrange := (isContinuation_iff b).1 h
  have hwidth := width_cases b
  omega

theorem isContinuation_of_lt {b : UInt8} (h : b.toNat < 0x80) : isContinuation b = false := by
  rw [Bool.eq_false_iff, ne_eq, isContinuation_iff]
  omega

/-! ## Characters and their encodings -/

theorem char_ext {c c' : Char} (h : c.toNat = c'.toNat) : c = c' :=
  Char.ext (UInt32.toNat_inj.1 h)

theorem toNat_lt (c : Char) : c.toNat < 0x110000 := by
  have hvalid : c.toNat.isValidChar := c.valid
  unfold Nat.isValidChar at hvalid
  omega

theorem scalar?_eq_some_iff (n : Nat) (c : Char) : scalar? n = some c ↔ c.toNat = n := by
  unfold scalar?
  by_cases hvalid : n.isValidChar
  · have htoNat : (Char.ofNatAux n hvalid).toNat = n := rfl
    rw [dif_pos hvalid, Option.some_inj]
    constructor
    · rintro rfl
      exact htoNat
    · intro hc
      exact char_ext (htoNat.trans hc.symm)
  · rw [dif_neg hvalid]
    refine iff_of_false (Option.some_ne_none c).symm ?_
    rintro rfl
    exact hvalid c.valid

/-- A value is accepted from the least one on that needs so many bytes. -/
theorem scalar?_of_le_eq_some_iff (least n : Nat) (c : Char) :
    (if least ≤ n then scalar? n else none) = some c ↔ least ≤ n ∧ c.toNat = n := by
  split
  · rename_i hle
    rw [scalar?_eq_some_iff, and_iff_right hle]
  · rename_i hlt
    simp only [reduceCtorEq, hlt, false_and]

/-- The bytes that a value is spread over: as many as it needs, with six bits in each but the
    first. -/
inductive Spread (n : Nat) : List UInt8 → Prop
  | one {a : UInt8} (most : n < 0x80) (ha : a.toNat = n) : Spread n [a]
  | two {a b : UInt8} (least : 0x80 ≤ n) (most : n < 0x800) (ha : a.toNat = n / 64 + 0xC0)
    (hb : b.toNat = n % 64 + 0x80) : Spread n [a, b]
  | three {a b c : UInt8} (least : 0x800 ≤ n) (most : n < 0x10000)
    (ha : a.toNat = n / 4096 + 0xE0) (hb : b.toNat = n / 64 % 64 + 0x80)
    (hc : c.toNat = n % 64 + 0x80) : Spread n [a, b, c]
  | four {a b c d : UInt8} (least : 0x10000 ≤ n) (most : n < 0x110000)
    (ha : a.toNat = n / 262144 + 0xF0) (hb : b.toNat = n / 4096 % 64 + 0x80)
    (hc : c.toNat = n / 64 % 64 + 0x80) (hd : d.toNat = n % 64 + 0x80) : Spread n [a, b, c, d]

theorem Spread.unique {n : Nat} {bytes bytes' : List UInt8} (h : Spread n bytes)
    (h' : Spread n bytes') : bytes = bytes' := by
  -- two lengths exclude each other, and for one length each byte is fixed by its value
  cases h <;> cases h' <;> first
    | (exfalso; omega)
    | simp only [List.cons.injEq, ← UInt8.toNat_inj, and_self, *]

theorem spread_utf8EncodeChar (c : Char) : Spread c.toNat (String.utf8EncodeChar c) := by
  have hmost := toNat_lt c
  unfold String.utf8EncodeChar
  have hvalue : c.val.toNat = c.toNat := rfl
  simp only [hvalue]
  split
  · exact .one (by omega) (by simp; omega)
  split
  · exact .two (by omega) (by omega) (by simp; omega) (by simp; omega)
  split
  · exact .three (by omega) (by omega) (by simp; omega) (by simp; omega) (by simp; omega)
  · exact .four (by omega) (by omega) (by simp; omega) (by simp; omega) (by simp; omega)
      (by simp; omega)

theorem spread_iff (c : Char) (bytes : List UInt8) :
    Spread c.toNat bytes ↔ String.utf8EncodeChar c = bytes :=
  ⟨(spread_utf8EncodeChar c).unique, fun h => h ▸ spread_utf8EncodeChar c⟩

/-- A byte below `0x80` is a character of its own. -/
theorem utf8EncodeChar_of_mem {b : UInt8} {c : Char} (hb : b.toNat < 0x80)
    (hmem : b ∈ String.utf8EncodeChar c) : c.toNat = b.toNat ∧ String.utf8EncodeChar c = [b] := by
  have hspread := spread_utf8EncodeChar c
  generalize String.utf8EncodeChar c = bytes at hspread hmem
  cases hspread with
  | one most ha =>
      obtain rfl := List.mem_singleton.1 hmem
      exact ⟨ha.symm, rfl⟩
  -- in the longer ones every byte has its highest bit set
  | two least most ha hb =>
      simp only [List.mem_cons, List.not_mem_nil, or_false] at hmem
      rcases hmem with rfl | rfl <;> exfalso <;> omega
  | three least most ha hb hc =>
      simp only [List.mem_cons, List.not_mem_nil, or_false] at hmem
      rcases hmem with rfl | rfl | rfl <;> exfalso <;> omega
  | four least most ha hb hc hd =>
      simp only [List.mem_cons, List.not_mem_nil, or_false] at hmem
      rcases hmem with rfl | rfl | rfl | rfl <;> exfalso <;> omega

/-! ## Decoding -/

/-- A lead byte with the continuation bytes that it asks for. -/
structure Shaped (lead : UInt8) (later : List UInt8) : Prop where
  width : width lead = later.length + 1
  continues : ∀ b ∈ later, isContinuation b = true

theorem Spread.shaped {n : Nat} {bytes : List UInt8} (h : Spread n bytes) :
    ∃ lead later, bytes = lead :: later ∧ Shaped lead later := by
  cases h with
  | @one a most ha =>
      have hlead := width_cases a
      exact ⟨a, [], rfl, by simp; omega, by simp⟩
  | @two a b least most ha hb =>
      have hlead := width_cases a
      exact ⟨a, [b], rfl, by simp; omega, by simp [isContinuation_iff]; omega⟩
  | @three a b c least most ha hb hc =>
      have hlead := width_cases a
      exact ⟨a, [b, c], rfl, by simp; omega, by simp [isContinuation_iff]; omega⟩
  | @four a b c d least most ha hb hc hd =>
      have hlead := width_cases a
      exact ⟨a, [b, c, d], rfl, by simp; omega, by simp [isContinuation_iff]; omega⟩

/-- A byte below `0x80` that an encoded text begins with is its first character. -/
theorem exists_cons_of_flatMap {b : UInt8} {bytes : List UInt8} {text : List Char}
    (hb : b.toNat < 0x80) (h : text.flatMap String.utf8EncodeChar = b :: bytes) :
    ∃ c text', text = c :: text' ∧ c.toNat = b.toNat
      ∧ text'.flatMap String.utf8EncodeChar = bytes := by
  cases text with
  | nil => exact absurd h.symm (List.cons_ne_nil _ _)
  | cons c text =>
      obtain ⟨lead, later, hbytes, -⟩ := (spread_utf8EncodeChar c).shaped
      rw [List.flatMap_cons, hbytes, List.cons_append] at h
      obtain ⟨rfl, hrest⟩ := List.cons.inj h
      obtain ⟨hc, hsingle⟩ := utf8EncodeChar_of_mem hb (hbytes ▸ List.mem_cons_self)
      obtain rfl : later = [] := (List.cons.inj (hbytes.symm.trans hsingle)).2
      exact ⟨c, text, rfl, hc, hrest⟩

/-- From bytes of the right shape comes the character that they encode, and no other. -/
theorem decode?_eq_some_iff {lead : UInt8} {later : List UInt8} (h : Shaped lead later) (c : Char) :
    decode? (lead :: later) = some c ↔ String.utf8EncodeChar c = lead :: later := by
  rw [← spread_iff]
  obtain ⟨hwidth, hcontinues⟩ := h
  have hlead := width_cases lead
  simp only [isContinuation_iff] at hcontinues
  match later with
  | [] =>
      simp only [List.length_nil] at hwidth
      have hmost : lead.toNat ≤ 127 := by omega
      rw [decode?, if_pos (UInt8.le_iff_toNat_le.2 hmost), scalar?_eq_some_iff]
      constructor
      · intro hc
        exact .one (by omega) hc.symm
      · rintro ⟨-, ha⟩
        exact ha.symm
  | [b] =>
      have hb := hcontinues b (by simp)
      simp only [List.length_cons, List.length_nil] at hwidth
      rw [decode?, scalar?_of_le_eq_some_iff, payload]
      constructor
      · rintro ⟨hleast, hc⟩
        exact .two (by omega) (by omega) (by omega) (by omega)
      · rintro ⟨⟩
        omega
  | [b, b'] =>
      have hb := hcontinues b (by simp)
      have hb' := hcontinues b' (by simp)
      simp only [List.length_cons, List.length_nil] at hwidth
      rw [decode?, scalar?_of_le_eq_some_iff, payload, payload]
      constructor
      · rintro ⟨hleast, hc⟩
        exact .three (by omega) (by omega) (by omega) (by omega) (by omega)
      · rintro ⟨⟩
        omega
  | [b, b', b''] =>
      have hb := hcontinues b (by simp)
      have hb' := hcontinues b' (by simp)
      have hb'' := hcontinues b'' (by simp)
      simp only [List.length_cons, List.length_nil] at hwidth
      rw [decode?, scalar?_of_le_eq_some_iff, payload, payload, payload]
      constructor
      · rintro ⟨hleast, hc⟩
        have hmost := toNat_lt c
        exact .four (by omega) (by omega) (by omega) (by omega) (by omega) (by omega)
      · rintro ⟨⟩
        omega
  | _ :: _ :: _ :: _ :: _ =>
      have hfour := width_le_four lead
      simp only [List.length_cons] at hwidth
      omega

end LineChat.Utf8
