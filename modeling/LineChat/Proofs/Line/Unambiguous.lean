import LineChat.Line
import LineChat.Participant
import Mathlib.Data.List.Basic

set_option autoImplicit false

/-! # Lines can be read back

A line is put together from a time, a name in some colour, and a text, and nothing in it marks where
one ends and the next begins. It can be taken apart all the same if the time has no closing bracket,
the text has no escape character, and the name is the display form of a number: the time ends at the
first bracket; a coloured name ends at the last escape character; and of a display form the number
is what follows the last hyphen, or goes on to the first colon where there is no colour.

So a line tells who has said what (`said_inj`), and is no announcement (`said_ne_notice`). -/

namespace LineChat

/-! ## Numbers -/

namespace Decimal

/-- Leading zeros do not count. -/
theorem ofDigitChars_paddedDigits (width n : Nat) :
    Nat.ofDigitChars 10 (paddedDigits width n) 0 = n := by
  rw [paddedDigits, Nat.ofDigitChars_append, Nat.ofDigitChars_replicate_zero, Nat.mul_zero,
    Nat.ofDigitChars_ten_toDigits]

theorem paddedDigits_inj {width n m : Nat} (h : paddedDigits width n = paddedDigits width m) :
    n = m := by
  rw [← ofDigitChars_paddedDigits width n, h, ofDigitChars_paddedDigits]

theorem isDigit_of_mem_paddedDigits {width n : Nat} {c : Char} (h : c ∈ paddedDigits width n) :
    c.isDigit = true := by
  rcases List.mem_append.1 h with hzero | hdigit
  · rw [List.eq_of_mem_replicate hzero]
    rfl
  · exact Nat.isDigit_of_mem_toDigits (by decide) (by decide) hdigit

theorem notMem_paddedDigits {width n : Nat} {c : Char} (h : c.isDigit = false) :
    c ∉ paddedDigits width n := by
  intro hmem
  rw [isDigit_of_mem_paddedDigits hmem] at h
  exact Bool.noConfusion h

end Decimal

namespace ParticipantId

theorem toList_display (id : ParticipantId) :
    id.display.toList = "user".toList ++ '-' :: Decimal.paddedDigits 3 id.seq.toNat := by
  simp [display, Decimal.padded]

/-- No two numbers are shown alike. -/
theorem display_injective : Function.Injective display := by
  intro id id' h
  have hdigits : Decimal.paddedDigits 3 id.seq.toNat = Decimal.paddedDigits 3 id'.seq.toNat := by
    have hchars := congrArg String.toList h
    rw [toList_display, toList_display] at hchars
    exact (List.cons.inj (List.append_cancel_left hchars)).2
  have hseq := UInt64.toNat_inj.1 (Decimal.paddedDigits_inj hdigits)
  exact congrArg mk hseq

end ParticipantId

/-! ## Taking lists apart -/

section
variable {α : Type} {c : α} {front front' back back' : List α}

/-- Where a character stands for the first time, there is one way to cut. -/
theorem cut_first_inj (h : c ∉ front) (h' : c ∉ front')
    (heq : front ++ c :: back = front' ++ c :: back') : front = front' ∧ back = back' := by
  induction front generalizing front' with
  | nil =>
      cases front' with
      | nil => exact ⟨rfl, (List.cons.inj heq).2⟩
      | cons d rest => exact absurd (List.mem_cons.2 (Or.inl (List.cons.inj heq).1)) h'
  | cons a front ih =>
      cases front' with
      | nil => exact absurd (List.mem_cons.2 (Or.inl (List.cons.inj heq).1.symm)) h
      | cons d rest =>
          obtain ⟨rfl, hrest⟩ := List.cons.inj heq
          obtain ⟨rfl, hback⟩ := ih (fun hmem => h (List.mem_cons_of_mem _ hmem))
            (fun hmem => h' (List.mem_cons_of_mem _ hmem)) hrest
          exact ⟨rfl, hback⟩

/-- And where it stands for the last time. -/
theorem cut_last_inj (h : c ∉ back) (h' : c ∉ back')
    (heq : front ++ c :: back = front' ++ c :: back') : front = front' ∧ back = back' := by
  have hreverse := congrArg List.reverse heq
  simp only [List.reverse_append, List.reverse_cons, List.append_assoc, List.singleton_append]
    at hreverse
  obtain ⟨hback, hfront⟩ := cut_first_inj (by simpa using h) (by simpa using h') hreverse
  exact ⟨List.reverse_injective hfront, List.reverse_injective hback⟩

end

namespace Line

/-! ## What stands behind the time -/

/-- What somebody says, from the name on. -/
def body (label text : String) : List Char :=
  label.toList ++ ':' :: ' ' :: text.toList

theorem toList_said (stamp label text : String) :
    (said stamp label text).toList = '[' :: (stamp.toList ++ ']' :: ' ' :: body label text) := by
  simp [said, body]

theorem toList_notice (stamp text : String) :
    (notice stamp text).toList
      = '[' :: (stamp.toList ++ ']' :: ' ' :: ("[system] ".toList ++ text.toList)) := by
  simp [notice]

/-- The time ends at the first closing bracket. -/
theorem cut_stamp {stamp stamp' : String} (h : ']' ∉ stamp.toList) (h' : ']' ∉ stamp'.toList)
    {rest rest' : List Char}
    (heq : '[' :: (stamp.toList ++ ']' :: ' ' :: rest)
      = '[' :: (stamp'.toList ++ ']' :: ' ' :: rest')) : stamp = stamp' ∧ rest = rest' := by
  obtain ⟨hstamp, hrest⟩ := cut_first_inj h h' (List.cons.inj heq).2
  exact ⟨String.toList_injective hstamp, (List.cons.inj hrest).2⟩

theorem body_of_plain {color : Color} (h : color.isPlain = true) (name text : String) :
    body (color.paint name) text = name.toList ++ ':' :: ' ' :: text.toList := by
  rw [body, Color.paint, if_pos h]

theorem body_of_colored {color : Color} (h : color.isPlain = false) (name text : String) :
    body (color.paint name) text
      = color.token.toList ++ name.toList ++ '\x1b' :: ("[0m: ".toList ++ text.toList) := by
  simp [body, Color.paint, h, Color.reset]

/-! ## Who says what -/

section
variable {id id' : ParticipantId} {color color' : Color} {text text' : String}

/-- Without a colour, the number goes on to the first colon. -/
theorem body_inj_of_plain (hcolor : color.isPlain = true) (hcolor' : color'.isPlain = true)
    (heq : body (color.paint id.display) text = body (color'.paint id'.display) text') :
    id = id' ∧ text = text' := by
  have hcolon : ∀ id : ParticipantId, ':' ∉ id.display.toList := by
    intro id
    rw [ParticipantId.toList_display]
    simp [Decimal.notMem_paddedDigits]
  rw [body_of_plain hcolor, body_of_plain hcolor'] at heq
  obtain ⟨hname, htext⟩ := cut_first_inj (hcolon id) (hcolon id') heq
  exact ⟨ParticipantId.display_injective (String.toList_injective hname),
    String.toList_injective (List.cons.inj htext).2⟩

/-- With a colour, the text begins behind the last escape character, and the number behind the last
    hyphen before it. -/
theorem body_inj_of_colored (hcolor : color.isPlain = false) (hcolor' : color'.isPlain = false)
    (htext : '\x1b' ∉ text.toList) (htext' : '\x1b' ∉ text'.toList)
    (heq : body (color.paint id.display) text = body (color'.paint id'.display) text') :
    id = id' ∧ text = text' := by
  have hescape : ∀ {text : String}, '\x1b' ∉ text.toList →
      '\x1b' ∉ "[0m: ".toList ++ text.toList := by
    intro text h
    simp [h]
  have hhyphen : ∀ id : ParticipantId, '-' ∉ Decimal.paddedDigits 3 id.seq.toNat :=
    fun id => Decimal.notMem_paddedDigits rfl
  rw [body_of_colored hcolor, body_of_colored hcolor'] at heq
  obtain ⟨hname, hrest⟩ := cut_last_inj (hescape htext) (hescape htext') heq
  rw [ParticipantId.toList_display, ParticipantId.toList_display, ← List.append_assoc,
    ← List.append_assoc] at hname
  obtain ⟨-, hdigits⟩ := cut_last_inj (hhyphen id) (hhyphen id') hname
  have hseq := UInt64.toNat_inj.1 (Decimal.paddedDigits_inj hdigits)
  exact ⟨congrArg ParticipantId.mk hseq,
    String.toList_injective (List.append_cancel_left hrest)⟩

/-- Only a colour brings an escape character into a line. -/
theorem escape_mem_body_iff (htext : '\x1b' ∉ text.toList) :
    '\x1b' ∈ body (color.paint id.display) text ↔ color.isPlain = false := by
  cases hcolor : color.isPlain with
  | true =>
      rw [body_of_plain hcolor, ParticipantId.toList_display]
      simp [htext, Decimal.notMem_paddedDigits]
  | false =>
      rw [body_of_colored hcolor]
      simp

/-- Whether or not they are coloured, two lines that read alike behind the time have the same
    number and the same text. -/
theorem body_inj (htext : '\x1b' ∉ text.toList) (htext' : '\x1b' ∉ text'.toList)
    (heq : body (color.paint id.display) text = body (color'.paint id'.display) text') :
    id = id' ∧ text = text' := by
  have hsame : color.isPlain = false ↔ color'.isPlain = false := by
    rw [← escape_mem_body_iff htext, ← escape_mem_body_iff htext', heq]
  cases hcolor : color.isPlain with
  | true =>
      have hcolor' : color'.isPlain = true := by simpa [hcolor] using hsame
      exact body_inj_of_plain hcolor hcolor' heq
  | false => exact body_inj_of_colored hcolor (hsame.1 hcolor) htext htext' heq

/-- A line tells when it was said, who has said it, and what. -/
theorem said_inj {stamp stamp' : String} (hstamp : ']' ∉ stamp.toList)
    (hstamp' : ']' ∉ stamp'.toList) (htext : '\x1b' ∉ text.toList) (htext' : '\x1b' ∉ text'.toList)
    (heq : said stamp (color.paint id.display) text
      = said stamp' (color'.paint id'.display) text') :
    stamp = stamp' ∧ id = id' ∧ text = text' := by
  have hchars := congrArg String.toList heq
  rw [toList_said, toList_said] at hchars
  obtain ⟨hsame, hbody⟩ := cut_stamp hstamp hstamp' hchars
  exact ⟨hsame, body_inj htext htext' hbody⟩

/-- What somebody says does not read like an announcement. -/
theorem said_ne_notice {stamp stamp' news : String} (hstamp : ']' ∉ stamp.toList)
    (hstamp' : ']' ∉ stamp'.toList) (hnews : '\x1b' ∉ news.toList) :
    said stamp (color.paint id.display) text ≠ notice stamp' news := by
  intro heq
  have hchars := congrArg String.toList heq
  rw [toList_said, toList_notice] at hchars
  obtain ⟨-, hbody⟩ := cut_stamp hstamp hstamp' hchars
  cases hcolor : color.isPlain with
  | true =>
      -- a name without a colour does not begin with a bracket
      rw [body_of_plain hcolor, ParticipantId.toList_display] at hbody
      simp at hbody
  | false =>
      have hescape : '\x1b' ∈ "[system] ".toList ++ news.toList := by
        rw [← hbody, body_of_colored hcolor]
        simp
      simp [hnews] at hescape

end

/-! ## Reading a line -/

/-- A line reads as what somebody with this number has said at this time. -/
structure ReadsAs (line stamp : String) (id : ParticipantId) (text : String) : Prop where
  unbracketed : ']' ∉ stamp.toList
  unescaped : '\x1b' ∉ text.toList
  worded : ∃ color : Color, line = said stamp (color.paint id.display) text

variable {line stamp stamp' : String} {id id' : ParticipantId} {text text' : String}

/-- There is one way to read a line. -/
theorem ReadsAs.unique (h : ReadsAs line stamp id text) (h' : ReadsAs line stamp' id' text') :
    stamp = stamp' ∧ id = id' ∧ text = text' := by
  obtain ⟨color, hline⟩ := h.worded
  obtain ⟨color', hline'⟩ := h'.worded
  exact said_inj h.unbracketed h'.unbracketed h.unescaped h'.unescaped (hline.symm.trans hline')

/-- What somebody with a number says is never taken for an announcement about one. -/
theorem ReadsAs.ne_notice (h : ReadsAs line stamp id text) (hstamp' : ']' ∉ stamp'.toList) :
    line ≠ notice stamp' (joined id'.display) ∧ line ≠ notice stamp' (left id'.display) := by
  obtain ⟨color, rfl⟩ := h.worded
  have hname : '\x1b' ∉ id'.display.toList := by
    rw [ParticipantId.toList_display]
    simp [Decimal.notMem_paddedDigits]
  constructor
  · exact said_ne_notice h.unbracketed hstamp' (by simp [joined, hname])
  · exact said_ne_notice h.unbracketed hstamp' (by simp [left, hname])

end Line

end LineChat
