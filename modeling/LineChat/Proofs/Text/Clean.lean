import LineChat.Calendar
import LineChat.Proofs.Line.Unambiguous
import LineChat.Text.Trim

set_option autoImplicit false

/-! # Control characters in texts

The control characters of a text that is put together are those of its parts (`controls_append`), so
a line has none but those that come in with a part of it. Numbers, display forms and dates have
none, and cutting the blanks off a text adds none. -/

namespace LineChat

namespace Text

/-- The control characters of a text, in order. -/
def controls (s : String) : List Char :=
  s.toList.filter isControl

/-- A text without control characters. -/
def Clean (s : String) : Prop :=
  controls s = []

instance (s : String) : Decidable (Clean s) :=
  inferInstanceAs (Decidable (_ = _))

@[simp] theorem controls_append (s t : String) : controls (s ++ t) = controls s ++ controls t := by
  simp [controls]

theorem clean_iff (s : String) : Clean s ↔ ∀ c ∈ s.toList, isControl c = false := by
  simp [Clean, controls, List.filter_eq_nil_iff]

theorem Clean.append {s t : String} (hs : Clean s) (ht : Clean t) : Clean (s ++ t) := by
  rw [Clean, controls_append, hs, ht, List.append_nil]

theorem Clean.notMem {s : String} (h : Clean s) {c : Char} (hc : isControl c = true) :
    c ∉ s.toList := by
  intro hmem
  rw [(clean_iff s).1 h c hmem] at hc
  exact Bool.noConfusion hc

theorem Clean.trim {s : String} (h : Clean s) : Clean (trim s) := by
  obtain ⟨front, back, hparts⟩ := exists_append_trimmed_append s.toList
  refine (clean_iff _).2 fun c hc => (clean_iff s).1 h c ?_
  rw [Text.trim, String.toList_ofList] at hc
  rw [hparts]
  exact List.mem_append_left _ (List.mem_append_right _ hc)

theorem isControl_of_isDigit {c : Char} (h : c.isDigit = true) : isControl c = false := by
  have hrange : 0x30 ≤ c.toNat ∧ c.toNat ≤ 0x39 := by
    simpa [Char.isDigit, UInt32.le_iff_toNat_le] using h
  have hless : ¬ c.toNat < 0x20 := by omega
  have hmore : ¬ 0x7F ≤ c.toNat := by omega
  simp [isControl, hless, hmore]

end Text

theorem Decimal.clean_padded (width n : Nat) : Text.Clean (padded width n) := by
  refine (Text.clean_iff _).2 fun c hc => ?_
  rw [padded, String.toList_ofList] at hc
  exact Text.isControl_of_isDigit (isDigit_of_mem_paddedDigits hc)

theorem ParticipantId.clean_display (id : ParticipantId) : Text.Clean id.display :=
  Text.Clean.append (by decide) (Decimal.clean_padded 3 _)

namespace DateTime

/-- A date is written with digits, signs, blanks and colons. -/
theorem forall_mem_render {P : Char → Prop} (hdigit : ∀ c, c.isDigit = true → P c)
    (hmark : ∀ c ∈ ['-', '+', ' ', ':'], P c) (t : DateTime) : ∀ c ∈ t.render.toList, P c := by
  have hhyphen : ∀ c ∈ "-".toList, P c := fun c hc => hmark c (by simp_all)
  have hplus : ∀ c ∈ "+".toList, P c := fun c hc => hmark c (by simp_all)
  have hblank : ∀ c ∈ " ".toList, P c := fun c hc => hmark c (by simp_all)
  have hcolon : ∀ c ∈ ":".toList, P c := fun c hc => hmark c (by simp_all)
  have hnumber : ∀ width n, ∀ c ∈ (Decimal.padded width n).toList, P c := by
    intro width n c hc
    rw [Decimal.padded, String.toList_ofList] at hc
    exact hdigit c (Decimal.isDigit_of_mem_paddedDigits hc)
  have hyear : ∀ c ∈ (renderYear t.year).toList, P c := by
    unfold renderYear
    split
    · exact hnumber 4 _
    · split <;> rw [String.toList_append, List.forall_mem_append]
      · exact ⟨hhyphen, hnumber 4 _⟩
      · exact ⟨hplus, hnumber 4 _⟩
  simp only [render, String.toList_append, List.forall_mem_append]
  exact ⟨⟨⟨⟨⟨⟨⟨⟨⟨⟨hyear, hhyphen⟩, hnumber 2 _⟩, hhyphen⟩, hnumber 2 _⟩, hblank⟩, hnumber 2 _⟩,
    hcolon⟩, hnumber 2 _⟩, hcolon⟩, hnumber 2 _⟩

theorem clean_render (t : DateTime) : Text.Clean t.render :=
  (Text.clean_iff _).2
    (forall_mem_render (fun _ => Text.isControl_of_isDigit) (by simp [Text.isControl]) t)

/-- A date has no bracket in it. -/
theorem notMem_render (t : DateTime) : ']' ∉ t.render.toList := by
  intro hmem
  refine forall_mem_render (P := (· ≠ ']')) ?_ (by simp) t _ hmem rfl
  rintro c hdigit rfl
  exact absurd hdigit (by decide)

end DateTime

end LineChat
