import LineChat.Draft
import Mathlib.Data.List.Induction
import Mathlib.Data.List.Infix

set_option autoImplicit false

/-! # What survives editing

A draft is kept as a stack. What is left of it can be told without one, for each character from what
is done after it was put in and from nothing else: the line is not emptied, and at no moment has
there been more taking away than putting in (`Lasts`). What is left after a row of edits are the
characters that last, in the order of typing (`chars_edited`).

As long as a character lasts, what is put in later lies behind it as it would lie behind nothing
(`Lasts.chars_edited`). Once it does not last, the line is the one that there would be without it
(`edited_append_of_not_lasts`). -/

namespace LineChat.Draft

/-! ## Edits in a row -/

@[simp] theorem length_answers (draft : Draft) (edits : List Edit) :
    (draft.answers edits).length = edits.length := by
  induction edits generalizing draft with
  | nil => rfl
  | cons edit edits ih => simp [answers, ih]

theorem answers_append (draft : Draft) (before after : List Edit) :
    draft.answers (before ++ after)
      = draft.answers before ++ (draft.edited before).answers after := by
  induction before generalizing draft with
  | nil => rfl
  | cons edit before ih => simp [answers, ih]

/-- What comes back of one edit among others. -/
theorem getElem?_answers (draft : Draft) (before after : List Edit) (edit : Edit) :
    (draft.answers (before ++ edit :: after))[before.length]?
      = some ((draft.edited before).perform edit).1 := by
  rw [answers_append, ← length_answers draft before, List.getElem?_append_right le_rfl,
    Nat.sub_self]
  rfl

/-! ## What lasts -/

/-- Whether an edit leaves nothing of the line. -/
def Edit.empties : Edit → Bool
  | reset | drain => true
  | append _ | trimLast | snapshot => false

/-- Whether an edit puts a character in. -/
def Edit.appends : Edit → Bool
  | append _ => true
  | trimLast | reset | drain | snapshot => false

/-- How many characters are put in. -/
def putIn (edits : List Edit) : Nat :=
  edits.countP Edit.appends

/-- How often a character is to be taken away, whether or not there is one. -/
def takenAway (edits : List Edit) : Nat :=
  edits.count .trimLast

/-- Whether a character lasts through what is done later: the line is not emptied, and at no moment
    have more characters been taken away since than put in since. The character itself does not
    count. -/
def Lasts (later : List Edit) : Prop :=
  (∀ edit ∈ later, edit.empties = false) ∧ ∀ sofar ∈ later.inits, takenAway sofar ≤ putIn sofar

instance (later : List Edit) : Decidable (Lasts later) :=
  inferInstanceAs (Decidable (_ ∧ _))

/-- The character that the first of these edits puts in, if it lasts through the others. -/
def survivor? : List Edit → Option Char
  | .append c :: later => if Lasts later then some c else none
  | _ => none

/-- The characters that last through all that is done after them, in the order of typing. -/
def survivors (edits : List Edit) : List Char :=
  edits.tails.filterMap survivor?

@[simp] theorem putIn_append (edits edits' : List Edit) :
    putIn (edits ++ edits') = putIn edits + putIn edits' :=
  List.countP_append

@[simp] theorem takenAway_append (edits edits' : List Edit) :
    takenAway (edits ++ edits') = takenAway edits + takenAway edits' :=
  List.count_append

section
variable {draft draft' : Draft} {edits later : List Edit} {edit : Edit}

theorem lasts_concat :
    Lasts (later ++ [edit]) ↔ Lasts later ∧ edit.empties = false
      ∧ takenAway later + takenAway [edit] ≤ putIn later + putIn [edit] := by
  simp only [Lasts, List.mem_inits, List.prefix_concat_iff, List.forall_mem_append,
    List.forall_mem_singleton, forall_eq_or_imp, putIn_append, takenAway_append]
  tauto

theorem survivors_cons :
    survivors (edit :: later) = (survivor? (edit :: later)).toList ++ survivors later := by
  unfold survivors
  rw [List.tails, List.filterMap_cons]
  cases survivor? (edit :: later) <;> rfl

/-! ## One edit -/

theorem perform_of_empties (h : edit.empties = true) (draft : Draft) :
    (draft.perform edit).2 = empty := by
  cases edit with
  | reset | drain => rfl
  | append _ | trimLast | snapshot => exact nomatch h

theorem trimLast_of_length_le (h : draft.chars.length ≤ 1) : draft.trimLast = empty := by
  apply chars_injective
  have hlength : draft.trimLast.chars.length = 0 := by
    rw [chars_trimLast, List.length_dropLast, Nat.sub_eq_zero_of_le h]
  exact List.length_eq_zero_iff.1 hlength

/-- Only taking away from nothing is more taking away than there is. -/
theorem eq_trimLast_of_lt {n : Nat} (h : n + putIn [edit] < takenAway [edit]) :
    edit = .trimLast ∧ n = 0 := by
  cases edit with
  | trimLast => exact ⟨rfl, Nat.lt_one_iff.1 h⟩
  | append _ | reset | drain | snapshot => exact absurd h (Nat.not_lt_zero _)

theorem length_perform (draft : Draft) (hempties : edit.empties = false)
    (hle : takenAway [edit] ≤ draft.chars.length + putIn [edit]) :
    (draft.perform edit).2.chars.length + takenAway [edit]
      = draft.chars.length + putIn [edit] := by
  cases edit with
  | reset | drain => exact nomatch hempties
  | append c =>
      show (draft.append c).chars.length + 0 = _ + 1
      rw [chars_append, List.length_append, List.length_singleton]
  | trimLast =>
      have hpos : 1 ≤ draft.chars.length := hle
      show draft.trimLast.chars.length + 1 = _
      rw [chars_trimLast, List.length_dropLast, Nat.sub_add_cancel hpos]
      rfl
  | snapshot => rfl

/-- Nothing is done to what lies below, as long as there is something above it to be taken away. -/
theorem chars_perform {below : List Char} (h : draft.chars = below ++ draft'.chars)
    (hempties : edit.empties = false)
    (hle : takenAway [edit] ≤ draft'.chars.length + putIn [edit]) :
    (draft.perform edit).2.chars = below ++ (draft'.perform edit).2.chars := by
  cases edit with
  | reset | drain => exact nomatch hempties
  | append c =>
      show (draft.append c).chars = _ ++ (draft'.append c).chars
      rw [chars_append, chars_append, h, List.append_assoc]
  | trimLast =>
      have hpos : 1 ≤ draft'.chars.length := hle
      show draft.trimLast.chars = _ ++ draft'.trimLast.chars
      rw [chars_trimLast, chars_trimLast, h,
        List.dropLast_append_of_ne_nil (List.length_pos_iff.1 hpos)]
  | snapshot => exact h

/-! ## From one edit to a row of them -/

/-- As long as the character below lasts, nothing is taken away but what was put in above it, and so
    what remains of that can be counted. -/
theorem Lasts.length_edited (h : Lasts later) :
    (empty.edited later).chars.length + takenAway later = putIn later := by
  -- from the end, as to last through edits is to last through every beginning of them
  induction later using List.reverseRecOn with
  | nil => rfl
  | append_singleton later edit ih =>
      obtain ⟨hlasts, hempties, hle⟩ := lasts_concat.1 h
      have hbefore := ih hlasts
      have hthis := length_perform (empty.edited later) hempties (by omega)
      rw [edited_append, edited_cons, edited_nil, takenAway_append, putIn_append]
      omega

/-- As long as they last, what is there already stays as it is, and behind it the line grows as it
    would grow from nothing. -/
theorem Lasts.chars_edited (h : Lasts later) (draft : Draft) :
    (draft.edited later).chars = draft.chars ++ (empty.edited later).chars := by
  induction later using List.reverseRecOn with
  | nil => exact (List.append_nil _).symm
  | append_singleton later edit ih =>
      obtain ⟨hlasts, hempties, hle⟩ := lasts_concat.1 h
      have hcount := hlasts.length_edited
      simp only [edited_append, edited_cons, edited_nil]
      exact chars_perform (ih hlasts) hempties (by omega)

/-- A character that does not last leaves no trace in a line that it began. -/
theorem edited_append_of_not_lasts (h : ¬ Lasts later) (c : Char) :
    (empty.append c).edited later = empty.edited later := by
  induction later using List.reverseRecOn with
  | nil => exact absurd (by decide) h
  | append_singleton later edit ih =>
      simp only [edited_append, edited_cons, edited_nil]
      by_cases hlasts : Lasts later
      · cases hempties : edit.empties with
        | true => rw [perform_of_empties hempties, perform_of_empties hempties]
        | false =>
            -- it is this edit that takes the character away, as there is nothing above it
            have hcount := hlasts.length_edited
            have hlt : (empty.edited later).chars.length + putIn [edit] < takenAway [edit] := by
              by_contra hle
              exact h (lasts_concat.2 ⟨hlasts, hempties, by omega⟩)
            obtain ⟨rfl, habove⟩ := eq_trimLast_of_lt hlt
            have hbelow : ((empty.append c).edited later).chars.length = 1 := by
              rw [hlasts.chars_edited, List.length_append, habove]
              rfl
            exact (trimLast_of_length_le hbelow.le).trans
              (trimLast_of_length_le (habove.trans_le (Nat.zero_le 1))).symm
      · rw [ih hlasts]

/-- What is left of a line are the characters that last, in the order of typing. -/
theorem chars_edited (edits : List Edit) : (empty.edited edits).chars = survivors edits := by
  -- from the beginning, as what is put in first lies below everything else
  induction edits with
  | nil => rfl
  | cons edit later ih =>
      rw [survivors_cons, edited_cons, ← ih]
      cases edit with
      | trimLast | reset | drain | snapshot => rfl
      | append c =>
          show ((empty.append c).edited later).chars
            = (if Lasts later then some c else none).toList ++ (empty.edited later).chars
          by_cases hlasts : Lasts later
          · rw [if_pos hlasts, hlasts.chars_edited]
            rfl
          · rw [if_neg hlasts, edited_append_of_not_lasts hlasts]
            rfl

/-- However often something is to be taken away, nothing comes of it where there is nothing. -/
theorem edited_append_replicate_trimLast (h : (empty.edited edits).text = "") (n : Nat) :
    empty.edited (edits ++ List.replicate n .trimLast) = empty.edited edits := by
  have hchars : (empty.edited edits).chars = [] := String.ofList_eq_empty_iff.1 h
  have hempty : empty.edited edits = empty := chars_injective hchars
  rw [edited_append, hempty, edited_replicate_trimLast]
  simp [trimTimes, empty]

end

/-! ## What comes back -/

/-- What survives editing. Take edits of a new line in any order, and any moment among them. To take
    the line out at that moment gives back, in the order of typing, exactly the characters that last
    until then: those since whose coming the line has not been emptied and there has never been more
    taking away than putting in. To look at the line at that moment gives back the same, and neither
    the line nor anything that comes back later is different for it. If there is nothing in the line
    at that moment, characters can be taken away any number of times, and neither the line nor
    anything that comes back later is different for that. -/
theorem answers_of_edits (before after : List Edit) :
    (empty.answers (before ++ .drain :: after))[before.length]?
        = some (some (String.ofList (survivors before)))
      ∧ (empty.answers (before ++ .snapshot :: after))[before.length]?
        = (empty.answers (before ++ .drain :: after))[before.length]?
      ∧ empty.edited (before ++ .snapshot :: after) = empty.edited (before ++ after)
      ∧ (empty.answers (before ++ .snapshot :: after)).eraseIdx before.length
        = empty.answers (before ++ after)
      ∧ ((empty.edited before).text = "" → ∀ n,
          empty.edited (before ++ List.replicate n .trimLast ++ after)
            = empty.edited (before ++ after)
          ∧ (empty.answers (before ++ List.replicate n .trimLast ++ after)).drop
              (before.length + n)
            = (empty.answers (before ++ after)).drop before.length) := by
  refine ⟨?_, ?_, ?_, ?_, ?_⟩
  · rw [getElem?_answers, ← chars_edited]
    rfl
  · rw [getElem?_answers, getElem?_answers]
    rfl
  · rw [edited_append, edited_append]
    rfl
  · have hlength := (length_answers empty before).le
    rw [answers_append, answers_append, List.eraseIdx_append_of_length_le hlength, length_answers,
      Nat.sub_self]
    rfl
  · intro hblank n
    have hidle := edited_append_replicate_trimLast hblank n
    have hlength : (before ++ List.replicate n Edit.trimLast).length = before.length + n := by
      rw [List.length_append, List.length_replicate]
    refine ⟨?_, ?_⟩
    · rw [edited_append, hidle, ← edited_append]
    · rw [answers_append, hidle, answers_append empty before after, ← hlength,
        List.drop_left' (length_answers _ _), List.drop_left' (length_answers _ _)]

/-- The x goes with its line, and then there is nothing to be taken away. The first h is taken away
    after what came behind it, and the third time is once too often. The second h stays, as only
    what came behind it is taken away. Taking the line out leaves nothing for the next time. -/
theorem answers_of_edits_of_slips :
    let slips : List Edit :=
      [.append 'x', .reset, .trimLast, .append 'h', .append 'i', .trimLast, .trimLast, .trimLast,
        .append 'h', .append 'a', .snapshot, .trimLast, .append 'o']
    let erased : List Edit := [.append 'a', .trimLast]
    (empty.answers (slips ++ [.drain, .drain]))[13]? = some (some "ho")
      ∧ (empty.answers (slips ++ [.snapshot, .drain]))[13]? = some (some "ho")
      ∧ (empty.answers (slips ++ [.drain] ++ [.drain]))[14]? = some (some "")
      ∧ (empty.edited erased).text = ""
      ∧ (empty.answers (erased ++ List.replicate 3 .trimLast ++ [.append 'b', .drain])).drop 5
        = [none, some "b"] := by
  intro slips erased
  have hho : String.ofList (survivors slips) = "ho" := by decide +kernel
  have hrest : String.ofList (survivors (slips ++ [.drain])) = "" := by decide +kernel
  have herased : (empty.edited erased).text = "" := by decide +kernel
  obtain ⟨hdrained, hseen, -⟩ := answers_of_edits slips [.drain]
  obtain ⟨hagain, -⟩ := answers_of_edits (slips ++ [.drain]) []
  obtain ⟨-, -, -, -, hidle⟩ := answers_of_edits erased [.append 'b', .drain]
  rw [hho] at hdrained
  rw [hrest] at hagain
  refine ⟨hdrained, hseen.trans hdrained, hagain, herased, ?_⟩
  exact (hidle herased 3).2

end LineChat.Draft
