import LineChat.Key.Basic

set_option autoImplicit false

/-! # The line being edited

A draft is what has been typed since the line was last entered. Characters are added and taken
away at its end only, so it is kept as a stack with the newest character on top. Whatever is done to
a draft is an `Edit`, and `perform` carries it out. -/

namespace LineChat

/-- A line that is being edited. -/
structure Draft where
  /-- The characters, newest first. -/
  typed : List Char
  deriving DecidableEq, Repr

namespace Draft

/-- A line of which nothing has been typed. -/
def empty : Draft :=
  ⟨[]⟩

/-- The characters in the order of typing. -/
def chars (draft : Draft) : List Char :=
  draft.typed.reverse

/-- The line as it stands. -/
def text (draft : Draft) : String :=
  String.ofList draft.chars

/-- Adds a character at the end. -/
def append (draft : Draft) (c : Char) : Draft :=
  ⟨c :: draft.typed⟩

/-- Takes the last character away, if there is one. -/
def trimLast (draft : Draft) : Draft :=
  ⟨draft.typed.tail⟩

/-- Takes characters away at the end, as often as asked for. -/
def trimTimes (draft : Draft) (n : Nat) : Draft :=
  ⟨draft.typed.drop n⟩

theorem chars_injective : Function.Injective chars := by
  intro draft draft' h
  exact congrArg Draft.mk (List.reverse_inj.1 h)

@[simp] theorem chars_append (draft : Draft) (c : Char) :
    (draft.append c).chars = draft.chars ++ [c] := by
  simp [append, chars]

@[simp] theorem chars_trimLast (draft : Draft) : draft.trimLast.chars = draft.chars.dropLast := by
  simp [trimLast, chars, List.dropLast_reverse]

/-- Taking away often is taking away one by one. -/
theorem trimTimes_succ (draft : Draft) (n : Nat) :
    draft.trimTimes (n + 1) = draft.trimLast.trimTimes n := by
  simp [trimTimes, trimLast, List.drop_tail]

/-! ## Edits -/

/-- Something to do to a draft. -/
inductive Edit
  | append (c : Char)
  | trimLast
  /-- Drops the line. -/
  | reset
  /-- Takes the line out. -/
  | drain
  /-- Looks at the line. -/
  | snapshot
  deriving DecidableEq, Repr

/-- Carries out an edit. What comes back is the line that was taken out or looked at. -/
def perform (draft : Draft) : Edit → Option String × Draft
  | .append c => (none, draft.append c)
  | .trimLast => (none, draft.trimLast)
  | .reset => (none, empty)
  | .drain => (some draft.text, empty)
  | .snapshot => (some draft.text, draft)

/-- The line after these edits. -/
def edited (draft : Draft) (edits : List Edit) : Draft :=
  edits.foldl (fun draft edit => (draft.perform edit).2) draft

/-- What comes back of these edits, one by one. -/
def answers (draft : Draft) : List Edit → List (Option String)
  | [] => []
  | edit :: edits => (draft.perform edit).1 :: (draft.perform edit).2.answers edits

@[simp] theorem edited_nil (draft : Draft) : draft.edited [] = draft := rfl

@[simp] theorem edited_cons (draft : Draft) (edit : Edit) (edits : List Edit) :
    draft.edited (edit :: edits) = (draft.perform edit).2.edited edits := rfl

@[simp] theorem edited_append (draft : Draft) (edits edits' : List Edit) :
    draft.edited (edits ++ edits') = (draft.edited edits).edited edits' := by
  simp [edited]

/-- Taking away often is one edit after the other. -/
theorem edited_replicate_trimLast (draft : Draft) (n : Nat) :
    draft.edited (List.replicate n .trimLast) = draft.trimTimes n := by
  induction n generalizing draft with
  | zero => rfl
  | succ n ih =>
      rw [List.replicate_succ, edited_cons, trimTimes_succ]
      exact ih _

end Draft

end LineChat
