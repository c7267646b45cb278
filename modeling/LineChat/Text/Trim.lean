import LineChat.Text.CharClass

set_option autoImplicit false

/-! # Trimming

A line is said without the blank characters around it. `trimmed` works on characters and
`trim` on strings; what is left has no blank first or last character, and it is a contiguous
part of what was given. -/

namespace LineChat.Text

/-! ## On characters -/

/-- The characters after the leading blanks. -/
def trimmedStart (cs : List Char) : List Char :=
  cs.dropWhile isBlank

/-- The characters without the blanks at either end. -/
def trimmed (cs : List Char) : List Char :=
  (trimmedStart (trimmedStart cs).reverse).reverse

/-- Leading blanks are all that is cut in front. -/
theorem takeWhile_append_trimmedStart (cs : List Char) :
    cs.takeWhile isBlank ++ trimmedStart cs = cs :=
  List.takeWhile_append_dropWhile

/-- What is left does not start with a blank. -/
theorem isBlank_of_head?_trimmedStart (cs : List Char) (c : Char)
    (h : (trimmedStart cs).head? = some c) : isBlank c = false := by
  induction cs with
  | nil => simp [trimmedStart] at h
  | cons d ds ih =>
      cases hd : isBlank d with
      | true =>
          rw [trimmedStart, List.dropWhile_cons, if_pos hd] at h
          exact ih h
      | false =>
          rw [trimmedStart, List.dropWhile_cons, if_neg (by simp [hd])] at h
          rw [List.head?_cons, Option.some.injEq] at h
          exact h ▸ hd

/-- Trimming keeps a contiguous part. -/
theorem exists_append_trimmed_append (cs : List Char) :
    ∃ front back, cs = front ++ trimmed cs ++ back := by
  have hfront := takeWhile_append_trimmedStart cs
  have hback := takeWhile_append_trimmedStart (trimmedStart cs).reverse
  refine ⟨cs.takeWhile isBlank, ((trimmedStart cs).reverse.takeWhile isBlank).reverse, ?_⟩
  rw [List.append_assoc, trimmed, ← List.reverse_append, hback, List.reverse_reverse, hfront]

/-- What is cut at the end comes behind what is left. -/
theorem trimmed_isPrefix (cs : List Char) : trimmed cs <+: trimmedStart cs := by
  have hback := takeWhile_append_trimmedStart (trimmedStart cs).reverse
  refine ⟨((trimmedStart cs).reverse.takeWhile isBlank).reverse, ?_⟩
  rw [trimmed, ← List.reverse_append, hback, List.reverse_reverse]

/-- What is left has no blank at either end. -/
theorem isBlank_of_end_trimmed (cs : List Char) (c : Char)
    (h : (trimmed cs).head? = some c ∨ (trimmed cs).getLast? = some c) : isBlank c = false := by
  rcases h with hfirst | hlast
  · obtain ⟨rest, hrest⟩ := List.head?_eq_some_iff.1 hfirst
    obtain ⟨back, hback⟩ := trimmed_isPrefix cs
    refine isBlank_of_head?_trimmedStart cs c ?_
    rw [← hback, hrest]
    rfl
  · rw [trimmed, List.getLast?_reverse] at hlast
    exact isBlank_of_head?_trimmedStart _ c hlast

/-! ## On strings -/

/-- The string without the blanks at either end. -/
def trim (s : String) : String :=
  String.ofList (trimmed s.toList)

end LineChat.Text
