import LineScript.Text.Excerpt
import Mathlib.Data.List.DropRight

/-!
# Trimming

A trimmed text has no blank at either end, so trimming it again changes nothing, and blanks added at
either end of a text are lost again. A text that is to be resolved is trimmed once for every layer
it goes through, and these facts are what makes one trimming as good as many.
-/

namespace LineScript.Text

/-- Trimming the end is what the library calls dropping from the right. -/
theorem trimRight_eq_rdropWhile (s : List Char) : trimRight s = s.rdropWhile isBlank := rfl

/-- A trimmed text does not start with a blank. -/
theorem isBlank_of_head?_trim {s : List Char} {c : Char} (h : (trim s).head? = some c) :
    isBlank c = false := by
  -- trimming the end does not change how a text starts, unless nothing is left
  obtain ⟨rest, h_rest⟩ := List.rdropWhile_prefix isBlank (trimLeft s)
  have h_left : (trimLeft s).head? = some c := by
    rw [← h_rest, List.head?_append]
    exact Option.or_eq_some_iff.mpr (.inl h)
  have h_not := List.head?_dropWhile_not isBlank s
  rw [← trimLeft, h_left] at h_not
  exact h_not

/-- Nor does it end with one. -/
theorem isBlank_of_getLast?_trim {s : List Char} {c : Char} (h : (trim s).getLast? = some c) :
    isBlank c = false := by
  rw [trim, trimRight, List.getLast?_reverse] at h
  have h_not := List.head?_dropWhile_not isBlank (trimLeft s).reverse
  rw [h] at h_not
  exact h_not

/-- The same, in the form in which trimming asks for it. -/
theorem not_any_head?_trim (s : List Char) : ¬ (trim s).head?.any isBlank := by
  rw [Option.any_eq_true]
  rintro ⟨c, h_head, h_blank⟩
  exact Bool.false_ne_true ((isBlank_of_head?_trim h_head).symm.trans h_blank)

/-- No blank is left at the end. -/
theorem not_any_getLast?_trim (s : List Char) : ¬ (trim s).getLast?.any isBlank := by
  rw [Option.any_eq_true]
  rintro ⟨c, h_last, h_blank⟩
  exact Bool.false_ne_true ((isBlank_of_getLast?_trim h_last).symm.trans h_blank)

/-- Trimming twice is trimming once. -/
@[simp]
theorem trim_trim (s : List Char) : trim (trim s) = trim s :=
  trim_eq_self (not_any_head?_trim s) (not_any_getLast?_trim s)

/-- A text without blanks is trimmed. -/
theorem trim_of_forall {s : List Char} (h : ∀ c ∈ s, isBlank c = false) : trim s = s := by
  refine trim_eq_self ?_ ?_
  · rw [Option.any_eq_true]
    rintro ⟨c, h_head, h_c⟩
    exact Bool.false_ne_true ((h c (List.mem_of_head? h_head)).symm.trans h_c)
  · rw [Option.any_eq_true]
    rintro ⟨c, h_last, h_c⟩
    exact Bool.false_ne_true ((h c (List.mem_of_getLast? h_last)).symm.trans h_c)

/-! ### One end -/

/-- What is trimmed off the end of two adjoining texts. -/
theorem trimRight_append (s t : List Char) :
    trimRight (s ++ t) = if trimRight t = [] then trimRight s else s ++ trimRight t := by
  rw [trimRight, List.reverse_append, List.dropWhile_append]
  split
  · -- nothing is left of the second text, so trimming goes on into the first
    next h => rw [if_pos (by rw [trimRight, List.isEmpty_iff.mp h]; rfl), trimRight]
  · next h =>
    rw [if_neg (by rw [trimRight, List.reverse_eq_nil_iff, ← List.isEmpty_iff]; exact h),
      List.reverse_append, List.reverse_reverse, trimRight]

/-- A character that is no blank stays. -/
theorem trimRight_singleton {c : Char} (h : isBlank c = false) : trimRight [c] = [c] := by
  rw [trimRight_eq_rdropWhile, List.rdropWhile_singleton, h]
  rfl

theorem trimRight_eq_nil_of_isBlank {c : Char} (h : isBlank c) : trimRight [c] = [] := by
  rw [trimRight_eq_rdropWhile, List.rdropWhile_singleton, if_pos h]

/-- A text whose last character is no blank has no blanks to lose at its end. -/
theorem trimRight_eq_self {s : List Char} (h : ¬ s.getLast?.any isBlank) : trimRight s = s := by
  refine List.rdropWhile_eq_self_iff.mpr fun h_ne h_blank => h ?_
  rw [List.getLast?_eq_some_getLast h_ne]
  exact h_blank

theorem trimRight_trimRight (s : List Char) : trimRight (trimRight s) = trimRight s :=
  List.rdropWhile_idempotent isBlank s

/-- Blanks around a text are lost. -/
theorem trim_blanks {front back : List Char} (h_front : ∀ c ∈ front, isBlank c)
    (h_back : ∀ c ∈ back, isBlank c) (s : List Char) : trim (front ++ (s ++ back)) = trim s := by
  have h_left : trimLeft (front ++ (s ++ back)) = trimLeft (s ++ back) :=
    List.dropWhile_append_of_pos h_front
  have h_right : trimRight back = [] := List.rdropWhile_eq_nil_iff.mpr h_back
  rw [trim, h_left, trimLeft, List.dropWhile_append]
  split
  · next h_empty =>
    -- there are only blanks in `s`, so those at the end go with those at the start
    have h_back' : back.dropWhile isBlank = [] := List.dropWhile_eq_nil_iff.mpr h_back
    rw [h_back', trim, trimLeft, List.isEmpty_iff.mp h_empty]
  · rw [trimRight_append, if_pos h_right, trim, trimLeft]

/-- Blanks in front of a text are lost. -/
theorem trim_blanks_append {front : List Char} (h : ∀ c ∈ front, isBlank c) (s : List Char) :
    trim (front ++ s) = trim s := by
  have h_trim := trim_blanks h (List.forall_mem_nil _) s
  rwa [List.append_nil] at h_trim

/-- Blanks behind a text are lost. -/
theorem trim_append_blanks {back : List Char} (h : ∀ c ∈ back, isBlank c) (s : List Char) :
    trim (s ++ back) = trim s :=
  trim_blanks (List.forall_mem_nil _) h s

/-- Blanks at the end of a text are not looked at as long as something else comes first. -/
theorem trimLeft_append {s : List Char} (h : trimLeft s ≠ []) (t : List Char) :
    trimLeft (s ++ t) = trimLeft s ++ t := by
  rw [trimLeft, List.dropWhile_append, if_neg (by rwa [List.isEmpty_iff]), trimLeft]

/-- Once a text is trimmed, it does not matter that its start was trimmed before. -/
theorem trim_trimLeft (s : List Char) : trim (trimLeft s) = trim s := by
  -- what was trimmed off are blanks, and they may be put back in front
  have h_blanks : ∀ c ∈ s.takeWhile isBlank, isBlank c := fun c hc =>
    List.all_eq_true.mp List.all_takeWhile c hc
  rw [← trim_blanks_append h_blanks (trimLeft s), trimLeft, List.takeWhile_append_dropWhile]

/-- Nor that its end was. -/
theorem trim_trimRight (s : List Char) : trim (trimRight s) = trim s := by
  have h_blanks : ∀ c ∈ s.rtakeWhile isBlank, isBlank c := fun c hc => List.mem_rtakeWhile_imp hc
  rw [← trim_append_blanks h_blanks (trimRight s), trimRight, List.rtakeWhile,
    ← List.reverse_append, List.takeWhile_append_dropWhile, List.reverse_reverse]

/-- A text is its trimmed text with blanks around. -/
theorem exists_blanks_trim (s : List Char) :
    ∃ front back, (∀ c ∈ front, isBlank c) ∧ (∀ c ∈ back, isBlank c) ∧
      s = front ++ trim s ++ back := by
  have h_left : s.takeWhile isBlank ++ trimLeft s = s := List.takeWhile_append_dropWhile
  have h_right : trimRight (trimLeft s) ++ (trimLeft s).rtakeWhile isBlank = trimLeft s := by
    rw [trimRight, List.rtakeWhile, ← List.reverse_append, List.takeWhile_append_dropWhile,
      List.reverse_reverse]
  refine ⟨s.takeWhile isBlank, (trimLeft s).rtakeWhile isBlank, ?_, ?_, ?_⟩
  · intro c hc
    exact List.all_eq_true.mp List.all_takeWhile c hc
  · intro c hc
    exact List.mem_rtakeWhile_imp hc
  · rw [List.append_assoc, trim, h_right, h_left]

/-- Nothing is left of a text exactly if there is nothing in it but blanks. -/
theorem trim_eq_nil_iff {s : List Char} : trim s = [] ↔ ∀ c ∈ s, isBlank c := by
  constructor
  · intro h
    obtain ⟨front, back, h_front, h_back, h_eq⟩ := exists_blanks_trim s
    rw [h, List.append_nil] at h_eq
    rw [h_eq]
    intro c hc
    exact (List.mem_append.mp hc).elim (h_front c) (h_back c)
  · intro h
    have h_trim := trim_blanks_append h []
    rwa [List.append_nil, trim_nil] at h_trim

end LineScript.Text
