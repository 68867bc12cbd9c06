import LineScript.Proofs.Scan.Order
import LineScript.Proofs.Script.Forms

/-!
# Which lines are assignments

`assignment?` looks for its sign the way operators are looked for: it lists the exposed, lone `=` of
a line from the right, and takes the last one listed. This comes to a plain condition on how the
line starts. There is a name, with blanks around it, then an `=` that no second one follows, and
then something that is not blank.

* `Assigns`: that condition;
* `assignment?_eq_some_iff`: **a line is an assignment exactly if it starts like one**. The search
  skips quotes and parentheses and every `=` that belongs to a comparison. But a line with any of
  these before its first lone `=` has no name there, so nothing is lost by reading it from the left;
* `Assigns.exists_sign_before`: whatever operator stands in an assignment stands behind its sign;
* `Assigns.append`, `Assigns.of_append`: once a line has its sign, or has something open, what is to
  come does not matter.
-/

namespace LineScript.Script

open Resolve (isRunChar)
open Scan
open Text (isBlank)

/-- The text is a name with blanks around it, a lone `=` and the expression. -/
structure Assigns (text name expression : List Char) : Prop where
  isIdentifier : Text.isIdentifier name
  /-- What stands before the name, between the name and the sign, and after the sign. -/
  parts : ∃ front back right, text = front ++ name ++ back ++ '=' :: right ∧
    (∀ c ∈ front, isBlank c) ∧ (∀ c ∈ back, isBlank c) ∧ right.head? ≠ some '=' ∧
    expression = Text.trim right
  ne_nil : expression ≠ []

/-- **A line is an assignment exactly if it starts like one.** -/
theorem assignment?_eq_some_iff {text name expression : List Char} :
    assignment? text = some (name, expression) ↔ Assigns text name expression := by
  constructor
  · intro h
    unfold assignment? at h
    split at h
    · exact absurd h (by simp)
    · next cut h_last =>
      -- that the cut is the leftmost one is not needed: any cut with a name before it would do
      obtain ⟨h_operator, l, coming, rfl, h_divides⟩ :=
        mem_cuts_iff.mp (List.mem_of_getLast? h_last)
      obtain ⟨-, -, d, r, rfl, h_clash⟩ := exists_of_meets h_divides.isMet
      have h_text := h_divides.text_eq
      rw [← List.append_assoc] at h_text
      obtain ⟨h_before, h_after⟩ := before_after_of_position h_text h_divides.position_eq
      simp only [h_before, h_after, String.toList_ofList, Option.ite_none_right_eq_some,
        Bool.and_eq_true, Bool.not_eq_true', List.isEmpty_eq_false_iff, Option.some.injEq,
        Prod.mk.injEq] at h
      obtain ⟨⟨h_name, h_ne⟩, rfl, rfl⟩ := h
      -- trimming the left side gives the name with the blanks that stood around it
      obtain ⟨front, back, h_front, h_back, h_l⟩ := Text.exists_blanks_trim l
      refine ⟨h_name, ⟨front, back, d :: r, ?_, h_front, h_back, ?_, rfl⟩, h_ne⟩
      · rw [List.mem_singleton.mp h_operator, ← h_l]
        rfl
      · -- the sign would be a part of `==`
        intro h_d
        rw [List.mem_singleton.mp h_operator, Option.some.inj h_d] at h_clash
        exact h_clash rfl
  · rintro ⟨h_name, ⟨front, back, right, rfl, h_front, h_back, h_right, rfl⟩, h_ne⟩
    exact assignment?_append h_name h_front h_back h_right h_ne

namespace Assigns

variable {text left rest name expression : List Char}

/-- An operator in an assignment stands behind the sign, whichever operator it is. -/
theorem exists_sign_before {c : Calculation} {right : List Char}
    (h : Assigns (left ++ c.operator ++ right) name expression) :
    ∃ front back between, left = front ++ name ++ back ++ '=' :: between ∧
      (∀ d ∈ front, isBlank d) ∧ ∀ d ∈ back, isBlank d := by
  obtain ⟨h_name, ⟨front, back, r, h_eq, h_front, h_back, h_r, -⟩, -⟩ := h
  -- the first character of the operator is compared with where the sign stands
  obtain ⟨o, operator, h_operator⟩ : ∃ o operator, c.operator = o :: operator :=
    List.exists_cons_of_ne_nil (by cases c <;> decide)
  rw [h_operator, List.append_assoc, List.cons_append] at h_eq
  rcases append_eq_append_cons h_eq.symm with ⟨r', h_left⟩ | ⟨between, rfl, h_sign⟩
  · -- the operator would be a part of the name, or of the blanks around it
    have h_mem : o ∈ front ++ name ++ back :=
      h_left ▸ List.mem_append_right left List.mem_cons_self
    have h_o := Resolve.isOperatorChar_of_mem_operator (h_operator ▸ List.mem_cons_self)
    obtain ⟨h_run, h_blank, -⟩ := Resolve.isOperatorChar_cases h_o
    have h_kind := isRunChar_or_isBlank_of_mem h_name h_front h_back h_mem
    simp [h_run, h_blank] at h_kind
  · cases between with
    | nil =>
      -- only `==` starts like the sign, and then a second `=` follows the sign
      obtain ⟨rfl, rfl⟩ := List.cons.inj h_sign
      have h_equal : operator = ['='] := by
        cases c <;> simp_all [Calculation.operator]
      exact absurd (by rw [h_equal]; rfl) h_r
    | cons e between =>
      obtain ⟨rfl, -⟩ := List.cons.inj h_sign
      exact ⟨front, back, between, rfl, h_front, h_back⟩

/-- An assignment goes on as one. -/
theorem append (h : Assigns left name expression) (rest : List Char) :
    ∃ expression', Assigns (left ++ rest) name expression' := by
  obtain ⟨h_name, ⟨front, back, r, rfl, h_front, h_back, h_r, rfl⟩, h_ne⟩ := h
  refine ⟨_, h_name, ⟨front, back, r ++ rest, by simp, h_front, h_back, ?_, rfl⟩, ?_⟩
  · -- what comes right after the sign is the same as before, since something is there
    cases r with
    | nil => exact absurd rfl h_ne
    | cons d r => exact h_r
  · -- and what is not blank stays in the expression
    intro h_blank
    refine h_ne (Text.trim_eq_nil_iff.mpr fun c hc => ?_)
    exact Text.trim_eq_nil_iff.mp h_blank c (List.mem_append_left rest hc)

/-- Where something is open, an assignment has already got its sign. -/
theorem of_append (h : Assigns (left ++ rest) name expression)
    (h_open : (Nesting.after {} left).isClosed = false) :
    ∃ expression', Assigns left name expression' := by
  obtain ⟨h_name, ⟨front, back, r, h_eq, h_front, h_back, h_r, -⟩, -⟩ := h
  have h_kinds : ∀ c ∈ front ++ name ++ back, isRunChar c ∨ isBlank c := fun _ hc =>
    isRunChar_or_isBlank_of_mem h_name h_front h_back hc
  rcases List.append_eq_append_iff.mp h_eq with ⟨m, h_left, -⟩ | ⟨m, rfl, h_m⟩
  · -- a part of the name opens nothing
    have h_closed := after_eq_of_isRunChar_or_isBlank fun c hc =>
      h_kinds c (h_left ▸ List.mem_append_left m hc)
    rw [h_closed] at h_open
    exact absurd h_open (by decide)
  rw [Nesting.after_append, after_eq_of_isRunChar_or_isBlank h_kinds] at h_open
  cases m with
  | nil => exact absurd h_open (by decide)
  | cons d m =>
    obtain ⟨rfl, rfl⟩ := List.cons.inj h_m
    have h_more : Text.trim m ≠ [] := by
      intro h_blank
      -- blanks open nothing either
      have h_closed := after_eq_of_isRunChar_or_isBlank fun c hc =>
        .inr (Text.trim_eq_nil_iff.mp h_blank c hc)
      have h_sign : Nesting.next {} '=' = {} := rfl
      rw [Nesting.after_cons, h_sign, h_closed] at h_open
      exact absurd h_open (by decide)
    refine ⟨_, h_name, ⟨front, back, m, rfl, h_front, h_back, ?_, rfl⟩, h_more⟩
    cases m with
    | nil => exact absurd rfl h_more
    | cons e m => exact h_r

end Assigns

/-- What is assigned to does not depend on what follows an assignment, or an open quote or
parenthesis. -/
theorem map_fst_assignment?_append {left : List Char}
    (h : (Nesting.after {} left).isClosed = false ∨ (assignment? left).isSome) (rest : List Char) :
    (assignment? (left ++ rest)).map Prod.fst = (assignment? left).map Prod.fst := by
  cases h_left : assignment? left with
  | some parts =>
    obtain ⟨expression, h_append⟩ := (assignment?_eq_some_iff.mp h_left).append rest
    rw [assignment?_eq_some_iff.mpr h_append]
    rfl
  | none =>
    -- the line is no assignment yet, so something is open, and it cannot become one
    have h_open : (Nesting.after {} left).isClosed = false := by simpa [h_left] using h
    cases h_append : assignment? (left ++ rest) with
    | none => rfl
    | some parts =>
      obtain ⟨expression, h_assigns⟩ := (assignment?_eq_some_iff.mp h_append).of_append h_open
      rw [assignment?_eq_some_iff.mpr h_assigns] at h_left
      exact absurd h_left (by simp)

/-- **Assignments are exactly the lines that start with a name and a lone `=`.** No comparison is
taken for one, nor any other calculation: before its operator stands the sign of the assignment, or
the line is none. A sign that stands in quotes or parentheses, or further to the right, does not
matter, nor does anything else there. And a name and an expression written with the sign between
them are read back. -/
theorem assignments_exact :
    (∀ text name expression : List Char,
      assignment? text = some (name, expression) ↔ Assigns text name expression) ∧
    (∀ (c : Calculation) (left right : List Char), '=' ∉ left →
      assignment? (left ++ c.operator ++ right) = none) ∧
    (∀ (c : Calculation) (left right name expression : List Char),
      assignment? (left ++ c.operator ++ right) = some (name, expression) →
        ∃ front back between, left = front ++ name ++ back ++ '=' :: between ∧
          (∀ d ∈ front, isBlank d) ∧ ∀ d ∈ back, isBlank d) ∧
    (∀ left rest : List Char,
      (Nesting.after {} left).isClosed = false ∨ (assignment? left).isSome →
        (assignment? (left ++ rest)).map Prod.fst = (assignment? left).map Prod.fst) ∧
    ∀ name expression : List Char, Text.isIdentifier name →
      Text.trim expression = expression → expression ≠ [] →
        assignment? (name ++ " = ".toList ++ expression) = some (name, expression) := by
  refine ⟨fun _ _ _ => assignment?_eq_some_iff, ?_, ?_, ?_, ?_⟩
  · intro c left right h_left
    rw [Option.eq_none_iff_forall_not_mem]
    rintro ⟨name, expression⟩ h
    obtain ⟨front, back, between, rfl, -⟩ := (assignment?_eq_some_iff.mp h).exists_sign_before
    exact h_left (List.mem_append_right _ List.mem_cons_self)
  · intro c left right name expression h
    exact (assignment?_eq_some_iff.mp h).exists_sign_before
  · intro left rest h
    exact map_fst_assignment?_append h rest
  · intro name expression h_name h_trim h_ne
    exact assignment?_spaced h_name h_trim h_ne

/-- The outcome of a comparison is assigned, the comparison alone assigns nothing, and a sign in
quotes makes no assignment of a command. -/
theorem assignments_exact_flag :
    assignment? ("flag".toList ++ " = ".toList ++ "a == b".toList) =
        some ("flag".toList, "a == b".toList) ∧
      assignment? ("a ".toList ++ Calculation.equal.operator ++ " b".toList) = none ∧
      (Nesting.after {} "say(\"level".toList).isClosed = false ∧
      (assignment? ("say(\"level".toList ++ "= 3\")".toList)).map Prod.fst = none := by
  obtain ⟨-, h_operator, -, h_hidden, h_spaced⟩ := assignments_exact
  have h_open : (Nesting.after {} "say(\"level".toList).isClosed = false := by decide
  have h_say := h_hidden "say(\"level".toList "= 3\")".toList (.inl h_open)
  have h_none : assignment? "say(\"level".toList = none := by decide
  rw [h_none] at h_say
  exact ⟨h_spaced _ _ (by decide) (by decide) (by decide),
    h_operator .equal "a ".toList " b".toList (by decide), h_open, h_say⟩

end LineScript.Script
