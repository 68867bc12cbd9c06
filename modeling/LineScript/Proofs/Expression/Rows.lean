import LineScript.Proofs.Expression.Chain
import LineScript.Proofs.Resolve.Direct

/-!
# Texts that are rows

A text is a *row* if it consists of operands with operators between them, where an operand is a
literal, a name or a group with signs before it and blanks anywhere around. `Row scope text chain`
says so, and says which chain of values the text amounts to. It is the form in which the search
meets a text: both sides of a cut at a true operator are rows again.

* `Lexeme`: a literal, a name or a group, as the search relies on it;
* `Segment`: an operand with its signs and blanks. Any operator that is exposed in it has nothing on
  its left that could have a value (`Segment.not_endsOperand`), so it is no place to split;
* `Row`: segments with operators between them, closed under what forms are built with
  (`Row.blanks`, `Row.sign`, `Row.append`) and under trimming (`Row.trim`).
-/

namespace LineScript

open Resolve Scan
open Text (isBlank)

/-- The sign that a character is. -/
def Unary.ofChar? : Char → Option Unary
  | '-' => some .minus
  | '!' => some .not
  | _ => none

/-- A character that an operand without signs may start with. It cannot be taken for a sign, nor for
the second character of an operator. -/
def opensLexeme (c : Char) : Bool :=
  !isBlank c && c ∉ ['-', '!', '=', '&', '|']

/-- A literal, a name or a group, with its value if it has one. -/
structure Lexeme (scope : Scope) (body : List Char) (value : Option Value) : Prop where
  /-- It is resolved without a search. -/
  direct : IsDirect body
  /-- Its first character is neither a sign nor part of an operator. -/
  opens : body.head?.any opensLexeme
  /-- What it opens it closes. -/
  isSealed : Sealed body
  /-- It has this value. -/
  valueOf_eq : valueOf scope body = value

/-- Blanks and signs only. -/
def SignsOnly (front : List Char) : Prop :=
  ∀ c ∈ front, isBlank c ∨ (Unary.ofChar? c).isSome

/-- An operand with its signs, and blanks around. -/
def Segment (scope : Scope) (s : List Char) (m : SignedOperand) : Prop :=
  ∃ front body back, s = front ++ (body ++ back) ∧ SignsOnly front ∧
    m.signs = front.filterMap Unary.ofChar? ∧ Lexeme scope body m.value ∧ ∀ c ∈ back, isBlank c

/-- Operands with operators between them. -/
inductive Row (scope : Scope) : List Char → Chain → Prop
  /-- An operand alone. -/
  | single {s : List Char} {m : SignedOperand} (h : Segment scope s m) : Row scope s (.single m)
  /-- An operand, an operator, and the row that follows. -/
  | link {s t : List Char} {m : SignedOperand} {c : Chain} (h : Segment scope s m) (o : Operator)
      (h_rest : Row scope t c) : Row scope (s ++ o.symbol ++ t) (.link m o c)

variable {scope : Scope} {s t : List Char} {m : SignedOperand} {c d : Chain}

/-! ### Characters -/

/-- A sign is read from its symbol. -/
theorem Unary.ofChar?_symbol (u : Unary) : Unary.ofChar? u.symbol = some u := by
  cases u <;> rfl

/-- And only from that. -/
theorem Unary.symbol_of_ofChar? {c : Char} {u : Unary} (h : Unary.ofChar? c = some u) :
    c = u.symbol := by
  unfold ofChar? at h
  split at h
  · rw [← Option.some.inj h]
    rfl
  · rw [← Option.some.inj h]
    rfl
  · exact absurd h (by simp)

/-- Signs are written like operators. -/
theorem Unary.isOperatorChar_symbol (u : Unary) : isOperatorChar u.symbol := by
  cases u <;> decide

/-- A blank is no sign. -/
theorem Unary.ofChar?_of_isBlank {c : Char} (h : isBlank c) : Unary.ofChar? c = none := by
  unfold ofChar?
  split
  · exact absurd h (by decide)
  · exact absurd h (by decide)
  · rfl

/-- Names and numbers start a lexeme. -/
theorem opensLexeme_of_isRunChar {c : Char} (h : isRunChar c) : opensLexeme c := by
  have h_operator : ['-', '!', '=', '&', '|'].all (!isRunChar ·) := by decide
  rw [opensLexeme, isBlank_eq_false_of_isRunChar h, Bool.not_false, Bool.true_and,
    decide_eq_true_eq]
  intro h_mem
  have h_not := List.all_eq_true.mp h_operator c h_mem
  rw [h] at h_not
  exact Bool.false_ne_true h_not

/-- A lexeme does not start with a blank. -/
theorem isBlank_eq_false_of_opensLexeme {c : Char} (h : opensLexeme c) : isBlank c = false := by
  rw [opensLexeme, Bool.and_eq_true, Bool.not_eq_true'] at h
  exact h.1

/-- A literal, a name or a group has no blanks at its ends. -/
theorem trim_of_isDirect (h : IsDirect s) (h_opens : s.head?.any opensLexeme) :
    Text.trim s = s := by
  refine Text.trim_eq_self ?_ ?_
  · obtain ⟨c, h_head, h_c⟩ := (Option.any_eq_true _ _).mp h_opens
    rw [h_head, Option.any_some, isBlank_eq_false_of_opensLexeme h_c]
    exact Bool.false_ne_true
  · obtain ⟨c, h_last, h_c, -⟩ := h.exists_getLast?
    rw [h_last, Option.any_some, h_c]
    exact Bool.false_ne_true

/-- Before the operand there is nothing that could end one. -/
theorem SignsOnly.isBlank_or_isOperatorChar {front : List Char} (h : SignsOnly front) :
    ∀ c ∈ front, isBlank c ∨ isOperatorChar c := by
  intro c hc
  refine (h c hc).imp_right fun h_sign => ?_
  obtain ⟨u, h_u⟩ := Option.isSome_iff_exists.mp h_sign
  rw [Unary.symbol_of_ofChar? h_u]
  exact u.isOperatorChar_symbol

/-- Blanks hold no signs. -/
theorem filterMap_ofChar?_of_isBlank {blanks : List Char} (h : ∀ c ∈ blanks, isBlank c) :
    blanks.filterMap Unary.ofChar? = [] := by
  rw [List.filterMap_eq_nil_iff]
  exact fun c hc => Unary.ofChar?_of_isBlank (h c hc)

/-- Blanks and operators open and close nothing. -/
theorem sealed_of_isBlank_or_isOperatorChar (h : ∀ c ∈ s, isBlank c ∨ isOperatorChar c) :
    Sealed s := by
  refine .of_forall fun c hc => ?_
  refine ⟨?_, ?_, ?_⟩ <;>
    (rintro rfl; exact absurd (h _ hc) (by decide))

/-! ### Segments -/

/-- A lexeme is not empty. -/
theorem Lexeme.exists_cons {body : List Char} {v : Option Value} (h : Lexeme scope body v) :
    ∃ c rest, body = c :: rest ∧ opensLexeme c := by
  obtain ⟨c, h_head, h_c⟩ := (Option.any_eq_true _ _).mp h.opens
  obtain ⟨rest, rfl⟩ := List.head?_eq_some_iff.mp h_head
  exact ⟨c, rest, rfl, h_c⟩

namespace Segment

/-- Only the operand of a segment opens anything, and it closes what it opens. -/
theorem isSealed (h : Segment scope s m) : Sealed s := by
  obtain ⟨front, body, back, rfl, h_front, -, h_body, h_back⟩ := h
  refine (sealed_of_isBlank_or_isOperatorChar h_front.isBlank_or_isOperatorChar).append ?_
  exact h_body.isSealed.append (sealed_of_isBlank_or_isOperatorChar fun c hc => .inl (h_back c hc))

/-- A segment ends like its operand. -/
theorem endsOperand (h : Segment scope s m) : endsOperand s := by
  obtain ⟨front, body, back, rfl, h_front, -, h_body, h_back⟩ := h
  rw [endsOperand_append h_front.isBlank_or_isOperatorChar, endsOperand_append_of_isBlank h_back]
  exact h_body.direct.endsOperand

/-- A segment starts with no character that could be the second one of an operator. -/
theorem exists_cons (h : Segment scope s m) :
    ∃ c rest, s = c :: rest ∧ c ∉ ['=', '&', '|'] := by
  obtain ⟨front, body, back, rfl, h_front, -, h_body, -⟩ := h
  cases front with
  | nil =>
    obtain ⟨c, rest, rfl, h_c⟩ := h_body.exists_cons
    refine ⟨c, rest ++ back, rfl, ?_⟩
    simp only [opensLexeme, Bool.and_eq_true, decide_eq_true_eq, List.mem_cons] at h_c
    simp only [List.mem_cons]
    tauto
  | cons c front =>
    -- it starts with a sign or a blank
    refine ⟨c, front ++ (body ++ back), rfl, fun h_mem => ?_⟩
    have h_c := h_front c List.mem_cons_self
    simp only [List.mem_cons, List.not_mem_nil, or_false] at h_mem
    rcases h_mem with rfl | rfl | rfl <;> exact absurd h_c (by decide)

/-- The last character of a segment is that of its operand, or a blank after it. -/
theorem exists_getLast? (h : Segment scope s m) :
    ∃ c, s.getLast? = some c ∧ isOperatorChar c = false := by
  obtain ⟨front, body, back, rfl, -, -, h_body, h_back⟩ := h
  obtain ⟨c, h_last, -, h_c⟩ := h_body.direct.exists_getLast?
  rw [List.getLast?_append, List.getLast?_append, h_last]
  cases h_blank : back.getLast? with
  | none => exact ⟨c, rfl, h_c⟩
  -- blanks follow the operand, and a blank is no operator
  | some b =>
    refine ⟨b, rfl, ?_⟩
    rw [Bool.eq_false_iff]
    intro h_operator
    have h_b := h_back b (List.mem_of_getLast? h_blank)
    rw [(isOperatorChar_cases h_operator).2.1] at h_b
    exact Bool.false_ne_true h_b

/-- **An operator that is exposed in a segment has no operand on its left.** It is one of the signs,
or it stands in a number. -/
theorem not_endsOperand (h : Segment scope s m) {l r : List Char} {c : Char}
    (h_eq : s = l ++ c :: r) (h_exposed : (Nesting.after {} l).exposes c)
    (hc : isOperatorChar c) : Resolve.endsOperand l = false := by
  obtain ⟨front, body, back, rfl, h_front, -, h_body, h_back⟩ := h
  have h_signs := h_front.isBlank_or_isOperatorChar
  rcases append_eq_append_cons h_eq with ⟨r', rfl⟩ | ⟨l', rfl, h_rest⟩
  · -- only signs and blanks stand before it
    have h_left : ∀ d ∈ l, isBlank d ∨ isOperatorChar d := fun d hd =>
      h_signs d (List.mem_append_left _ hd)
    have h_end := endsOperand_append h_left []
    rw [List.append_nil] at h_end
    exact h_end
  · rcases append_eq_append_cons h_rest with ⟨r', rfl⟩ | ⟨l'', -, rfl⟩
    · -- in the operand itself it may be the sign of an exponent
      have h_open : Nesting.after {} front = {} :=
        (sealed_of_isBlank_or_isOperatorChar h_signs).after_eq 0
      rw [Nesting.after_append, h_open] at h_exposed
      rw [endsOperand_append h_signs]
      exact h_body.direct.not_endsOperand h_exposed hc
    · -- after the operand only blanks follow
      have h_blank := h_back c (List.mem_append_right _ List.mem_cons_self)
      rw [(isOperatorChar_cases hc).2.1] at h_blank
      exact absurd h_blank Bool.false_ne_true

end Segment

/-! ### What segments and rows are closed under -/

namespace Segment

/-- A segment may have further blanks around it. -/
theorem blanks {before after : List Char} (h : Segment scope s m)
    (h_before : ∀ c ∈ before, isBlank c) (h_after : ∀ c ∈ after, isBlank c) :
    Segment scope (before ++ s ++ after) m := by
  obtain ⟨front, body, back, rfl, h_front, h_signs, h_body, h_back⟩ := h
  refine ⟨before ++ front, body, back ++ after, by simp, ?_, ?_, h_body, ?_⟩
  · intro c hc
    rcases List.mem_append.mp hc with hc | hc
    · exact .inl (h_before c hc)
    · exact h_front c hc
  · rw [List.filterMap_append, filterMap_ofChar?_of_isBlank h_before, List.nil_append, h_signs]
  · intro c hc
    rcases List.mem_append.mp hc with hc | hc
    · exact h_back c hc
    · exact h_after c hc

/-- And a further sign before it. -/
theorem sign (h : Segment scope s m) (u : Unary) :
    Segment scope (u.symbol :: s) { m with signs := u :: m.signs } := by
  obtain ⟨front, body, back, rfl, h_front, h_signs, h_body, h_back⟩ := h
  refine ⟨u.symbol :: front, body, back, rfl, ?_, ?_, h_body, h_back⟩
  · intro c hc
    rcases List.mem_cons.mp hc with rfl | hc
    · exact .inr (by rw [u.ofChar?_symbol]; rfl)
    · exact h_front c hc
  · rw [List.filterMap_cons, u.ofChar?_symbol, h_signs]

/-- A segment may lose the blanks before its signs. -/
theorem trimLeft (h : Segment scope s m) : Segment scope (Text.trimLeft s) m := by
  obtain ⟨front, body, back, rfl, h_front, h_signs, h_body, h_back⟩ := h
  -- trimming stops at the operand at the latest
  have h_stop : (body ++ back).dropWhile isBlank = body ++ back := by
    obtain ⟨c, rest, rfl, h_c⟩ := h_body.exists_cons
    rw [List.cons_append, List.dropWhile_cons, isBlank_eq_false_of_opensLexeme h_c]
    rfl
  have h_trim : Text.trimLeft (front ++ (body ++ back)) =
      front.dropWhile isBlank ++ (body ++ back) := by
    rw [Text.trimLeft, List.dropWhile_append]
    split
    · next h_empty => rw [h_stop, List.isEmpty_iff.mp h_empty, List.nil_append]
    · rfl
  have h_blanks : ∀ c ∈ front.takeWhile isBlank, isBlank c := by
    intro c hc
    exact List.all_eq_true.mp List.all_takeWhile c hc
  refine ⟨front.dropWhile isBlank, body, back, h_trim, ?_, ?_, h_body, h_back⟩
  · intro c hc
    exact h_front c ((List.dropWhile_sublist isBlank).subset hc)
  · have h_split := List.takeWhile_append_dropWhile (p := isBlank) (l := front)
    rw [h_signs, ← h_split, List.filterMap_append, filterMap_ofChar?_of_isBlank h_blanks,
      List.nil_append, h_split]

/-- And those after its operand. -/
theorem trimRight (h : Segment scope s m) : Segment scope (Text.trimRight s) m := by
  obtain ⟨front, body, back, rfl, h_front, h_signs, h_body, h_back⟩ := h
  obtain ⟨c, h_last, h_c, -⟩ := h_body.direct.exists_getLast?
  have h_blank : Text.trimRight back = [] := List.rdropWhile_eq_nil_iff.mpr h_back
  have h_stop : Text.trimRight (front ++ body) = front ++ body := by
    refine Text.trimRight_eq_self ?_
    rw [List.getLast?_append, h_last, Option.some_or, Option.any_some, h_c]
    exact Bool.false_ne_true
  refine ⟨front, body, [], ?_, h_front, h_signs, h_body, fun c hc => absurd hc List.not_mem_nil⟩
  rw [← List.append_assoc, Text.trimRight_append, if_pos h_blank, h_stop, List.append_nil]

end Segment

namespace Row

/-- What holds of the first segment of a row holds of the row. -/
theorem exists_cons (h : Row scope s c) : ∃ d rest, s = d :: rest ∧ d ∉ ['=', '&', '|'] := by
  cases h with
  | single h => exact h.exists_cons
  | link h o h_rest =>
    obtain ⟨d, rest, rfl, h_d⟩ := h.exists_cons
    exact ⟨d, _, rfl, h_d⟩

/-- A row has a segment, and a segment is not empty. -/
theorem ne_nil (h : Row scope s c) : s ≠ [] := by
  obtain ⟨d, rest, rfl, -⟩ := h.exists_cons
  exact List.cons_ne_nil d rest

/-- What holds of the end of a segment holds of the end of a row, with its last segment. -/
theorem exists_getLast? (h : Row scope s c) :
    ∃ d, s.getLast? = some d ∧ isOperatorChar d = false := by
  induction h with
  | single h => exact h.exists_getLast?
  | link h o h_rest ih =>
    obtain ⟨d, h_last, h_d⟩ := ih
    exact ⟨d, by rw [List.getLast?_append, h_last, Option.some_or], h_d⟩

/-- Whatever is opened in a row is closed in it. -/
theorem isSealed (h : Row scope s c) : Sealed s := by
  induction h with
  | single h => exact h.isSealed
  | link h o h_rest ih =>
    refine (h.isSealed.append (sealed_of_isBlank_or_isOperatorChar fun d hd => .inr ?_)).append ih
    exact isOperatorChar_of_mem_operator hd

/-- Two rows with an operator between them are a row. -/
theorem append (hs : Row scope s c) (o : Operator) (ht : Row scope t d) :
    Row scope (s ++ o.symbol ++ t) (c.append o d) := by
  -- along the first row, as for `Chain.append`
  induction hs with
  | single h => exact .link h o ht
  | link h q h_rest ih =>
    have h_link := Row.link h q ih
    rwa [← List.append_assoc, ← List.append_assoc] at h_link

/-- A sign before a row is one of its first operand. -/
theorem sign (h : Row scope s c) (u : Unary) : Row scope (u.symbol :: s) (c.sign u) := by
  cases h with
  | single h => exact .single (h.sign u)
  | link h o h_rest => exact .link (h.sign u) o h_rest

/-- Blanks around a row make no other row of it. -/
theorem blanks {before after : List Char} (h : Row scope s c) (h_before : ∀ d ∈ before, isBlank d)
    (h_after : ∀ d ∈ after, isBlank d) : Row scope (before ++ s ++ after) c := by
  induction h generalizing before with
  | single h => exact .single (h.blanks h_before h_after)
  | link h o h_rest ih =>
    -- what stands before goes to the first segment, what stands after to the last one
    have h_none : ∀ d ∈ ([] : List Char), isBlank d := fun d hd => absurd hd List.not_mem_nil
    have h_link := Row.link (h.blanks h_before h_none) o (ih h_none)
    simpa using h_link

/-- Nor does trimming it on the left, where only its first segment is reached. -/
theorem trimLeft (h : Row scope s c) : Row scope (Text.trimLeft s) c := by
  cases h with
  | single h => exact .single h.trimLeft
  | @link s t m c h o h_rest =>
    obtain ⟨d, rest, h_cons, -⟩ := h.trimLeft.exists_cons
    have h_ne : ¬ (s.dropWhile isBlank).isEmpty := by
      rw [← Text.trimLeft, h_cons]
      exact Bool.false_ne_true
    rw [List.append_assoc, Text.trimLeft, List.dropWhile_append, if_neg h_ne, ← List.append_assoc]
    exact .link h.trimLeft o h_rest

/-- Nor on the right, where only its last segment is reached. -/
theorem trimRight (h : Row scope s c) : Row scope (Text.trimRight s) c := by
  induction h with
  | single h => exact .single h.trimRight
  | link h o h_rest ih =>
    rw [Text.trimRight_append, if_neg ih.ne_nil]
    exact .link h o ih

/-- Blanks at the ends of a row do not matter. -/
theorem trim (h : Row scope s c) : Row scope (Text.trim s) c :=
  h.trimLeft.trimRight

end Row

end LineScript
