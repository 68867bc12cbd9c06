import LineScript.Proofs.Failure.Justification

/-!
# The undefined variable that is reported

Evaluation of a tree goes from left to right and stops at the first failure. The resolver goes
through the cuts of a text from right to left and tries most of them in vain. If the tree fails at
an undefined variable, the two still agree on its name.

* That variable is the first unbound name of the text (`Form.head?_unbound_of_undefined`): what was
  evaluated before it has a value, and so all names there are bound.
* It can be no other name that the resolver reports, since it only ever reports the first unbound
  name of the text.
* It does report one (`Form.isSome_noted`). At an operator of the tree the resolver tries the left
  operand, and the right one if the left one has a value. So it comes across every operand that
  evaluation of the tree comes across.
-/

namespace LineScript

open Resolve Scan

variable {scope : Scope} {name : String} {l r s : List Char} {c d : Chain}

/-! ### Evaluation up to an undefined variable -/

/-- A sequence fails in its first part, or in the second one after the first has succeeded. -/
theorem bind_eq_error_cases {ε α β : Type} {x : Except ε α} {f : α → Except ε β} {e : ε}
    (h : x >>= f = .error e) : x = .error e ∨ ∃ a, x = .ok a ∧ f a = .error e := by
  cases x with
  | error e' => exact .inl (congrArg Except.error (Except.error.inj h))
  | ok a => exact .inr ⟨a, rfl, h⟩

/-- A mismatch of kinds is no undefined variable. -/
theorem FitsOrMismatches.ne_undefined {x : Except Error Value} (h : FitsOrMismatches x) :
    x ≠ .error (.undefinedVariable name) := by
  rintro rfl
  rcases h with ⟨v, h_v⟩ | ⟨expected, found, h_mismatch⟩
  · exact absurd h_v (by simp)
  · exact absurd h_mismatch (by simp)

namespace Expression

/-- A sign fails at no variable of its own. -/
theorem undefined_of_unary {u : Unary} {e : Expression}
    (h : (unary u e).eval scope = .error (.undefinedVariable name)) :
    e.eval scope = .error (.undefinedVariable name) := by
  rcases bind_eq_error_cases h with h_operand | ⟨v, -, h_apply⟩
  · exact h_operand
  · exact absurd h_apply (u.fitsOrMismatches_apply v).ne_undefined

/-- The variable is met on the left, or on the right if the left side has a value. -/
theorem undefined_of_binary {o : Operator} {left right : Expression}
    (h : (binary o left right).eval scope = .error (.undefinedVariable name)) :
    left.eval scope = .error (.undefinedVariable name) ∨
      ∃ v, left.eval scope = .ok v ∧ right.eval scope = .error (.undefinedVariable name) := by
  rcases bind_eq_error_cases h with h_left | ⟨v, h_v, h_rest⟩
  · exact .inl h_left
  · rcases bind_eq_error_cases h_rest with h_right | ⟨w, -, h_apply⟩
    · exact .inr ⟨v, h_v, h_right⟩
    · exact absurd h_apply ((o.meant v w).fitsOrMismatches_apply v w).ne_undefined

end Expression

/-- **The variable at which evaluation stops is the first unbound name of the text.** -/
theorem Form.head?_unbound_of_undefined {f : Form}
    (h : f.tree.eval scope = .error (.undefinedVariable name)) :
    (unbound scope f.text).head? = some name := by
  induction f with
  | atom a =>
    have h_atom : a.eval scope = .error (.undefinedVariable name) := h
    rw [text, a.unbound_eq, h_atom]
    rfl
  | spaced before inside after ih =>
    rw [text, unbound_blanks scope before.2 after.2]
    exact ih h
  | group inside ih =>
    rw [text, unbound_group]
    exact ih h
  | unary sign operand ih =>
    rw [text, unbound_symbol]
    exact ih (Expression.undefined_of_unary h)
  | binary operator left right ih_left ih_right =>
    rw [unbound_binary, List.head?_append]
    rcases Expression.undefined_of_binary h with h_left | ⟨v, h_v, h_right⟩
    · rw [ih_left h_left, Option.some_or]
    · -- all names to the left of the variable are bound
      rw [left.unbound_of_eval h_v, ih_right h_right]
      rfl

/-- A text with a value mentions no unbound name, and this one does. -/
theorem Form.valueOf_eq_none_of_undefined {f : Form}
    (h : f.tree.eval scope = .error (.undefinedVariable name)) : valueOf scope f.text = none := by
  rw [Option.eq_none_iff_forall_not_mem]
  intro v h_v
  have h_first := f.head?_unbound_of_undefined h
  rw [unbound_of_valueOf h_v] at h_first
  exact absurd h_first (by simp)

/-! ### Operators of a row -/

/-- Blanks at the ends of two rows with an operator between them. -/
theorem Row.trim_operator (hl : Row scope l c) (hr : Row scope r d) (o : Operator) :
    Text.trim (l ++ o.symbol ++ r) = Text.trimLeft l ++ o.symbol ++ Text.trimRight r := by
  have h_left : ¬ (l.dropWhile Text.isBlank).isEmpty := by
    rw [List.isEmpty_iff]
    exact hl.trimLeft.ne_nil
  rw [Text.trim, List.append_assoc, Text.trimLeft, List.dropWhile_append, if_neg h_left,
    ← List.append_assoc, Text.trimRight_append, if_neg hr.trimRight.ne_nil]
  rfl

/-- A text is cut at every operator between two rows. -/
theorem Row.mem_cutsAmong (hl : Row scope l c) (hr : Row scope r d) (o : Operator) :
    ⟨String.ofList (l ++ o.symbol ++ r), Text.byteSize l, o.symbol⟩ ∈
      cutsAmong o.level.members (l ++ o.symbol ++ r) := by
  obtain ⟨p, h_last, hp⟩ := hl.exists_getLast?
  obtain ⟨f, v, rfl, hf⟩ := hr.exists_cons
  have h_open : Nesting.after {} l = {} := hl.isSealed.after_eq 0
  -- the walk passes the left row, then the operator, and only then the right row
  rw [cutsAmong, cuts_eq_cutsWithin, List.append_assoc, cutsWithin_append, cutsWithin_append,
    h_open, h_last, Option.some_or, Nat.zero_add, List.append_nil, cutsWithin_symbol hp hf]
  refine List.mem_append_left _ (List.mem_append_right _ ?_)
  rw [if_pos rfl]
  exact List.mem_singleton_self _

/-- Two rows with an operator between them are searched. -/
theorem Row.searched_operator (hl : Row scope l c) (hr : Row scope r d) (o : Operator)
    (h_trim : Text.trim (l ++ o.symbol ++ r) = l ++ o.symbol ++ r) :
    Searched (l ++ o.symbol ++ r) := by
  have h_direct : ¬ IsDirect (l ++ o.symbol ++ r) := by
    intro h_direct
    have h_splits := (hl.append o hr).splits_eq_nil h_direct
    rw [Chain.splits_append] at h_splits
    exact absurd h_splits (by simp)
  obtain ⟨h_literal, h_name, h_group⟩ := search_of_not_isDirect h_direct
  exact ⟨h_trim, h_literal, h_name, h_group⟩

/-! ### Names are not lost -/

/-- Blanks at the start of a text do not matter to what is noted. -/
theorem noted_trimLeft (scope : Scope) (s : List Char) :
    noted scope (Text.trimLeft s) = noted scope s := by
  rw [← noted_trim, Text.trim_trimLeft, noted_trim]

/-- Nor do blanks at its end. -/
theorem noted_trimRight (scope : Scope) (s : List Char) :
    noted scope (Text.trimRight s) = noted scope s := by
  rw [← noted_trim, Text.trim_trimRight, noted_trim]

/-- Parentheses around a text whose own parentheses match make no difference either. -/
theorem noted_group (h : Sealed s) : noted scope ('(' :: (s ++ [')'])) = noted scope s := by
  have h_group := group?_of_sealed h
  exact noted_of_group? (trim_of_isDirect (.group h_group) (show opensLexeme '(' by decide))
    (literal?_cons_parenthesis _) rfl h_group

/-- The name that is noted after a sign is not lost, if the text has no value. -/
theorem Row.isSome_noted_sign (hs : Row scope s c) (u : Unary)
    (h_value : valueOf scope (u.symbol :: s) = none) (h : (noted scope s).isSome) :
    (noted scope (u.symbol :: s)).isSome := by
  have h_trim : Text.trim (u.symbol :: s) = u.symbol :: Text.trimRight s := by
    have h_left : Text.trimLeft (u.symbol :: s) = [u.symbol] ++ s :=
      List.dropWhile_cons_of_neg (by cases u <;> decide)
    rw [Text.trim, h_left, Text.trimRight_append, if_neg hs.trimRight.ne_nil]
    rfl
  rw [← noted_trim, h_trim]
  rw [← valueOf_trim, h_trim] at h_value
  have h_trimmed : Text.trim (u.symbol :: Text.trimRight s) = u.symbol :: Text.trimRight s := by
    rw [← h_trim, Text.trim_trim]
  -- the text starts with a sign, so it is no name or group; and a literal would have a value
  have h_search : Searched (u.symbol :: Text.trimRight s) := by
    refine ⟨h_trimmed, ?_, ?_, ?_⟩
    · rw [Option.eq_none_iff_forall_not_mem]
      intro v h_v
      exact absurd (h_value.symm.trans (valueOf_of_literal? h_trimmed h_v)) (by simp)
    · cases u <;> rfl
    · cases u <;> rfl
  rw [noted_of_search h_search]
  refine isSome_firstMissing_of_sign h_search h_value ?_
  rw [signNote, signOf?, Unary.ofChar?_symbol]
  change (noted scope (Text.trimRight s)).isSome
  rwa [noted_trimRight]

/-- The name that is noted beside an operator is not lost, if the text has no value. On the right
it is only noted if the left side has a value. -/
theorem Row.isSome_noted_operator (hl : Row scope l c) (hr : Row scope r d) (o : Operator)
    (h_value : valueOf scope (l ++ o.symbol ++ r) = none)
    (h : (noted scope l).isSome ∨ (valueOf scope l).isSome ∧ (noted scope r).isSome) :
    (noted scope (l ++ o.symbol ++ r)).isSome := by
  have h_trim := hl.trim_operator hr o
  rw [← noted_trim, h_trim]
  rw [← valueOf_trim, h_trim] at h_value
  have h_search := hl.trimLeft.searched_operator hr.trimRight o (by rw [← h_trim, Text.trim_trim])
  rw [noted_of_search h_search]
  refine isSome_firstMissing_of_cut h_search h_value
    (hl.trimLeft.mem_cutsAmong hr.trimRight o) ?_
  obtain ⟨h_before, h_after⟩ := @before_after_of_position
    ⟨String.ofList (Text.trimLeft l ++ o.symbol ++ Text.trimRight r),
      Text.byteSize (Text.trimLeft l), o.symbol⟩ (Text.trimLeft l) (Text.trimRight r) rfl rfl
  -- the sides of the cut have lost the blanks at the ends of the text, and nothing else
  have h_left : valueOf scope (Text.trimLeft l) = valueOf scope l := by
    rw [← valueOf_trim, Text.trim_trimLeft, valueOf_trim]
  rw [cutNote, h_before, h_after, String.toList_ofList, String.toList_ofList, h_left,
    noted_trimLeft, noted_trimRight, Option.isSome_or, Bool.or_eq_true]
  refine h.imp_right fun h_right => ?_
  obtain ⟨v, h_v⟩ := Option.isSome_iff_exists.mp h_right.1
  rw [h_v, Option.bind_some]
  exact h_right.2

/-- **A name is noted wherever evaluation stops at an undefined variable.** By induction on the
form, which must be lawful for its parts to have the values of their trees. -/
theorem Form.isSome_noted {f : Form} (h_lawful : f.Lawful)
    (h : f.tree.eval scope = .error (.undefinedVariable name)) :
    (noted scope f.text).isSome := by
  induction f with
  | atom a =>
    have h_atom : a.eval scope = .error (.undefinedVariable name) := h
    cases a with
    | number spelling h_number => exact absurd h_atom (by simp [Atom.eval])
    | text content h_text => exact absurd h_atom (by simp [Atom.eval])
    | boolean b => exact absurd h_atom (by simp [Atom.eval])
    | name identifier h_name =>
      have h_value : variableValue scope (String.ofList identifier) =
        .error (.undefinedVariable name) := h_atom
      have h_trim : Text.trim identifier = identifier := Text.trim_of_forall fun d hd =>
        isBlank_eq_false_of_isRunChar (IsDirect.isRunChar_of_mem_isIdentifier h_name.1 hd)
      have h_literal := (literal?_of_isIdentifier h_name.1).trans h_name.2
      rw [text, Atom.spelling, noted_of_name h_trim h_literal h_name.1, h_value]
      rfl
  | spaced before inside after ih =>
    rw [text, ← noted_trim, List.append_assoc, Text.trim_blanks before.2 after.2, noted_trim]
    exact ih h_lawful h
  | group inside ih =>
    rw [text, noted_group (inside.row scope).isSealed]
    exact ih h_lawful h
  | unary sign operand ih =>
    have h_value := valueOf_eq_none_of_undefined (f := .unary sign operand) h
    exact (operand.row scope).isSome_noted_sign sign h_value
      (ih h_lawful.1 (Expression.undefined_of_unary h))
  | binary operator left right ih_left ih_right =>
    have h_value := valueOf_eq_none_of_undefined (f := .binary operator left right) h
    refine (left.row scope).isSome_noted_operator (right.row scope) operator h_value ?_
    -- evaluation stopped on the left, or on the right behind a left operand with a value
    rcases Expression.undefined_of_binary h with h_left | ⟨v, h_v, h_right⟩
    · exact .inl (ih_left h_lawful.1 h_left)
    · refine .inr ⟨?_, ih_right h_lawful.2.1 h_right⟩
      rw [(left.row scope).valueOf_eq_settle, settle_chain h_lawful.1 h_v]
      rfl

/-- A resolution that has noted a name does not leave it out. -/
theorem resolve_ne_unresolvable {expression text : String}
    (h : (noted scope expression.toList).isSome) :
    scope.resolve expression ≠ .error (.unresolvable text) := by
  intro h_resolve
  rw [resolve_eq] at h_resolve
  split at h_resolve
  · exact absurd h_resolve (by simp)
  · next h_not =>
    have h_none : undefinedName? (.error (.unresolvable text)) = none := rfl
    rw [noted, h_resolve, h_none, Option.or_none] at h
    obtain ⟨name, h_name⟩ := Option.isSome_iff_exists.mp h
    exact h_not text name h_resolve h_name

/-- **The first undefined variable is the one that is reported.** -/
theorem resolve_text_of_undefined {e : Expression} (p : e.Printing) (scope : Scope) (name : String)
    (h : e.eval scope = .error (.undefinedVariable name)) :
    scope.resolve p.text = .error (.undefinedVariable name) := by
  rw [← p.tree_eq] at h
  have h_text : p.text.toList = p.form.text := String.toList_ofList
  have h_first := p.form.head?_unbound_of_undefined h
  cases h_resolve : scope.resolve p.text with
  | ok v =>
    rw [resolve_eq_ok_iff, h_text, Form.valueOf_eq_none_of_undefined h] at h_resolve
    exact absurd h_resolve (by simp)
  | error error =>
    cases failsWith_of_resolve h_resolve with
    -- a name was noted, and then the answer is a name
    | unfit =>
      have h_noted := Form.isSome_noted p.lawful h
      rw [← h_text] at h_noted
      exact absurd h_resolve (resolve_ne_unresolvable h_noted)
    -- the name that is reported is the first unbound one, as is the one that evaluation stops at
    | undefined h_name =>
      rw [h_text, h_first] at h_name
      rw [Option.some.inj h_name]
    | sign h_core h_value h_apply =>
      -- a sign is refused only if what follows it has a value, but then all names are bound
      rw [h_text] at h_core
      rw [← unbound_core, h_core, unbound_symbol, unbound_of_valueOf h_value] at h_first
      exact absurd h_first (by simp)

/-- `7 - a - -b`. The cut that is tried first, at the last sign, is no operator of the tree. -/
def laterNames : Expression :=
  .binary ⟨.subtraction, by decide⟩
    (.binary ⟨.subtraction, by decide⟩ (.atom (.number ['7'] (by decide)))
      (.atom (.name ['a'] ⟨rfl, rfl⟩)))
    (.unary .minus (.atom (.name ['b'] ⟨rfl, rfl⟩)))

/-- Without parentheses, and with a blank on each side of an operator. -/
def laterNames.printing : laterNames.Printing where
  form := .binary ⟨.subtraction, by decide⟩
    (.binary ⟨.subtraction, by decide⟩ (.spaced .none (.atom (.number ['7'] (by decide))) .one)
      (.spaced .one (.atom (.name ['a'] ⟨rfl, rfl⟩)) .one))
    (.spaced .one (.unary .minus (.atom (.name ['b'] ⟨rfl, rfl⟩))) .none)
  tree_eq := rfl
  lawful := by simp [Form.Lawful, Form.strength, Operator.level, Calculation.precedence,
    Precedence.strength]

/-- The name that comes first in the text is reported, though the last cut is tried first. -/
theorem resolve_laterNames :
    laterNames.printing.text = "7 - a - -b" ∧
      laterNames.eval {} = .error (.undefinedVariable "a") ∧
      Scope.resolve {} laterNames.printing.text = .error (.undefinedVariable "a") :=
  ⟨by decide, rfl, resolve_text_of_undefined laterNames.printing {} "a" rfl⟩

end LineScript
