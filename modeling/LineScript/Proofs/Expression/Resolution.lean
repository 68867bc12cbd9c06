import LineScript.Proofs.Expression.Grouping
import LineScript.Proofs.Expression.Search

/-!
# Resolution of written expressions

The text of every form is a row (`Form.row`), so resolving it comes to settling the chain of the
form (`Form.resolve_eq_ok_iff`). Two things follow about the trees that forms stand for.

* Where a tree has a value, every lawful way of writing it resolves to that value
  (`resolve_text_of_eval`): levels are respected and operators of one level group to the left,
  although the resolver knows neither tokens nor trees.
* Where a tree has no value, the text may have one all the same. If the split at the root of the
  tree fails on the kinds of the operands, the resolver goes on to other splits of the row, and may
  find another grouping that fits (`Form.grouped_of_resolve`). `Form.Regrouped` says when that
  happens, and it is the only way in which resolution departs from the tree
  (`eval_of_resolve_iff`). In `"a" == 1 < 2` the two comparisons are taken from the right
  (`resolve_regrouped_comparison`).
-/

namespace LineScript

open Resolve Scan

variable {scope : Scope}

/-! ### Leaves and groups -/

/-- A text that is resolved directly is trimmed, so it is enough to know the value of trimmed texts.
-/
theorem lexeme_of_isDirect {s : List Char} {v : Option Value} (h : IsDirect s)
    (h_opens : s.head?.any opensLexeme) (h_sealed : Sealed s)
    (h_value : Text.trim s = s → valueOf scope s = v) : Lexeme scope s v :=
  ⟨h, h_opens, h_sealed, h_value (trim_of_isDirect h h_opens)⟩

/-- A number without a minus sign is a lexeme. -/
theorem lexeme_number {s : List Char} (h : (Number.parse? s).isSome)
    (h_minus : s.head? ≠ some '-') : Lexeme scope s ((Number.parse? s).map .number) := by
  have h_spelling := Number.spelling_of_parse? h
  obtain ⟨x, h_x⟩ := Option.isSome_iff_exists.mp h
  obtain ⟨c, rest, rfl⟩ := List.exists_cons_of_ne_nil h_spelling.ne_nil
  -- it starts with a digit or a point, or with a plus sign, which is no sign of an operand
  have h_opens : opensLexeme c := by
    by_cases hc : Number.isMantissaChar c
    · exact opensLexeme_of_isRunChar (isRunChar_of_isMantissaChar hc)
    · rcases (h_spelling.head_of_not_isMantissaChar hc).1 with rfl | rfl
      · decide
      · exact absurd rfl h_minus
  refine lexeme_of_isDirect (.number h) h_opens
    (.of_forall fun d hd => h_spelling.ne_of_mem hd) fun h_trim => ?_
  rw [valueOf_of_literal? h_trim (v := .number x) (by rw [literal?, h_x]), h_x]
  rfl

/-- A quoted text is a lexeme. -/
theorem lexeme_text {content : List Char} (h : '"' ∉ content) :
    Lexeme scope ('"' :: (content ++ ['"'])) (some (.text (String.ofList content))) := by
  have h_quoted : quoted? ('"' :: (content ++ ['"'])) = some content := by
    rw [quoted?, if_pos]
    · rw [List.dropLast_concat]
    · simp [h]
  refine lexeme_of_isDirect (.quoted h_quoted) (show opensLexeme '"' by decide) (.quoted h)
    fun h_trim => valueOf_of_literal? h_trim ?_
  rw [literal?, Number.parse?_eq_none (by decide) (by decide), h_quoted]

/-- A literal that starts neither as a number nor with a quote can only be `true` or `false`. -/
theorem literal?_eq_booleanLiteral? {c : Char} {s : List Char} (hc : ¬ Number.isMantissaChar c)
    (h_sign : c ≠ '+' ∧ c ≠ '-') (h_quote : c ≠ '"') :
    literal? (c :: s) = Value.booleanLiteral? (c :: s) := by
  have h_quoted : quoted? (c :: s) = none := by
    unfold quoted?
    split
    · next h_eq => exact absurd (List.cons.inj h_eq).1 h_quote
    · rfl
  rw [literal?, Number.parse?_eq_none hc h_sign, h_quoted]

/-- A parenthesis starts no literal. -/
theorem literal?_cons_parenthesis (s : List Char) : literal? ('(' :: s) = none := by
  rw [literal?_eq_booleanLiteral? (by decide) (by decide) (by decide)]
  rfl

/-- A name starts like neither a number nor a quoted text, so it is a literal only if it is a truth
value. -/
theorem literal?_of_isIdentifier {s : List Char} (h : Text.isIdentifier s) :
    literal? s = Value.booleanLiteral? s := by
  cases s with
  | nil => exact absurd h Bool.false_ne_true
  | cons c rest =>
    have h_start : Text.isNameStart c := (Bool.and_eq_true_iff.mp h).1
    refine literal?_eq_booleanLiteral? ?_ ⟨?_, ?_⟩ ?_
    · intro h_digit
      rw [isNameStart_eq_false_of_isMantissaChar h_digit] at h_start
      exact Bool.false_ne_true h_start
    all_goals
      rintro rfl
      exact absurd h_start (by decide)

/-- A name, or one of the words `true` and `false`. -/
theorem lexeme_of_isIdentifier {s : List Char} (h : Text.isIdentifier s) :
    Lexeme scope s ((Value.booleanLiteral? s).or (scope.lookup (String.ofList s))) := by
  have h_run : ∀ d ∈ s, isRunChar d := fun d hd => IsDirect.isRunChar_of_mem_isIdentifier h hd
  have h_opens : s.head?.any opensLexeme := by
    cases s with
    | nil => exact absurd h Bool.false_ne_true
    | cons c rest => exact opensLexeme_of_isRunChar (h_run c List.mem_cons_self)
  have h_sealed : Sealed s := by
    refine .of_forall fun d hd => ?_
    have h_d := h_run d hd
    refine ⟨?_, ?_, ?_⟩ <;>
      (rintro rfl; exact absurd h_d (by decide))
  refine lexeme_of_isDirect (.name h) h_opens h_sealed fun h_trim => ?_
  have h_literal := literal?_of_isIdentifier h
  cases h_boolean : Value.booleanLiteral? s with
  | some b => rw [valueOf_of_literal? h_trim (h_literal.trans h_boolean), Option.some_or]
  | none => rw [valueOf_of_isIdentifier h_trim (h_literal.trans h_boolean) h, Option.none_or]

/-- **A row in parentheses** has the value that its chain settles to. -/
theorem Row.lexeme_group {s : List Char} {c : Chain} (h : Row scope s c) :
    Lexeme scope ('(' :: (s ++ [')'])) c.settle := by
  -- the parentheses of the row itself match, so the outer pair closes at the end only
  have h_group := group?_of_sealed h.isSealed
  refine lexeme_of_isDirect (.group h_group) (show opensLexeme '(' by decide) h.isSealed.group
    fun h_trim => ?_
  rw [valueOf_of_group? h_trim (literal?_cons_parenthesis _) rfl h_group, h.valueOf_eq_settle]

/-! ### The row of a form -/

/-- A lexeme is a segment without signs and blanks. -/
theorem Lexeme.segment {s : List Char} {v : Option Value} (h : Lexeme scope s v) :
    Segment scope s ⟨[], v⟩ := by
  refine ⟨[], s, [], by simp, ?_, rfl, h, ?_⟩
  · exact fun c hc => absurd hc List.not_mem_nil
  · exact fun c hc => absurd hc List.not_mem_nil

/-- The text of a leaf is a segment. A negative number is the exception: it is a sign and a number.
-/
theorem Atom.segment (scope : Scope) (a : Atom) : Segment scope a.spelling (a.operand scope) := by
  unfold Atom.operand
  split
  · next digits h_parse =>
    -- the minus sign of a number is a sign like any other, and none follows it
    obtain ⟨x, h_x⟩ := Option.isSome_iff_exists.mp h_parse
    obtain ⟨y, h_y, -⟩ := Number.parse?_cons_minus h_x
    have h_digits := (Number.spelling_of_parse? h_parse).head_of_not_isMantissaChar (by decide)
    have h_minus : digits.head? ≠ some '-' := by
      intro h_head
      rw [h_head] at h_digits
      exact absurd h_digits.2 (by decide)
    exact (lexeme_number (by rw [h_y]; rfl) h_minus).segment.sign .minus
  · next h_minus =>
    refine Lexeme.segment ?_
    cases a with
    | number spelling h =>
      have h_head : spelling.head? ≠ some '-' := by
        intro h_head
        obtain ⟨digits, rfl⟩ := List.head?_eq_some_iff.mp h_head
        exact h_minus digits h rfl
      have h_value : (eval scope (.number spelling h)).toOption =
          (Number.parse? spelling).map .number :=
        congrArg (Option.map Value.number) (Option.some_get h)
      rw [h_value]
      exact lexeme_number h h_head
    | text content h => exact lexeme_text h
    | boolean b =>
      cases b with
      | false => exact lexeme_of_isIdentifier (s := "false".toList) (by decide)
      | true => exact lexeme_of_isIdentifier (s := "true".toList) (by decide)
    | name identifier h =>
      have h_value : (eval scope (.name identifier h)).toOption =
          (Value.booleanLiteral? identifier).or (scope.lookup (String.ofList identifier)) := by
        rw [eval, h.2, Option.none_or, variableValue]
        cases scope.lookup (String.ofList identifier) <;> rfl
      rw [h_value]
      exact lexeme_of_isIdentifier h.1

/-- **The text of a form is a row**, and it amounts to the chain of the form. -/
theorem Form.row (scope : Scope) (f : Form) : Row scope f.text (f.chain scope) := by
  -- each way of building a form is one that rows are closed under
  induction f with
  | atom a => exact .single (a.segment scope)
  | spaced before inside after ih => exact ih.blanks before.2 after.2
  | group inside ih => exact .single ih.lexeme_group.segment
  | unary sign operand ih => exact ih.sign sign
  | binary operator left right ih_left ih_right => exact ih_left.append operator ih_right

/-- A form resolves to what its chain settles to. -/
theorem Form.resolve_eq_ok_iff (scope : Scope) (f : Form) (v : Value) :
    scope.resolve (String.ofList f.text) = .ok v ↔ (f.chain scope).settle = some v := by
  rw [Resolve.resolve_eq_ok_iff, String.toList_ofList, (f.row scope).valueOf_eq_settle]

/-! ### Trees with a value -/

/-- **Resolution respects levels and grouping.** If a tree has a value, then every lawful way of
writing it resolves to that value, whatever blanks and further parentheses are written. -/
theorem resolve_text_of_eval {e : Expression} (p : e.Printing) (scope : Scope) (v : Value)
    (h : e.eval scope = .ok v) : scope.resolve p.text = .ok v := by
  have h_eval : p.form.tree.eval scope = .ok v := by rw [p.tree_eq, h]
  have h_settle : (p.form.chain scope).settle = some v := Form.settle_chain p.lawful h_eval
  exact (p.form.resolve_eq_ok_iff scope v).mpr h_settle

/-- `true || false && false`, where the conjunction binds more strongly although it stands last. -/
def disjunctionFirst : Expression :=
  .binary ⟨.logicalOr, by decide⟩ (.atom (.boolean true))
    (.binary ⟨.logicalAnd, by decide⟩ (.atom (.boolean false)) (.atom (.boolean false)))

/-- Without parentheses, and with a blank on each side of an operator. -/
def disjunctionFirst.printing : disjunctionFirst.Printing where
  form := .binary ⟨.logicalOr, by decide⟩ (.spaced .none (.atom (.boolean true)) .one)
    (.binary ⟨.logicalAnd, by decide⟩ (.spaced .one (.atom (.boolean false)) .one)
      (.spaced .one (.atom (.boolean false)) .none))
  tree_eq := rfl
  lawful := by simp [Form.Lawful, Form.strength, Operator.level, Calculation.precedence,
    Precedence.strength]

/-- The weaker operator stands first and is the root all the same. -/
theorem resolve_disjunctionFirst :
    disjunctionFirst.printing.text = "true || false && false" ∧
      disjunctionFirst.eval {} = .ok (.boolean true) ∧
      Scope.resolve {} disjunctionFirst.printing.text = .ok (.boolean true) :=
  ⟨by decide, rfl, resolve_text_of_eval disjunctionFirst.printing {} (.boolean true) rfl⟩

/-! ### Trees without a value -/

/-- What a form resolves to is the value of one of the groupings of its row. -/
theorem Form.grouped_of_resolve {f : Form} {v : Value}
    (h : scope.resolve (String.ofList f.text) = .ok v) : (f.chain scope).Grouped v :=
  Chain.grouped_of_settle ((f.resolve_eq_ok_iff scope v).mp h)

/-- **Resolution departs from the tree only by regrouping.** What a lawful text resolves to is the
value of its tree, in a scope in which the form is not regrouped, and in no other. -/
theorem eval_of_resolve_iff {e : Expression} (p : e.Printing) (scope : Scope) :
    (∀ v, scope.resolve p.text = .ok v → e.eval scope = .ok v) ↔ ¬ p.form.Regrouped scope := by
  constructor
  · rintro h_all ⟨⟨expected, found, h_fails⟩, v, h_settle⟩
    -- a regrouped form resolves to a value that its tree does not have
    have h_eval := h_all v ((p.form.resolve_eq_ok_iff scope v).mpr h_settle)
    rw [← p.tree_eq, h_fails] at h_eval
    exact absurd h_eval (by simp)
  · intro h_not v h_resolve
    have h_settle : (p.form.chain scope).settle = some v :=
      (p.form.resolve_eq_ok_iff scope v).mp h_resolve
    cases h_eval : e.eval scope with
    | error error =>
      have h_fails : p.form.tree.eval scope = .error error := by rw [p.tree_eq, h_eval]
      exact absurd (Form.regrouped_of_settle h_settle h_fails) h_not
    | ok w =>
      -- a tree with a value settles to it, so the two values are the same
      have h_tree : (p.form.chain scope).settle = some w :=
        Form.settle_chain p.lawful (by rw [p.tree_eq, h_eval])
      rw [h_tree] at h_settle
      rw [Option.some.inj h_settle]

/-- A text that is compared with the outcome of a comparison. The tree compares the text with the
first number, and has no use for the outcome in the second comparison. -/
def comparisons : Expression :=
  .binary ⟨.less, by decide⟩
    (.binary ⟨.equal, by decide⟩ (.atom (.text ['a'] (by decide)))
      (.atom (.number ['1'] (by decide))))
    (.atom (.number ['2'] (by decide)))

/-- Without parentheses, and with a blank on each side of an operator. -/
def comparisons.printing : comparisons.Printing where
  form := .binary ⟨.less, by decide⟩
    (.binary ⟨.equal, by decide⟩ (.spaced .none (.atom (.text ['a'] (by decide))) .one)
      (.spaced .one (.atom (.number ['1'] (by decide))) .one))
    (.spaced .one (.atom (.number ['2'] (by decide))) .none)
  tree_eq := rfl
  lawful := by simp [Form.Lawful, Form.strength, Operator.level, Calculation.precedence,
    Precedence.strength]

/-- The row of the two comparisons, taken from the right. -/
theorem settle_comparisons (scope : Scope) :
    (comparisons.printing.form.chain scope).settle = some (.boolean false) := by
  -- the order of the two numbers is left open: either way the outcome is no text
  have h_row : ∀ (s : String) (x y : Float), (Chain.link ⟨[], some (.text s)⟩ ⟨.equal, by decide⟩
      (.link ⟨[], some (.number x)⟩ ⟨.less, by decide⟩ (.single ⟨[], some (.number y)⟩))).settle =
        some (.boolean false) := by
    intro s x y
    refine (Chain.settle_triple (.text s) (.number x) (.number y) ?_).trans ?_
    · rfl
    · rfl
  exact h_row _ _ _

/-- In `"a" == 1 < 2` the comparisons are taken from the right, although the tree takes them from
the left and has no value. -/
theorem resolve_regrouped_comparison :
    comparisons.printing.text = "\"a\" == 1 < 2" ∧
      comparisons.eval {} = .error (.typeMismatch .number .boolean) ∧
      Scope.resolve {} comparisons.printing.text = .ok (.boolean false) :=
  ⟨by decide, rfl, (comparisons.printing.form.resolve_eq_ok_iff {} _).mpr (settle_comparisons {})⟩

end LineScript
