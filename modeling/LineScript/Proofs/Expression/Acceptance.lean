import LineScript.Proofs.Expression.Resolution
import LineScript.Proofs.Scan.Delimiters

/-!
# What resolution accepts

The resolver is offered any text at all: with quotes left open, with a parenthesis too many, with
operators in a row. It has no grammar to check the text against. All the same it accepts nothing
that is not an expression: a text that resolves is the text of a form, and the value is that of the
form's tree (`derives_of_valueOf`). The proof follows the layers of resolution. Each way of finding
a value is one way of building a form, and the values of the smaller texts have forms by induction
on the length.

The form that is found this way need not be lawful, since the resolver may regroup. But every form
of a text, lawful or not, determines what the text resolves to (`Form.resolve_eq_ok_iff`), and it
does so through the values of its leaves alone. A text that resolves in a scope has all its names
bound there (`Form.chain_eq_of_eval`), so further names cannot matter.

* `resolve_derives`: what resolves is a form with that value, and its quotes and parentheses match;
* `resolve_of_extends`: a scope with more names resolves the text to the same value.
-/

namespace LineScript

open Resolve Scan

variable {scope scope' : Scope} {s : List Char} {v : Value}

/-- The text is that of a form whose tree has the value. -/
def Derives (scope : Scope) (s : List Char) (v : Value) : Prop :=
  ∃ f : Form, f.text = s ∧ f.tree.eval scope = .ok v

/-! ### Literals, names and groups -/

/-- A literal is an atom. The strategies are tried in the order of the reader: numbers, quoted
texts, truth values. -/
theorem derives_of_literal? (scope : Scope) (h : literal? s = some v) : Derives scope s v := by
  unfold literal? at h
  split at h
  · next x h_number =>
    have h_some : (Number.parse? s).isSome := by rw [h_number]; rfl
    refine ⟨.atom (.number s h_some), rfl, ?_⟩
    rw [← Option.some.inj h]
    simp only [Form.tree, Expression.eval, Atom.eval, h_number, Option.get_some]
  · split at h
    · next inside h_quoted =>
      obtain ⟨rfl, h_inside⟩ := quoted?_eq_some h_quoted
      rw [← Option.some.inj h]
      exact ⟨.atom (.text inside h_inside), rfl, rfl⟩
    · unfold Value.booleanLiteral? at h
      split at h
      · next h_true =>
        rw [← Option.some.inj h, h_true]
        exact ⟨.atom (.boolean true), rfl, rfl⟩
      · split at h
        · next h_false =>
          rw [← Option.some.inj h, h_false]
          exact ⟨.atom (.boolean false), rfl, rfl⟩
        · exact absurd h (by simp)

/-- A bound name is an atom. It is none of the two truth values, or it would be a literal. -/
theorem derives_of_lookup (h_literal : literal? s = none) (h_name : Text.isIdentifier s)
    (h : scope.lookup (String.ofList s) = some v) : Derives scope s v := by
  have h_boolean : Value.booleanLiteral? s = none := by
    rw [← literal?_of_isIdentifier h_name, h_literal]
  refine ⟨.atom (.name s ⟨h_name, h_boolean⟩), rfl, ?_⟩
  simp only [Form.tree, Expression.eval, Atom.eval, variableValue, h]

/-- A group is its inside in parentheses. -/
theorem eq_of_group? {inside : List Char} (h : group? s = some inside) :
    s = '(' :: (inside ++ [')']) := by
  unfold group? at h
  split at h
  · next rest =>
    split at h
    · next h_close =>
      obtain ⟨front, rfl⟩ := List.getLast?_eq_some_iff.mp (getLast?_of_closesAtEnd h_close)
      rw [List.dropLast_concat] at h
      rw [Option.some.inj h]
    · exact absurd h (by simp)
  · exact absurd h (by simp)

/-! ### Calculations and signs -/

/-- Every calculation of a level is one that an operator of the level stands for. -/
theorem exists_operator_of_mem_members {level : Precedence} {c : Calculation}
    (h : c ∈ level.members) : ∃ o : Operator, o.level = level ∧ o.symbol = c.operator := by
  have h_level : c.precedence = level := by
    simpa using (List.mem_filter.mp h).2
  by_cases hc : c = .concatenation
  · -- joining is written like adding
    subst hc
    exact ⟨⟨.addition, by decide⟩, h_level, rfl⟩
  · exact ⟨⟨c, hc⟩, h_level, rfl⟩

section Shorter

variable (h_shorter : ∀ t w, t.length < s.length → valueOf scope t = some w → Derives scope t w)

include h_shorter

/-- A value that is found at a cut is that of a calculation, whose operands are forms already. -/
theorem derives_of_valueAmong {level : Precedence}
    (h : valueAmong scope level.members s = some v) : Derives scope s v := by
  obtain ⟨cut, h_cut, h_value⟩ := List.exists_of_findSome?_eq_some h
  obtain ⟨found, h_choice, h_found⟩ := Option.bind_eq_some_iff.mp h_value
  obtain ⟨x, h_x, h_choice⟩ := Option.bind_eq_some_iff.mp h_choice
  obtain ⟨y, h_y, h_choice⟩ := Option.bind_eq_some_iff.mp h_choice
  -- both sides are shorter than the text and have values, so they are forms
  obtain ⟨f, h_f, h_left⟩ := h_shorter _ _ (Scan.length_before_lt h_cut) h_x
  obtain ⟨g, h_g, h_right⟩ := h_shorter _ _ (Scan.length_after_lt h_cut) h_y
  obtain ⟨l, r, h_text, h_before, h_after, -, -, -, h_mem, -⟩ := exists_sides_of_mem_cuts h_cut
  obtain ⟨c, h_c, h_operator⟩ := List.mem_map.mp (List.mem_eraseDups.mp h_mem)
  obtain ⟨o, rfl, h_symbol⟩ := exists_operator_of_mem_members h_c
  -- the calculation that was chosen is the one that the operator means for these values
  have h_apply : o.apply x y = .ok v := by
    refine eq_ok_of_toOption ?_
    rw [← chooseAmong_bind o cut (by rw [h_symbol, h_operator]) x y, h_choice]
    exact h_found
  refine ⟨.binary o f g, ?_, ?_⟩
  · rw [Form.text, h_f, h_g, h_symbol, h_operator, h_before, h_after, String.toList_ofList,
      String.toList_ofList]
    exact h_text.symm
  · rw [Form.tree, Expression.eval, h_left, h_right]
    exact h_apply

/-- A value that comes from a sign is that of the sign before a form. -/
theorem derives_of_signedValue (h : signedValue scope s = some v) : Derives scope s v := by
  -- the two signs differ in what they do, and not in how they are found
  have h_sign : ∀ (u : Unary) (rest : List Char), s = u.symbol :: rest → Derives scope s v := by
    rintro u rest rfl
    rw [signedValue_symbol] at h
    obtain ⟨w, h_w, h_apply⟩ := Option.bind_eq_some_iff.mp h
    obtain ⟨f, h_f, h_eval⟩ := h_shorter rest w (Nat.lt_succ_self _) h_w
    refine ⟨.unary u f, by rw [Form.text, h_f], ?_⟩
    rw [Form.tree, Expression.eval, h_eval]
    exact eq_ok_of_toOption h_apply
  cases s with
  | nil => exact absurd h (by simp [signedValue])
  | cons a rest =>
    cases h_a : Unary.ofChar? a with
    | none => exact absurd h (by rw [signedValue_eq_none h_a]; simp)
    | some u => exact h_sign u rest (by rw [Unary.symbol_of_ofChar? h_a])

end Shorter

/-- **What has a value is a form with that value.** By induction on the length of the text. -/
theorem derives_of_valueOf (h : valueOf scope s = some v) : Derives scope s v := by
  induction h_length : s.length using Nat.strong_induction_on generalizing s v with
  | _ n ih =>
    obtain ⟨front, back, h_front, h_back, h_eq⟩ := Text.exists_blanks_trim s
    have h_le := Text.length_trim_le s
    have h_trim := Text.trim_trim s
    rw [← valueOf_trim] at h
    generalize Text.trim s = t at h h_eq h_le h_trim
    have h_shorter : ∀ u w, u.length < t.length → valueOf scope u = some w → Derives scope u w :=
      fun u w h_u h_w => ih u.length (by omega) h_w rfl
    -- blanks at the ends belong to a form as well, so it is enough to derive the trimmed text
    suffices h_derives : Derives scope t v by
      obtain ⟨f, rfl, h_eval⟩ := h_derives
      exact ⟨.spaced ⟨front, h_front⟩ f ⟨back, h_back⟩, h_eq.symm, h_eval⟩
    cases h_literal : literal? t with
    | some w =>
      rw [valueOf_of_literal? h_trim h_literal, Option.some.injEq] at h
      exact h ▸ derives_of_literal? scope h_literal
    | none =>
      cases h_name : Text.isIdentifier t with
      | true =>
        rw [valueOf_of_isIdentifier h_trim h_literal h_name] at h
        exact derives_of_lookup h_literal h_name h
      | false =>
        cases h_group : group? t with
        | some inside =>
          rw [valueOf_of_group? h_trim h_literal h_name h_group] at h
          obtain ⟨f, h_f, h_eval⟩ := h_shorter inside v (length_lt_of_group? h_group) h
          exact ⟨.group f, by rw [Form.text, h_f, eq_of_group? h_group], h_eval⟩
        | none =>
          rw [valueOf_eq_search h_trim h_literal h_name h_group, Option.or_eq_some_iff] at h
          rcases h with h_level | ⟨-, h_signed⟩
          · obtain ⟨level, -, h_among⟩ := List.exists_of_findSome?_eq_some h_level
            exact derives_of_valueAmong h_shorter h_among
          · exact derives_of_signedValue h_shorter h_signed

/-! ### Delimiters -/

/-- Blanks, operator characters and the characters of names and numbers delimit nothing. -/
theorem wellDelimited_of_forall
    (h : ∀ c ∈ s, Text.isBlank c ∨ isOperatorChar c ∨ isRunChar c) : WellDelimited s := by
  refine .of_forall fun c hc h_delimiter => ?_
  have h_none : ['"', '(', ')', ','].all fun c =>
      !(Text.isBlank c || isOperatorChar c || isRunChar c) := by decide
  have h_c := List.all_eq_true.mp h_none c h_delimiter
  rcases h c hc with h_blank | h_operator | h_run
  · simp [h_blank] at h_c
  · simp [h_operator] at h_c
  · simp [h_run] at h_c

/-- So a name has no delimiter in it. -/
theorem wellDelimited_of_isIdentifier (h : Text.isIdentifier s) : WellDelimited s :=
  wellDelimited_of_forall fun _ hc => .inr (.inr (IsDirect.isRunChar_of_mem_isIdentifier h hc))

/-- The leaves of a form have no delimiters but the quotes of a text. -/
theorem Atom.wellDelimited (a : Atom) : WellDelimited a.spelling := by
  cases a with
  | number spelling h =>
    refine wellDelimited_of_forall fun c hc => .inr ?_
    rcases (Number.spelling_of_parse? h).mem_cases hc with h_mantissa | h_mark
    · exact .inr (isRunChar_of_isMantissaChar h_mantissa)
    · -- a sign is an operator, and the `e` of an exponent could stand in a name
      have h_marks : ['+', '-', 'e', 'E'].all fun c => isOperatorChar c || isRunChar c := by decide
      exact Bool.or_eq_true_iff.mp (List.all_eq_true.mp h_marks c h_mark)
  | text content h => exact .quoted h
  | boolean b =>
    refine wellDelimited_of_isIdentifier ?_
    cases b <;> decide
  | name identifier h => exact wellDelimited_of_isIdentifier h.1

/-- The delimiters of a form match. By induction on the form: only groups add parentheses, and they
add a pair. -/
theorem Form.wellDelimited (f : Form) : WellDelimited f.text := by
  induction f with
  | atom a => exact a.wellDelimited
  | spaced before inside after ih =>
    have h_blanks : ∀ b : Blanks, WellDelimited b.1 := fun b =>
      wellDelimited_of_forall fun c hc => .inl (b.2 c hc)
    exact ((h_blanks before).append ih).append (h_blanks after)
  | group inside ih => exact ih.group
  | unary sign operand ih =>
    have h_sign : WellDelimited [sign.symbol] := wellDelimited_of_forall fun c hc =>
      .inr (.inl (List.mem_singleton.mp hc ▸ sign.isOperatorChar_symbol))
    exact h_sign.append ih
  | binary operator left right ih_left ih_right =>
    have h_operator : WellDelimited operator.symbol := wellDelimited_of_forall fun c hc =>
      .inr (.inl (isOperatorChar_of_mem_operator hc))
    exact (ih_left.append h_operator).append ih_right

/-- **Nothing but expressions is accepted.** What resolves is the text of a form, up to blanks
around its parts, and the value is that of the form's tree. Its quotes are closed, its parentheses
match, and no comma stands outside of quotes. -/
theorem resolve_derives {expression : String} (h : scope.resolve expression = .ok v) :
    Derives scope expression.toList v ∧ WellDelimited expression.toList := by
  have h_derives : Derives scope expression.toList v :=
    derives_of_valueOf ((Resolve.resolve_eq_ok_iff scope expression v).mp h)
  refine ⟨h_derives, ?_⟩
  obtain ⟨f, h_text, -⟩ := h_derives
  rw [← h_text]
  exact f.wellDelimited

/-- A truth value, and a text with delimiters in it. -/
def readyLabel : Scope :=
  .ofList [("ready", .boolean false), ("label", .text "a,)")]

/-- `!( ready ) != ( label != "a,)" )`, which has delimiters inside and outside of quotes. -/
def readyLabel.form : Form :=
  .binary ⟨.notEqual, by decide⟩
    (.spaced .none (.unary .not (.group (.spaced .one
      (.atom (.name "ready".toList ⟨rfl, rfl⟩)) .one))) .one)
    (.spaced .one (.group (.spaced .one
      (.binary ⟨.notEqual, by decide⟩
        (.spaced .none (.atom (.name "label".toList ⟨rfl, rfl⟩)) .one)
        (.spaced .one (.atom (.text "a,)".toList (by decide))) .none)) .one)) .none)

/-- The form is lawful and its tree has the value `true`. -/
theorem resolve_readyLabel :
    readyLabel.resolve "!( ready ) != ( label != \"a,)\" )" = .ok (.boolean true) := by
  have h_text : "!( ready ) != ( label != \"a,)\" )" = String.ofList readyLabel.form.text := by
    decide
  have h_lawful : readyLabel.form.Lawful := by
    simp [readyLabel.form, Form.Lawful, Form.strength, Operator.level, Calculation.precedence,
      Precedence.strength]
  rw [h_text, Form.resolve_eq_ok_iff]
  exact Form.settle_chain h_lawful rfl

/-- Delimiters inside of quotes do not count. -/
theorem derives_readyLabel :
    readyLabel.resolve "!( ready ) != ( label != \"a,)\" )" = .ok (.boolean true) ∧
      Derives readyLabel "!( ready ) != ( label != \"a,)\" )".toList (.boolean true) ∧
      WellDelimited "!( ready ) != ( label != \"a,)\" )".toList :=
  ⟨resolve_readyLabel, resolve_derives resolve_readyLabel⟩

/-! ### More names -/

/-- Every name that is bound in the one scope has the same value in the other. -/
def Scope.Extends (scope' scope : Scope) : Prop :=
  ∀ name v, scope.lookup name = some v → scope'.lookup name = some v

/-- A new name in a block of its own takes nothing away. -/
theorem Scope.extends_push_bind {scope : Scope} {name : String} {v : Value}
    (h : scope.lookup name = none) : (scope.push.bind name v).Extends scope := by
  intro other w h_other
  -- a name that is bound already is another one than the new name
  have h_ne : other ≠ name := by
    rintro rfl
    rw [h] at h_other
    exact absurd h_other (by simp)
  have h_inner : (scope.push.bind name v).current.find? other = none := by
    rw [show (scope.push.bind name v).current = (∅ : Frame).insert name v from rfl,
      Table.find?_insert, if_neg h_ne]
    rfl
  rw [Scope.lookup, Scope.frames, List.findSome?_cons, h_inner]
  exact h_other

/-- A leaf with a value keeps it: only a name looks at the scope. -/
theorem Atom.eval_of_extends (h : scope'.Extends scope) {a : Atom} (h_eval : a.eval scope = .ok v) :
    a.eval scope' = .ok v := by
  cases a with
  | number spelling h_number => exact h_eval
  | text content h_text => exact h_eval
  | boolean b => exact h_eval
  | name identifier h_name =>
    rw [eval, variableValue] at h_eval ⊢
    cases h_lookup : scope.lookup (String.ofList identifier) with
    | none => simp [h_lookup] at h_eval
    | some w =>
      rw [h _ _ h_lookup]
      rwa [h_lookup] at h_eval

/-- **A form whose tree has a value amounts to the same row in every larger scope**: all its leaves
have values, and these stay. -/
theorem Form.chain_eq_of_eval (h : scope'.Extends scope) {f : Form}
    (h_eval : f.tree.eval scope = .ok v) : f.chain scope' = f.chain scope := by
  induction f generalizing v with
  | atom a =>
    have h_atom : a.eval scope = .ok v := h_eval
    unfold chain Atom.operand
    split
    · rfl
    · rw [h_atom, Atom.eval_of_extends h h_atom]
  | spaced before inside after ih => exact ih h_eval
  | group inside ih => rw [chain, chain, ih h_eval]
  | unary sign operand ih =>
    -- the tree has a value, so its parts have values
    obtain ⟨x, h_x, -⟩ := exists_of_bind_eq_ok h_eval
    rw [chain, chain, ih h_x]
  | binary operator left right ih_left ih_right =>
    obtain ⟨x, h_x, h_rest⟩ := exists_of_bind_eq_ok h_eval
    obtain ⟨y, h_y, -⟩ := exists_of_bind_eq_ok h_rest
    rw [chain, chain, ih_left h_x, ih_right h_y]

/-- **More names never change a value.** -/
theorem resolve_of_extends (h : scope'.Extends scope) {expression : String}
    (h_resolve : scope.resolve expression = .ok v) : scope'.resolve expression = .ok v := by
  obtain ⟨f, h_text, h_eval⟩ :=
    derives_of_valueOf ((Resolve.resolve_eq_ok_iff scope expression v).mp h_resolve)
  -- the two scopes search the same row, however it is grouped
  have h_expression : expression = String.ofList f.text := by rw [h_text, String.ofList_toList]
  rw [h_expression, f.resolve_eq_ok_iff] at h_resolve ⊢
  rwa [Form.chain_eq_of_eval h h_eval]

/-- A new name in a block of its own changes nothing. -/
theorem resolve_readyLabel_extended :
    (readyLabel.push.bind "a" (.boolean true)).Extends readyLabel ∧
      readyLabel.resolve "!( ready ) != ( label != \"a,)\" )" = .ok (.boolean true) ∧
      (readyLabel.push.bind "a" (.boolean true)).resolve "!( ready ) != ( label != \"a,)\" )" =
        .ok (.boolean true) :=
  have h_extends := Scope.extends_push_bind (v := .boolean true)
    (show readyLabel.lookup "a" = none from rfl)
  ⟨h_extends, resolve_readyLabel, resolve_of_extends h_extends resolve_readyLabel⟩

end LineScript
