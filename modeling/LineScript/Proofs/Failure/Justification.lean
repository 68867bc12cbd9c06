import LineScript.Proofs.Expression.Acceptance
import LineScript.Proofs.Failure.Noting
import LineScript.Proofs.Failure.Words

/-!
# Why a resolution fails

A resolution that fails has tried many texts, and most of their failures are of no interest. This
module says that the one it reports is about the expression it was given. `Justified` lists the
three ways to fail. Two of them are about the `core` of the expression, which is what is left of it
without blanks and parentheses around it: either nothing fits the core, or the core starts with a
sign that does not take the value of the rest. The third one names an undefined variable, and says
that the expression mentions it.

That the name is one of the expression is an invariant of the search, `head?_unbound_of_noted`: what
an operand offers for the slot is always the *first* unbound name of its text. It holds because the
right side of a cut is tried only if the left side has a value, and then all names on the left are
bound (`unbound_of_valueOf`). Everything else is read off one layer of the resolution after the
other (`failsWith_of_outcome`), since a group fails as its inside does and a search fails only as a
whole or at its sign.
-/

namespace LineScript

open Resolve Scan

variable {scope : Scope} {s : List Char} {v : Value}

/-! ### The core of an expression -/

/-- What is left of a text once the blanks at its ends and a pair of parentheses around it are taken
off, for as long as there are any. -/
def core (text : List Char) : List Char :=
  match h : group? (Text.trim text) with
  | some inside =>
    have := length_lt_of_group? h
    have := Text.length_trim_le text
    core inside
  | none => Text.trim text
termination_by text.length
decreasing_by omega

/-- The core of a group is that of its inside. -/
theorem core_of_group? {inside : List Char} (h : group? (Text.trim s) = some inside) :
    core s = core inside := by
  rw [core]
  split
  · next inside' h_inside =>
    rw [h] at h_inside
    rw [Option.some.inj h_inside]
  · next h_none =>
    rw [h] at h_none
    exact absurd h_none (by simp)

/-- A text that is no group is its own core, without its blanks. -/
theorem core_of_not_group (h : group? (Text.trim s) = none) : core s = Text.trim s := by
  rw [core]
  split
  · next inside h_inside =>
    rw [h] at h_inside
    exact absurd h_inside (by simp)
  · rfl

/-- Blanks at the ends do not belong to the core. -/
theorem core_trim (s : List Char) : core (Text.trim s) = core s := by
  cases h_group : group? (Text.trim s) with
  | none =>
    rw [core_of_not_group h_group, core_of_not_group (by rwa [Text.trim_trim]), Text.trim_trim]
  | some inside =>
    rw [core_of_group? h_group, core_of_group? (s := Text.trim s) (by rwa [Text.trim_trim])]

/-- The core mentions the same names as the text. -/
theorem unbound_core (scope : Scope) (s : List Char) :
    unbound scope (core s) = unbound scope s := by
  fun_induction core s with
  -- parentheses and blanks hold no words
  | case1 s inside h_group _ _ ih =>
    rw [ih, ← unbound_group, ← eq_of_group? h_group, unbound_trim]
  | case2 s h_group => exact unbound_trim scope s

/-! ### Signs -/

/-- The kind of value that a sign takes. -/
def Unary.takes : Unary → Kind
  | minus => .number
  | not => .boolean

/-- A sign fails on values of another kind, and says which kind it found. -/
theorem Unary.eq_of_apply_eq_error {u : Unary} {error : Error} (h : u.apply v = .error error) :
    error = .typeMismatch u.takes v.kind ∧ v.kind ≠ u.takes := by
  cases u <;> cases v <;> cases h <;> exact ⟨rfl, nofun⟩

/-! ### Names of texts with a value -/

/-- A leaf mentions a name without a value exactly if it is one. -/
theorem Atom.unbound_eq (scope : Scope) (a : Atom) :
    unbound scope a.spelling = (undefinedName? (a.eval scope)).toList := by
  cases a with
  | number spelling h => exact unbound_of_spelling (Number.spelling_of_parse? h)
  | text content h => exact unbound_quoted h
  | boolean b =>
    refine unbound_of_literal? (v := .boolean b) ?_
    cases b <;> rfl
  | name identifier h =>
    change unbound scope identifier =
      (undefinedName? (variableValue scope (String.ofList identifier))).toList
    rw [unbound_of_isIdentifier h.1, isUnbound, h.1, h.2, variableValue]
    cases scope.lookup (String.ofList identifier) <;> rfl

/-- The names of the two operands, in order. The left one leaves nothing open. -/
theorem Form.unbound_binary (scope : Scope) (o : Operator) (left right : Form) :
    unbound scope (Form.binary o left right).text =
      unbound scope left.text ++ unbound scope right.text :=
  unbound_operator scope o.1 ((left.row scope).isSealed.after_eq 0) right.text

/-- All names of a form whose tree has a value are bound. -/
theorem Form.unbound_of_eval {f : Form} (h : f.tree.eval scope = .ok v) :
    unbound scope f.text = [] := by
  induction f generalizing v with
  | atom a =>
    have h_atom : a.eval scope = .ok v := h
    rw [text, a.unbound_eq, h_atom]
    rfl
  | spaced before inside after ih => exact (unbound_blanks scope before.2 after.2 _).trans (ih h)
  | group inside ih => exact (unbound_group scope _).trans (ih h)
  | unary sign operand ih =>
    obtain ⟨x, h_x, -⟩ := exists_of_bind_eq_ok h
    exact (unbound_symbol scope sign _).trans (ih h_x)
  | binary operator left right ih_left ih_right =>
    obtain ⟨x, h_x, h_rest⟩ := exists_of_bind_eq_ok h
    obtain ⟨y, h_y, -⟩ := exists_of_bind_eq_ok h_rest
    rw [unbound_binary, ih_left h_x, ih_right h_y, List.append_nil]

/-- **A text with a value mentions no unbound name.** -/
theorem unbound_of_valueOf (h : valueOf scope s = some v) : unbound scope s = [] := by
  obtain ⟨f, rfl, h_eval⟩ := derives_of_valueOf h
  exact f.unbound_of_eval h_eval

/-! ### The first name -/

/-- Something is exposed only where nothing is open. -/
theorem Scan.Nesting.eq_of_exposes {n : Nesting} {c : Char} (h : n.exposes c) : n = {} := by
  obtain ⟨quoted, depth⟩ := n
  simp only [Nesting.exposes, Nesting.isClosed, Bool.and_eq_true, Bool.not_eq_true',
    beq_iff_eq] at h
  rw [h.1.1.1.1, h.1.1.1.2]

/-- The names of a text are those on the two sides of a cut. -/
theorem unbound_cut (scope : Scope) {members : List Calculation} {cut : Cut}
    (h : cut ∈ cutsAmong members s) :
    unbound scope s = unbound scope cut.before.toList ++ unbound scope cut.after.toList := by
  obtain ⟨l, r, h_text, h_before, h_after, -, -, -, h_mem, h_exposed⟩ := exists_sides_of_mem_cuts h
  obtain ⟨c, -, h_operator⟩ := List.mem_map.mp (List.mem_eraseDups.mp h_mem)
  obtain ⟨d, -, h_d⟩ := (Option.any_eq_true _ _).mp h_exposed
  rw [h_before, h_after, String.toList_ofList, String.toList_ofList, h_text, ← h_operator,
    unbound_operator scope c (Nesting.eq_of_exposes h_d)]

/-- A name that is no literal has no value exactly if it is mentioned as such. -/
theorem unbound_of_name (h_literal : literal? s = none) (h : Text.isIdentifier s) :
    unbound scope s = (undefinedName? (variableValue scope (String.ofList s))).toList :=
  Atom.unbound_eq scope (.name s ⟨h, (literal?_of_isIdentifier h).symm.trans h_literal⟩)

section Searched

variable (h_search : Searched s)

include h_search

/-- A search never fails with a name of its own. -/
theorem noted_of_search : noted scope s = firstMissing scope s := by
  have h_none : undefinedName? (outcome scope s) = none := by
    cases h_outcome : outcome scope s with
    | ok v => rfl
    | error error =>
      rcases error_cases_of_search h_search h_outcome with rfl | ⟨u, rest, v, -, -, h_apply⟩
      · rfl
      · rw [(u.eq_of_apply_eq_error h_apply).1]
        rfl
  rw [noted, h_none, Option.or_none]

/-- What a search notes is its first unbound name, if that holds for the operands. -/
theorem head?_unbound_of_search {name : String} (h : noted scope s = some name)
    (h_shorter : ∀ t, t.length < s.length → ∀ n, noted scope t = some n →
      (unbound scope t).head? = some n) :
    (unbound scope s).head? = some name := by
  rw [noted_of_search h_search] at h
  rcases exists_note_of_firstMissing h_search h with ⟨level, cut, h_cut, h_note⟩ | h_sign
  · rw [unbound_cut scope h_cut, List.head?_append]
    rcases Option.or_eq_some_iff.mp h_note with h_before | ⟨-, h_after⟩
    · rw [h_shorter _ (length_before_lt h_cut) _ h_before, Option.some_or]
    · -- the right side was tried because the left side has a value
      obtain ⟨x, h_x, h_after⟩ := Option.bind_eq_some_iff.mp h_after
      rw [unbound_of_valueOf h_x, h_shorter _ (length_after_lt h_cut) _ h_after]
      rfl
  · obtain ⟨⟨u, rest⟩, h_u, h_rest⟩ := Option.bind_eq_some_iff.mp h_sign
    have h_text := eq_cons_of_signOf? h_u
    have h_length : rest.length < s.length := by
      rw [h_text]
      exact Nat.lt_succ_self _
    rw [h_text, unbound_symbol]
    exact h_shorter rest h_length name h_rest

end Searched

/-- **What an operand offers for the slot is the first unbound name of its text.** -/
theorem head?_unbound_of_noted {name : String} (h : noted scope s = some name) :
    (unbound scope s).head? = some name := by
  induction s using layer_induction generalizing name with
  | blanks s ih =>
    rw [← unbound_trim]
    exact ih (by rwa [noted_trim])
  | literal s v h_trim h_literal =>
    rw [noted_of_literal? h_trim h_literal] at h
    exact absurd h (by simp)
  | name s h_trim h_literal h_name =>
    rw [noted_of_name h_trim h_literal h_name] at h
    rw [unbound_of_name h_literal h_name, h]
    rfl
  | group s inside h_trim h_literal h_name h_group ih =>
    rw [noted_of_group? h_trim h_literal h_name h_group] at h
    rw [eq_of_group? h_group, unbound_group]
    exact ih h
  | search s h_search ih => exact head?_unbound_of_search h_search h fun t h_t n => ih t h_t

/-! ### How a resolution fails -/

/-- How a text fails. This is what the search comes to; `Justified` below says what it means for the
reader of the text. -/
inductive FailsWith (scope : Scope) (s : List Char) : Error → Prop
  /-- Nothing fits the core. -/
  | unfit : FailsWith scope s (.unresolvable (String.ofList (core s)))
  /-- The first unbound name is reported. -/
  | undefined {name : String} (h : (unbound scope s).head? = some name) :
      FailsWith scope s (.undefinedVariable name)
  /-- The core starts with a sign that fails on the value of the rest. -/
  | sign {u : Unary} {rest : List Char} {v : Value} {error : Error}
      (h_core : core s = u.symbol :: rest) (h_value : valueOf scope rest = some v)
      (h_apply : u.apply v = .error error) : FailsWith scope s error

/-- A text fails like another one with the same core and the same names. -/
theorem FailsWith.of_core {t : List Char} {error : Error} (h : FailsWith scope t error)
    (h_core : core s = core t) (h_unbound : unbound scope s = unbound scope t) :
    FailsWith scope s error := by
  cases h with
  | unfit =>
    rw [← h_core]
    exact .unfit
  | undefined h => exact .undefined (h_unbound ▸ h)
  | sign h_rest h_value h_apply => exact .sign (h_core.trans h_rest) h_value h_apply

/-- How a text fails as an operand. -/
theorem failsWith_of_outcome {error : Error} (h : outcome scope s = .error error) :
    FailsWith scope s error := by
  induction s using layer_induction with
  | blanks s ih =>
    rw [outcome_trim] at ih
    exact (ih h).of_core (core_trim s).symm (unbound_trim scope s).symm
  | literal s v h_trim h_literal =>
    rw [(offers_literal h_trim h_literal).outcome_eq.1] at h
    exact absurd h (by simp)
  | name s h_trim h_literal h_name =>
    rw [(offers_name h_trim h_literal h_name).outcome_eq.1] at h
    have h_error : error = .undefinedVariable (String.ofList s) := by
      unfold variableValue at h
      split at h
      · exact absurd h (by simp)
      · exact (Except.error.inj h).symm
    rw [h_error]
    refine .undefined ?_
    rw [unbound_of_name h_literal h_name, h, h_error]
    rfl
  | group s inside h_trim h_literal h_name h_group ih =>
    rw [(offers_group h_trim h_literal h_name h_group).outcome_eq.1] at h
    refine (ih h).of_core (core_of_group? (h_trim.symm ▸ h_group)) ?_
    rw [eq_of_group? h_group, unbound_group]
  | search s h_search ih =>
    -- a text that is searched is trimmed and no group
    have h_core : core s = s := by
      rw [core_of_not_group (h_search.trim_eq.symm ▸ h_search.group?_eq), h_search.trim_eq]
    rcases error_cases_of_search h_search h with rfl | ⟨u, rest, v, h_text, h_v, h_apply⟩
    · nth_rewrite 2 [← h_core]
      exact .unfit
    · exact .sign (h_core.trans h_text) h_v h_apply

/-- **How a resolution fails.** The name in the slot takes the place of the text that nothing
fits. -/
theorem failsWith_of_resolve {expression : String} {error : Error}
    (h : scope.resolve expression = .error error) :
    FailsWith scope expression.toList error := by
  rw [resolve_eq] at h
  split at h
  · next text name h_outcome h_missing =>
    -- what is in the slot at the end was noted somewhere in the text
    rw [← Except.error.inj h]
    refine .undefined (head?_unbound_of_noted ?_)
    rw [noted, h_missing, Option.some_or]
  · exact failsWith_of_outcome h

/-- The reasons for which an expression may be refused. -/
inductive Justified (scope : Scope) (text : List Char) : Error → Prop
  /-- Nothing fits what is left of the text without blanks and parentheses around it. -/
  | unresolvable : Justified scope text (.unresolvable (String.ofList (core text)))
  /-- The text mentions a name that no frame has a value for. -/
  | undefined {name : String} (h_name : Text.isIdentifier name.toList)
      (h_literal : name ≠ "true" ∧ name ≠ "false")
      (h_frames : ∀ frame ∈ scope.frames, frame.find? name = none)
      (h_stands : StandsAlone name.toList text) : Justified scope text (.undefinedVariable name)
  /-- The text starts with a sign that does not take the value of the rest. -/
  | mismatch {u : Unary} {rest : List Char} {v : Value} (h_core : core text = u.symbol :: rest)
      (h_value : scope.resolve (String.ofList rest) = .ok v) (h_kind : v.kind ≠ u.takes) :
      Justified scope text (.typeMismatch u.takes v.kind)

/-- What the search comes to, read as a reason. A name that is first among the unbound ones is
unbound in every frame and stands alone in the text. -/
theorem justified_of_failsWith {error : Error} (h : FailsWith scope s error) :
    Justified scope s error := by
  cases h with
  | unfit => exact .unresolvable
  | undefined h =>
    obtain ⟨h_unbound, h_stands⟩ := of_mem_unbound (List.mem_of_mem_head? h)
    simp only [isUnbound, Bool.and_eq_true, Option.isNone_iff_eq_none, String.ofList_toList,
      Scope.lookup, List.findSome?_eq_none_iff] at h_unbound
    obtain ⟨⟨h_name, h_literal⟩, h_frames⟩ := h_unbound
    refine .undefined h_name ⟨?_, ?_⟩ h_frames h_stands
    · rintro rfl
      exact absurd h_literal (by decide)
    · rintro rfl
      exact absurd h_literal (by decide)
  | @sign u rest v error h_core h_value h_apply =>
    obtain ⟨rfl, h_kind⟩ := u.eq_of_apply_eq_error h_apply
    refine .mismatch h_core ((resolve_eq_ok_iff _ _ _).mpr ?_) h_kind
    rwa [String.toList_ofList]

/-! ### What a search finds -/

section Operands

variable {σ α β : Type} {operand : Operand σ}

/-- Whatever the notes are, the answer passes. -/
def Answers (x : StateM σ α) (p : α → Prop) : Prop :=
  ∀ notes, p (x.run notes).1

/-- Whatever is asked first, the answer of what follows passes. -/
theorem Answers.bind {x : StateM σ α} {f : α → StateM σ β} {p : β → Prop}
    (h : ∀ a, Answers (f a) p) : Answers (x >>= f) p :=
  fun notes => h (x.run notes).1 (x.run notes).2

/-- What is found at a cut passed the choice, wherever the values of the sides came from. -/
theorem answers_firstSides (choose : Cut → Value → Value → Option α) (cs : List Cut) :
    Answers (firstSides operand choose cs) fun found =>
      ∀ a, found = some a → ∃ cut ∈ cs, ∃ left right, choose cut left right = some a := by
  induction cs with
  | nil => exact fun _ _ h => absurd h (by simp [firstSides])
  | cons cut rest ih =>
    have h_rest : Answers (firstSides operand choose rest) fun found =>
        ∀ a, found = some a → ∃ cut' ∈ cut :: rest, ∃ left right,
          choose cut' left right = some a := by
      intro notes a h
      obtain ⟨cut', h_mem, h_choice⟩ := ih notes a h
      exact ⟨cut', List.mem_cons_of_mem cut h_mem, h_choice⟩
    rw [firstSides]
    refine Answers.bind fun left? => ?_
    -- a side without a value leads on to the next cut
    cases left? with
    | none => exact h_rest
    | some left =>
      refine Answers.bind fun right? => ?_
      cases right? with
      | none => exact h_rest
      | some right =>
        dsimp only
        cases h_choice : choose cut left right with
        | none => exact h_rest
        | some found =>
          exact fun _ a h => ⟨cut, List.mem_cons_self, left, right, h_choice.trans h⟩

/-- **A calculation that is chosen does not fail** on the values that it was chosen for. -/
theorem exists_apply_of_locateAmong {members : List Calculation} {text : List Char} {notes : σ}
    {c : Calculation} {split : Split}
    (h : ((locateAmong operand members text).run notes).1 = some (c, split)) :
    ∃ v, c.apply split.left split.right = .ok v := by
  obtain ⟨cut, -, left, right, h_choice⟩ := answers_firstSides _ _ notes _ h
  obtain ⟨-, -, h_accepts, rfl⟩ := of_chooseAmong_eq_some h_choice
  exact exists_apply_of_accepts h_accepts

end Operands

/-- **Every failure of a resolution is justified by the expression**, and no failure comes from a
calculation that a search has chosen, whatever gives the operands their values. -/
theorem resolve_error_justified (scope : Scope) (expression : String) :
    (∀ error, scope.resolve expression = .error error →
        Justified scope expression.toList error) ∧
      ∀ {σ : Type} (operand : Operand σ) (members : List Calculation) (text : List Char)
        (notes : σ) (c : Calculation) (split : Split),
        ((locateAmong operand members text).run notes).1 = some (c, split) →
          ∃ v, c.apply split.left split.right = .ok v :=
  ⟨fun _ h => justified_of_failsWith (failsWith_of_resolve h),
    fun _ _ _ _ _ _ => exists_apply_of_locateAmong⟩

/-- A sign before a text, in parentheses, and a search in which every operand is `true`. -/
theorem justified_refused_sign :
    Scope.resolve {} "( !\"no\" )" = .error (.typeMismatch .boolean .text) ∧
      Justified {} "( !\"no\" )".toList (.typeMismatch .boolean .text) ∧
      ∃ v, Calculation.equal.apply (.boolean true) (.boolean true) = .ok v := by
  have h_resolve : Scope.resolve {} "( !\"no\" )" = .error (.typeMismatch .boolean .text) := by
    rw [resolve_eq]
    decide +kernel
  have h_located : ((locateAmong (fun _ => pure (some (.boolean true)) : Operand Unit) [.equal]
      "p==q".toList).run ()).1 = some (.equal, ⟨1, .boolean true, .boolean true⟩) := by
    decide +kernel
  obtain ⟨h_justified, h_apply⟩ := resolve_error_justified {} "( !\"no\" )"
  exact ⟨h_resolve, h_justified _ h_resolve, h_apply _ _ _ _ _ _ h_located⟩

end LineScript
