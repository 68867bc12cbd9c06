import LineScript.Proofs.Expression.Chain

/-!
# Groupings of a row

A tree is one way of putting the operands of a row together, and there are others. The search of
`Chain.settle` prefers the documented one, but what it insists on is only that every operator takes
the values that it is given. Two things about the row limit what it can come to otherwise.

* `Chain.Grouped`: some grouping of the row has a value. The search makes nothing up
  (`Chain.grouped_of_settle`);
* `Chain.Complete`: every operand has a value. A row with a grouping is complete
  (`Chain.Grouped.complete`), so a name without a value is never passed over;
* `Form.Regrouped`: the tree that is meant fails on the kinds of its values, and the row has a value
  all the same. A tree that fails in any other way is not regrouped (`Form.regrouped_of_settle`);
* `Chain.settle_triple`: with two operators of one level, the regrouping is to the right.
-/

namespace LineScript

/-- Only a success has a value. -/
theorem eq_ok_of_toOption {ε α : Type} {x : Except ε α} {a : α} (h : x.toOption = some a) :
    x = .ok a := by
  cases x with
  | error e => exact absurd h (by simp [Except.toOption])
  | ok b => rw [Option.some.inj h]

namespace Chain

/-- Some grouping of the row has the value. A grouping may put any part of the row together,
whatever the strengths of the operators are, and apply a sign to any part that starts with it. -/
inductive Grouped : Chain → Value → Prop
  /-- An operand with a value, and no signs left. -/
  | operand (v : Value) : Grouped (single ⟨[], some v⟩) v
  /-- A sign before a row. -/
  | sign {c : Chain} {s : Unary} {v w : Value} (h : Grouped c v) (h_apply : s.apply v = .ok w) :
      Grouped (c.sign s) w
  /-- Two rows and the operator between them. -/
  | operator {c d : Chain} {o : Operator} {x y v : Value} (hc : Grouped c x) (hd : Grouped d y)
      (h_apply : o.apply x y = .ok v) : Grouped (c.append o d) v

/-- The two sides of a split and its operator make up the row. -/
theorem append_of_mem_splits {c : Chain} {s : Split} (h : s ∈ c.splits) :
    s.left.append s.operator s.right = c := by
  induction c generalizing s with
  | single m => exact absurd h List.not_mem_nil
  | link m o rest ih =>
    rcases List.mem_append.mp h with h_mem | h_mem
    · obtain ⟨t, h_t, rfl⟩ := List.mem_map.mp h_mem
      rw [Chain.append, ih h_t]
    · rw [List.mem_singleton.mp h_mem]
      rfl

/-- So do the first sign of a row and what is left without it. -/
theorem sign_of_firstSign? {c d : Chain} {s : Unary} (h : c.firstSign? = some (s, d)) :
    d.sign s = c := by
  unfold firstSign? at h
  split at h
  · cases h
    rfl
  · cases h
    rfl
  · exact absurd h (by simp)

/-- **The search makes nothing up**: what a row settles to is the value of one of its groupings. -/
theorem grouped_of_settle {c : Chain} {v : Value} (h : c.settle = some v) : c.Grouped v := by
  -- induction on the number of operators and signs, which both a split and taking off a sign lower
  induction h_size : c.size using Nat.strongRecOn generalizing c v with
  | ind n ih =>
    subst h_size
    rw [settle_eq, Option.or_eq_some_iff] at h
    rcases h with h_levels | ⟨-, h_sign⟩
    · -- the value was found at a split, whose sides have groupings by induction
      obtain ⟨level, -, h_level⟩ := List.exists_of_findSome?_eq_some h_levels
      obtain ⟨s, h_mem, h_split⟩ := List.exists_of_findSome?_eq_some h_level
      split at h_split
      · obtain ⟨x, h_x, h_split⟩ := Option.bind_eq_some_iff.mp h_split
        obtain ⟨y, h_y, h_apply⟩ := Option.bind_eq_some_iff.mp h_split
        obtain ⟨h_left, h_right⟩ := size_lt_of_mem_splits h_mem
        rw [← append_of_mem_splits h_mem]
        exact .operator (ih _ h_left h_x rfl) (ih _ h_right h_y rfl) (eq_ok_of_toOption h_apply)
      · exact absurd h_split (by simp)
    · unfold settleSign at h_sign
      split at h_sign
      · -- no split has a value, and a sign was taken off
        next s d h_first =>
        obtain ⟨x, h_x, h_apply⟩ := Option.bind_eq_some_iff.mp h_sign
        rw [← sign_of_firstSign? h_first]
        exact .sign (ih _ (size_lt_of_firstSign? h_first) h_x rfl) (eq_ok_of_toOption h_apply)
      · unfold bareValue at h_sign
        split at h_sign
        · rw [h_sign]
          exact .operand v
        · exact absurd h_sign (by simp)

/-! ### Rows in which every operand has a value -/

/-- Every operand has a value. -/
def Complete : Chain → Prop
  | single m => m.value.isSome
  | link m _ rest => m.value.isSome ∧ rest.Complete

/-- Signs are no operands. -/
theorem complete_sign {c : Chain} {s : Unary} : (c.sign s).Complete ↔ c.Complete := by
  cases c <;> rfl

/-- The operands of two rows with an operator between them are those of both. -/
theorem complete_append {c d : Chain} {o : Operator} :
    (c.append o d).Complete ↔ c.Complete ∧ d.Complete := by
  induction c with
  | single m => rfl
  | link m q rest ih => rw [Chain.append, Complete, ih, Complete, and_assoc]

/-- Every operand is used in a grouping. -/
theorem Grouped.complete {c : Chain} {v : Value} (h : c.Grouped v) : c.Complete := by
  induction h with
  | operand v => rfl
  | sign h h_apply ih => exact complete_sign.mpr ih
  | operator hc hd h_apply ih_left ih_right => exact complete_append.mpr ⟨ih_left, ih_right⟩

/-! ### Rows with operators of one level -/

/-- If all operators of a row are of one level, only that level is searched. -/
theorem settle_of_level {c : Chain} (level : Precedence)
    (h : ∀ s ∈ c.splits, s.operator.level = level) (h_sign : c.settleSign = none) :
    c.settle = settleAt level c.splits := by
  -- no other level has a split, so none of them can be found first
  have h_other : ∀ p : Precedence, p ≠ level → settleAt p c.splits = none := by
    intro p h_p
    rw [settleAt, List.findSome?_eq_none_iff]
    intro s h_s
    exact if_neg fun h_level => h_p (h_level.symm.trans (h s h_s))
  rw [settle_eq, h_sign, Option.or_none]
  cases level <;>
    simp (disch := decide) only [Precedence.all, List.findSome?_cons, List.findSome?_nil, h_other]
  all_goals
    split
    · next h_some => exact h_some.symm
    · next h_none => exact h_none.symm

/-- Two operands are calculated with as they stand. -/
theorem settle_pair (x y : Value) (o : Operator) :
    (link ⟨[], some x⟩ o (single ⟨[], some y⟩)).settle = (o.apply x y).toOption := by
  have h_splits : (link ⟨[], some x⟩ o (single ⟨[], some y⟩)).splits =
      [⟨single ⟨[], some x⟩, o, single ⟨[], some y⟩⟩] := rfl
  rw [settle_of_level o.level ?_ rfl, h_splits, settleAt, List.findSome?_singleton, if_pos rfl]
  · simp only [Split.value, settle_single, Option.bind_some]
  · rw [h_splits]
    intro s h_s
    rw [List.mem_singleton.mp h_s]

/-- **Two operators of one level**: they are taken from the left, and if that has no value, from the
right. -/
theorem settle_triple (x y z : Value) {o q : Operator} (h : o.level = q.level) :
    (link ⟨[], some x⟩ o (link ⟨[], some y⟩ q (single ⟨[], some z⟩))).settle =
      ((o.apply x y).toOption.bind fun l => (q.apply l z).toOption).or
        ((q.apply y z).toOption.bind fun r => (o.apply x r).toOption) := by
  have h_splits : (link ⟨[], some x⟩ o (link ⟨[], some y⟩ q (single ⟨[], some z⟩))).splits =
      [⟨link ⟨[], some x⟩ o (single ⟨[], some y⟩), q, single ⟨[], some z⟩⟩,
        ⟨single ⟨[], some x⟩, o, link ⟨[], some y⟩ q (single ⟨[], some z⟩)⟩] := rfl
  rw [settle_of_level q.level ?_ rfl, h_splits, settleAt, List.findSome?_cons, if_pos rfl,
    List.findSome?_singleton, if_pos h]
  · simp only [Split.value, settle_single, settle_pair, Option.bind_some]
    cases (o.apply x y).toOption.bind fun l => (q.apply l z).toOption <;> rfl
  · rw [h_splits]
    intro s h_s
    rcases List.mem_cons.mp h_s with rfl | h_s
    · rfl
    · rw [List.mem_singleton.mp h_s, h]

end Chain

/-! ### Trees that fail -/

/-- The outcome is a value or a mismatch of kinds. -/
def FitsOrMismatches (outcome : Except Error Value) : Prop :=
  (∃ v, outcome = .ok v) ∨ ∃ expected found, outcome = .error (.typeMismatch expected found)

/-- A sign fails on the kind of its operand only. -/
theorem Unary.fitsOrMismatches_apply (s : Unary) (v : Value) : FitsOrMismatches (s.apply v) := by
  cases s <;> cases v <;> first | exact .inl ⟨_, rfl⟩ | exact .inr ⟨_, _, rfl⟩

/-- So does a calculation on the kinds of its operands. -/
theorem Calculation.fitsOrMismatches_apply (c : Calculation) (left right : Value) :
    FitsOrMismatches (c.apply left right) := by
  cases c <;> cases left <;> cases right <;> first | exact .inl ⟨_, rfl⟩ | exact .inr ⟨_, _, rfl⟩

/-- What is done in sequence fails where one of the steps does. -/
theorem FitsOrMismatches.bind {x : Except Error Value} {f : Value → Except Error Value}
    (hx : FitsOrMismatches x) (hf : ∀ v, FitsOrMismatches (f v)) : FitsOrMismatches (x >>= f) := by
  rcases hx with ⟨v, rfl⟩ | ⟨expected, found, rfl⟩
  · exact hf v
  · exact .inr ⟨expected, found, rfl⟩

/-- A tree whose row is complete fails by a mismatch of kinds, if it fails. -/
theorem Form.fitsOrMismatches_of_complete {scope : Scope} {f : Form}
    (h : (f.chain scope).Complete) : FitsOrMismatches (f.tree.eval scope) := by
  induction f with
  | atom a =>
    cases a with
    | number spelling h_parse => exact .inl ⟨_, rfl⟩
    | text content h_content => exact .inl ⟨_, rfl⟩
    | boolean b => exact .inl ⟨_, rfl⟩
    | name identifier h_name =>
      -- a name is the only leaf that could fail, and it has a value here
      obtain ⟨v, h_v⟩ := Option.isSome_iff_exists.mp h
      exact .inl ⟨v, eq_ok_of_toOption h_v⟩
  | spaced before inside after ih => exact ih h
  | group inside ih =>
    -- a group counts as one operand, so its own row has a value
    obtain ⟨v, h_v⟩ := Option.isSome_iff_exists.mp h
    exact ih (Chain.grouped_of_settle h_v).complete
  | unary sign operand ih => exact (ih (Chain.complete_sign.mp h)).bind sign.fitsOrMismatches_apply
  | binary operator left right ih_left ih_right =>
    obtain ⟨h_left, h_right⟩ := Chain.complete_append.mp h
    refine (ih_left h_left).bind fun l => (ih_right h_right).bind fun r => ?_
    exact (operator.meant l r).fitsOrMismatches_apply l r

/-- The tree that is meant fails on the kinds of its values, and yet its row of operands has a
value: another grouping fits. -/
structure Form.Regrouped (scope : Scope) (f : Form) : Prop where
  /-- The tree has no value. -/
  mismatch : ∃ expected found, f.tree.eval scope = .error (.typeMismatch expected found)
  /-- The row has one. -/
  settles : ∃ v, (f.chain scope).settle = some v

/-- Wherever a row has a value and the tree has none, the form is regrouped. -/
theorem Form.regrouped_of_settle {scope : Scope} {f : Form} {v : Value} {error : Error}
    (h : (f.chain scope).settle = some v) (h_fails : f.tree.eval scope = .error error) :
    f.Regrouped scope := by
  refine ⟨?_, v, h⟩
  -- a row with a value is complete, so the tree can only fail by a mismatch
  rcases fitsOrMismatches_of_complete (Chain.grouped_of_settle h).complete with ⟨w, h_w⟩ | h_error
  · rw [h_fails] at h_w
    exact absurd h_w (by simp)
  · exact h_error

end LineScript
