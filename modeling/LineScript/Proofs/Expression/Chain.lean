import LineScript.Proofs.Expression.Form
import LineScript.Proofs.Number.Spelling

/-!
# Chains of operands

What the resolver has before it is not a tree but a row of operands with operators between them:
literals, names and groups, with signs before them. `Chain` is that row. The resolver looks for a
place to split it, and what it goes by are the levels of the operators and the kinds of the values
on the two sides.

* `Chain.settle`: the search, on the row alone. The weakest level comes first, and within a level
  the rightmost split whose two halves settle to values that the operator takes. If there is none,
  the first sign is taken off;
* `Form.chain`: the row that a form amounts to. A group is one operand;
* `settle_append`, `settle_sign`: where the documented grouping has a value, the search finds it;
* `settle_chain`: **a lawful form whose tree has a value settles to that value.**
-/

namespace LineScript

/-- A sequence that succeeds does so in both of its parts. -/
theorem exists_of_bind_eq_ok {ε α β : Type} {x : Except ε α} {f : α → Except ε β} {b : β}
    (h : x >>= f = .ok b) : ∃ a, x = .ok a ∧ f a = .ok b := by
  cases x with
  | error e => exact absurd h (by simp [bind, Except.bind])
  | ok a => exact ⟨a, rfl, h⟩

/-- An operand, with the signs before it and its value if it has one. -/
structure SignedOperand where
  /-- The signs, from the left. -/
  signs : List Unary
  /-- What stands after the signs. -/
  value : Option Value

/-- A row of operands with operators between them. -/
inductive Chain where
  /-- An operand alone. -/
  | single (m : SignedOperand)
  /-- An operand, an operator, and the row that follows. -/
  | link (m : SignedOperand) (o : Operator) (rest : Chain)

/-- A place at which a row can be split. -/
structure Chain.Split where
  /-- What stands before the operator. -/
  left : Chain
  /-- The operator. -/
  operator : Operator
  /-- What stands after it. -/
  right : Chain

namespace Chain

/-- Two rows with an operator between them. -/
def append : Chain → Operator → Chain → Chain
  | single m, o, d => link m o d
  | link m q rest, o, d => link m q (rest.append o d)

/-- The row with one more sign at its start. -/
def sign (s : Unary) : Chain → Chain
  | single m => single { m with signs := s :: m.signs }
  | link m o rest => link { m with signs := s :: m.signs } o rest

/-- All splits, the rightmost first. -/
def splits : Chain → List Split
  | single _ => []
  | link m o rest =>
    (rest.splits.map fun s => { s with left := link m o s.left }) ++ [⟨single m, o, rest⟩]

/-- The first sign of a row, and the row without it. -/
def firstSign? : Chain → Option (Unary × Chain)
  | single ⟨s :: signs, v⟩ => some (s, single ⟨signs, v⟩)
  | link ⟨s :: signs, v⟩ o rest => some (s, link ⟨signs, v⟩ o rest)
  | _ => none

/-- The value of a row that is a single operand without signs. -/
def bareValue : Chain → Option Value
  | single ⟨[], v⟩ => v
  | _ => none

/-- The number of operators and signs. -/
def size : Chain → Nat
  | single m => m.signs.length
  | link m _ rest => m.signs.length + 1 + rest.size

/-- Either side of a split is smaller than the row. -/
theorem size_lt_of_mem_splits {c : Chain} {s : Split} (h : s ∈ c.splits) :
    s.left.size < c.size ∧ s.right.size < c.size := by
  induction c generalizing s with
  | single m => exact absurd h List.not_mem_nil
  | link m o rest ih =>
    rcases List.mem_append.mp h with h | h
    · obtain ⟨t, h_t, rfl⟩ := List.mem_map.mp h
      have h_sizes := ih h_t
      dsimp only [size]
      omega
    · rw [List.mem_singleton.mp h]
      dsimp only [size]
      omega

/-- A row without its first sign is smaller. -/
theorem size_lt_of_firstSign? {c d : Chain} {s : Unary} (h : c.firstSign? = some (s, d)) :
    d.size < c.size := by
  unfold firstSign? at h
  split at h
  · cases h
    simp [size]
  · cases h
    simp [size]
  · exact absurd h (by simp)

/-- What the search makes of a row. -/
def settle (c : Chain) : Option Value :=
  (Precedence.all.findSome? fun level => c.splits.attach.findSome? fun ⟨s, h⟩ =>
    have := size_lt_of_mem_splits h
    if s.operator.level = level then
      (settle s.left).bind fun left => (settle s.right).bind fun right =>
        (s.operator.apply left right).toOption
    else none).or
      (match h : c.firstSign? with
      | some (s, d) =>
        have := size_lt_of_firstSign? h
        (settle d).bind fun v => (s.apply v).toOption
      | none => c.bareValue)
termination_by c.size
decreasing_by all_goals omega

/-- What a split comes to. -/
def Split.value (s : Split) : Option Value :=
  s.left.settle.bind fun left => s.right.settle.bind fun right =>
    (s.operator.apply left right).toOption

/-- What the splits at one level come to. -/
def settleAt (level : Precedence) (splits : List Split) : Option Value :=
  splits.findSome? fun s => if s.operator.level = level then s.value else none

/-- What taking off the first sign comes to. -/
def settleSign (c : Chain) : Option Value :=
  match c.firstSign? with
  | some (s, d) => d.settle.bind fun v => (s.apply v).toOption
  | none => c.bareValue

/-- The search, step by step. -/
theorem settle_eq (c : Chain) :
    c.settle = (Precedence.all.findSome? fun level => settleAt level c.splits).or c.settleSign := by
  -- the recursion goes through attached lists, to see that the parts are smaller
  rw [settle]
  congr 1
  · congr 1
    funext level
    rw [List.findSome?_subtype fun _ _ => rfl, List.unattach_attach]
    rfl
  · unfold settleSign
    split
    · next h => simp only [h]
    · next h => simp only [h]

/-- An operand without signs settles to its own value. -/
theorem settle_single (v : Option Value) : (single ⟨[], v⟩).settle = v := by
  rw [settle_eq]
  rfl

/-- An operand with signs has the first of them applied last. -/
theorem settle_single_cons (s : Unary) (signs : List Unary) (v : Option Value) :
    (single ⟨s :: signs, v⟩).settle =
      (single ⟨signs, v⟩).settle.bind fun w => (s.apply w).toOption := by
  rw [settle_eq]
  rfl

/-! ### Rows that bind strongly -/

/-- All operators of the row bind at least so strongly. -/
def Binds (strength : Nat) : Chain → Prop
  | single _ => True
  | link _ o rest => strength ≤ o.level.strength ∧ rest.Binds strength

/-- A row that binds strongly also binds less strongly. -/
theorem Binds.mono {k n : Nat} {c : Chain} (h : c.Binds n) (h_le : k ≤ n) : c.Binds k := by
  induction c with
  | single m => trivial
  | link m o rest ih => exact ⟨Nat.le_trans h_le h.1, ih h.2⟩

/-- Two rows and the operator between them. -/
theorem Binds.append {k : Nat} {c d : Chain} {o : Operator} (hc : c.Binds k)
    (ho : k ≤ o.level.strength) (hd : d.Binds k) : (c.append o d).Binds k := by
  induction c with
  | single m => exact ⟨ho, hd⟩
  | link m q rest ih => exact ⟨hc.1, ih hc.2⟩

/-- A sign is no operator of the row. -/
theorem Binds.sign {k : Nat} {c : Chain} (h : c.Binds k) (s : Unary) : (c.sign s).Binds k := by
  cases c with
  | single m => trivial
  | link m o rest => exact h

/-- Every operator of a row is the one of a split. -/
theorem Binds.of_mem_splits {k : Nat} {c : Chain} (h : c.Binds k) {s : Split}
    (h_mem : s ∈ c.splits) : k ≤ s.operator.level.strength := by
  induction c generalizing s with
  | single m => exact absurd h_mem List.not_mem_nil
  | link m o rest ih =>
    rcases List.mem_append.mp h_mem with h_mem | h_mem
    · obtain ⟨t, h_t, rfl⟩ := List.mem_map.mp h_mem
      have h_le := ih h.2 h_t
      exact h_le
    · rw [List.mem_singleton.mp h_mem]
      exact h.1

/-- Nothing is found at a level that is weaker than all operators. -/
theorem settleAt_eq_none {level : Precedence} {splits : List Split}
    (h : ∀ s ∈ splits, level.strength < s.operator.level.strength) :
    settleAt level splits = none := by
  rw [settleAt, List.findSome?_eq_none_iff]
  intro s h_s
  refine if_neg fun h_level => ?_
  have h_lt := h s h_s
  rw [h_level] at h_lt
  exact Nat.lt_irrefl _ h_lt

/-- The splits of two rows with an operator between them: those in the second, the one at the
operator, and those in the first. -/
theorem splits_append (c d : Chain) (o : Operator) :
    (c.append o d).splits =
      (d.splits.map fun s => { s with left := c.append o s.left }) ++ ⟨c, o, d⟩ ::
        c.splits.map fun s => { s with right := s.right.append o d } := by
  -- along the first row, since `append` walks through it
  induction c with
  | single m => rfl
  | link m q rest ih =>
    rw [Chain.append, splits, ih, splits]
    simp only [List.map_append, List.map_cons, List.map_map, List.map_nil, List.append_assoc,
      List.cons_append]
    rfl

/-- The first level that has a value, found from the weakest on. -/
theorem findSome?_levels {g : Precedence → Option Value} {v : Value} (level : Precedence)
    (h_weaker : ∀ p : Precedence, p.strength < level.strength → g p = none)
    (h : g level = some v) : Precedence.all.findSome? g = some v := by
  cases level <;>
    simp (disch := decide) only [Precedence.all, List.findSome?_cons, h_weaker, h]

/-- **The search finds the split at an operator** that is the rightmost of the weakest level, if
both sides settle and the operator takes their values. -/
theorem settle_append {c d : Chain} {o : Operator} {x y v : Value}
    (hc : c.Binds o.level.strength) (hd : d.Binds (o.level.strength + 1))
    (h_left : c.settle = some x) (h_right : d.settle = some y) (h_apply : o.apply x y = .ok v) :
    (c.append o d).settle = some v := by
  have h_binds : (c.append o d).Binds o.level.strength :=
    hc.append (Nat.le_refl _) (hd.mono (Nat.le_succ _))
  have h_levels : (Precedence.all.findSome? fun level =>
      settleAt level (c.append o d).splits) = some v := by
    refine findSome?_levels o.level ?_ ?_
    · -- weaker levels have no operator in the row
      intro p h_p
      exact settleAt_eq_none fun s h_s => Nat.lt_of_lt_of_le h_p (h_binds.of_mem_splits h_s)
    · -- splits further to the right are at stronger operators
      have h_stronger : settleAt o.level (d.splits.map fun s =>
          { s with left := c.append o s.left }) = none := by
        refine settleAt_eq_none fun s h_s => ?_
        obtain ⟨t, h_t, rfl⟩ := List.mem_map.mp h_s
        have h_lt := hd.of_mem_splits h_t
        exact h_lt
      have h_value : (⟨c, o, d⟩ : Split).value = some v := by
        simp [Split.value, h_left, h_right, h_apply, Except.toOption]
      rw [settleAt] at h_stronger ⊢
      rw [splits_append, List.findSome?_append, h_stronger, List.findSome?_cons, if_pos rfl,
        h_value]
      rfl
  rw [settle_eq, h_levels, Option.some_or]

/-- A sign before a row without operators is applied to what the row settles to. -/
theorem settle_sign {c : Chain} (hc : c.Binds 5) (s : Unary) :
    (c.sign s).settle = c.settle.bind fun v => (s.apply v).toOption := by
  cases c with
  | single m => exact settle_single_cons s m.signs m.value
  -- no operator is as strong as that, so the row has none
  | link m o rest => exact absurd hc.1 (Nat.not_le_of_lt o.level.strength_lt)

end Chain

/-! ### The row of a form -/

/-- The operand that a leaf amounts to. The minus sign of a number counts as a sign. -/
def Atom.operand (scope : Scope) : Atom → SignedOperand
  | .number ('-' :: digits) _ => ⟨[.minus], (Number.parse? digits).map .number⟩
  | a => ⟨[], (a.eval scope).toOption⟩

/-- The row that a form amounts to. A group is one operand, with what its inside settles to. -/
def Form.chain (scope : Scope) : Form → Chain
  | atom a => .single (a.operand scope)
  | spaced _ inside _ => inside.chain scope
  | group inside => .single ⟨[], (inside.chain scope).settle⟩
  | unary sign operand => (operand.chain scope).sign sign
  | binary operator left right => (left.chain scope).append operator (right.chain scope)

/-- The value of a leaf, from the operand that it amounts to. -/
theorem Atom.settle_operand (scope : Scope) (a : Atom) :
    (Chain.single (a.operand scope)).settle = (a.eval scope).toOption := by
  unfold Atom.operand
  split
  · next digits h_parse =>
    -- the number with its sign is the negative of the number without it
    obtain ⟨x, h_x⟩ := Option.isSome_iff_exists.mp h_parse
    obtain ⟨y, h_y, rfl⟩ := Number.parse?_cons_minus h_x
    rw [Chain.settle_single_cons, Chain.settle_single, h_y, Atom.eval]
    simp only [h_x]
    rfl
  · exact Chain.settle_single _

/-- Every operator of a form that can be reached from outside binds at least as strongly as the form
does. -/
theorem Form.binds_chain (scope : Scope) {f : Form} (h : f.Lawful) :
    (f.chain scope).Binds f.strength := by
  induction f with
  | atom a => trivial
  | spaced before inside after ih => exact ih h
  | group inside ih => trivial
  | unary sign operand ih => exact ((ih h.1).mono h.2).sign sign
  | binary operator left right ih_left ih_right =>
    obtain ⟨h_left, h_right, h_left_le, h_right_lt⟩ := h
    refine ((ih_left h_left).mono h_left_le).append (Nat.le_refl _) ?_
    exact (ih_right h_right).mono (Nat.le_of_lt h_right_lt)

/-- **A lawful form whose tree has a value settles to that value.** The search splits the row where
the tree has its root: all operators to the right of the root bind more strongly, and those to the
left at least as strongly. -/
theorem Form.settle_chain {scope : Scope} {f : Form} {v : Value} (h : f.Lawful)
    (h_eval : f.tree.eval scope = .ok v) : (f.chain scope).settle = some v := by
  induction f generalizing v with
  | atom a =>
    have h_atom : a.eval scope = .ok v := h_eval
    rw [chain, Atom.settle_operand, h_atom]
    rfl
  | spaced before inside after ih => exact ih h h_eval
  | group inside ih =>
    rw [chain, Chain.settle_single]
    exact ih h h_eval
  | unary sign operand ih =>
    -- the operand of a sign has no operators, so the sign is all that is left to take off
    obtain ⟨x, h_x, h_apply⟩ := exists_of_bind_eq_ok h_eval
    rw [chain, Chain.settle_sign ((binds_chain scope h.1).mono h.2), ih h.1 h_x, Option.bind_some,
      h_apply]
    rfl
  | binary operator left right ih_left ih_right =>
    -- the root is the operator of `settle_append`: weakest level, and the rightmost of it
    obtain ⟨h_left, h_right, h_left_le, h_right_lt⟩ := h
    obtain ⟨x, h_x, h_rest⟩ := exists_of_bind_eq_ok h_eval
    obtain ⟨y, h_y, h_apply⟩ := exists_of_bind_eq_ok h_rest
    exact Chain.settle_append ((binds_chain scope h_left).mono h_left_le)
      ((binds_chain scope h_right).mono h_right_lt) (ih_left h_left h_x) (ih_right h_right h_y)
      h_apply

end LineScript
