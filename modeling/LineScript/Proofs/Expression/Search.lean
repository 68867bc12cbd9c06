import LineScript.Proofs.Expression.Rows

/-!
# The search on a row

The resolver searches a text and `Chain.settle` searches the row that the text amounts to. This
module shows that the two searches find the same. A cut of the text is either at one of the
operators of the row, or inside a segment. At an operator exactly that operator is met
(`cutsWithin_symbol`), and its two sides are the rows of the split. Inside a segment no cut has
anything on its left that has a value.

* `valueAmong_eq_settleAt`: the cuts of a row at the operators of a level, tried in order, come to
  what the splits of the chain at that level come to, as long as shorter rows have the values they
  settle to;
* `Row.valueOf_eq_settle`: **the value of a row is what its chain settles to**, by induction on the
  length of the text.
-/

namespace LineScript

open Resolve Scan

/-! ### Meeting an operator -/

/-- No operator is hidden by itself: it neither opens nor closes anything. -/
theorem exposes_of_isOperatorChar {a : Char} (h : isOperatorChar a) : Nesting.exposes {} a := by
  simp only [isOperatorChar, decide_eq_true_eq, List.mem_cons, List.not_mem_nil, or_false] at h
  rcases h with rfl | rfl | rfl | rfl | rfl | rfl | rfl | rfl | rfl | rfl | rfl <;> decide

/-- The shapes of operators. No second character is an operator on its own. -/
theorem Calculation.operator_cases (c : Calculation) :
    (∃ a, c.operator = [a] ∧ a ∉ ['=', '&', '|']) ∨
      ∃ a b, c.operator = [a, b] ∧ b ∈ ['=', '&', '|'] := by
  cases c
  case logicalOr => exact .inr ⟨_, _, rfl, by decide⟩
  case logicalAnd => exact .inr ⟨_, _, rfl, by decide⟩
  case equal => exact .inr ⟨_, _, rfl, by decide⟩
  case notEqual => exact .inr ⟨_, _, rfl, by decide⟩
  case lessEqual => exact .inr ⟨_, _, rfl, by decide⟩
  case greaterEqual => exact .inr ⟨_, _, rfl, by decide⟩
  all_goals exact .inl ⟨_, rfl, by decide⟩

/-- The symbol of an operator starts with an operator character. -/
theorem Operator.exists_symbol_eq_cons (o : Operator) :
    ∃ a rest, o.symbol = a :: rest ∧ isOperatorChar a := by
  have h_ne : o.symbol ≠ [] := by
    rcases o.1.operator_cases with ⟨a, h, -⟩ | ⟨a, b, h, -⟩ <;> simp [symbol, h]
  obtain ⟨a, rest, h_symbol⟩ := List.exists_cons_of_ne_nil h_ne
  refine ⟨a, rest, h_symbol, isOperatorChar_of_mem_operator (c := o.1) ?_⟩
  change a ∈ o.symbol
  rw [h_symbol]
  exact List.mem_cons_self

/-- An operator of one character that starts a longer one clashes with what follows. -/
theorem Calculation.clashes_of_operator_eq {q c : Calculation} {a b : Char}
    (hq : q.operator = [a]) (hc : c.operator = [a, b]) (previous : Option Char) :
    clashes q.operator previous b := by
  -- `!`, `<`, `>` before `=`: no single character may stand where a longer operator does
  cases q <;> cases hq <;> cases c <;> cases hc <;> rfl

section Meeting

variable {p f : Char} (hp : isOperatorChar p = false) (hf : f ∉ ['=', '&', '|'])

include hp hf in
/-- An operator between two operands is not a part of a longer one. -/
theorem Calculation.not_clashes (c : Calculation) : clashes c.operator (some p) f = false := by
  simp only [isOperatorChar, decide_eq_false_iff_not, List.mem_cons, List.not_mem_nil, or_false,
    not_or] at hp hf
  cases c <;> simp [operator, clashes, hf, hp]

include hf in
/-- What starts with an operator and goes on with an operand starts with no longer operator. -/
theorem Calculation.isPrefixOf_cases {q c : Calculation} {v : List Char}
    (h : q.operator.isPrefixOf (c.operator ++ f :: v)) :
    q.operator = c.operator ∨ ∃ a b, q.operator = [a] ∧ c.operator = [a, b] := by
  rcases q.operator_cases with ⟨a, h_q, -⟩ | ⟨a, b, h_q, h_b⟩ <;>
    rcases c.operator_cases with ⟨a', h_c, -⟩ | ⟨a', b', h_c, -⟩
  · rw [h_q, h_c] at h ⊢
    simp_all [List.isPrefixOf]
  · rw [h_q, h_c] at h
    simp [List.isPrefixOf] at h
    exact .inr ⟨a, b', h_q, by rw [h_c, h]⟩
  · -- the second character would be the first of the operand
    rw [h_q, h_c] at h
    simp [List.isPrefixOf] at h
    exact absurd (h.2 ▸ h_b) hf
  · rw [h_q, h_c] at h ⊢
    simp_all [List.isPrefixOf]

include hp hf in
/-- **Between two operands exactly the operator that stands there is met.** -/
theorem meets_operator (q c : Calculation) (v : List Char) :
    meets (some p) (c.operator ++ f :: v) q.operator = (q.operator == c.operator) := by
  by_cases h_eq : q.operator = c.operator
  · have h_ne : c.operator ≠ [] := by cases c <;> decide
    rw [h_eq, meets, List.drop_left]
    simp [c.not_clashes hp hf, h_ne]
  · rw [beq_eq_false_iff_ne.mpr h_eq, Bool.eq_false_iff]
    intro h_meets
    obtain ⟨-, -, d, r, h_coming, h_clash⟩ := exists_of_meets h_meets
    have h_start : q.operator.isPrefixOf (c.operator ++ f :: v) := by
      rw [h_coming, List.isPrefixOf_iff_prefix]
      exact List.prefix_append _ _
    rcases Calculation.isPrefixOf_cases hf h_start with h_same | ⟨a, b, h_q, h_c⟩
    · exact h_eq h_same
    · -- the operator goes on, and then `q` is a part of it
      rw [h_q, h_c] at h_coming
      have h_d : b = d := by simpa using congrArg (List.head? ∘ List.tail) h_coming
      exact h_clash (h_d ▸ Calculation.clashes_of_operator_eq h_q h_c _)

include hf in
/-- Nothing is met at the second character of an operator. -/
theorem not_meets_second {a b : Char} {c : Calculation} (hc : c.operator = [a, b])
    (q : Calculation) (previous : Option Char) (v : List Char) :
    meets previous (b :: f :: v) q.operator = false := by
  have h_b : b ∈ ['=', '&', '|'] := by
    rcases c.operator_cases with ⟨a', h_c, -⟩ | ⟨a', b', h_c, h_b⟩
    · exact absurd (hc.symm.trans h_c) (by simp)
    · have h_eq : b = b' := by simpa using congrArg (List.head? ∘ List.tail) (hc.symm.trans h_c)
      rwa [h_eq]
  rw [Bool.eq_false_iff]
  intro h_meets
  obtain ⟨-, -, d, r, h_coming, -⟩ := exists_of_meets h_meets
  rcases q.operator_cases with ⟨a', h_q, h_a⟩ | ⟨a', b', h_q, h_b'⟩
  · -- no operator is such a character alone
    rw [h_q, List.singleton_append, List.cons.injEq] at h_coming
    exact h_a (h_coming.1 ▸ h_b)
  · -- and a longer one would reach into the operand
    rw [h_q, List.cons_append, List.cons.injEq, List.singleton_append, List.cons.injEq] at h_coming
    exact hf (h_coming.2.1 ▸ h_b')

/-- Each level has the symbols of its own operators, each of them once. -/
theorem filter_operators (level : Precedence) (o : Operator) :
    (level.members.map Calculation.operator).eraseDups.filter (· == o.symbol) =
      if o.level = level then [o.symbol] else [] := by
  -- `+` stands for two calculations of a level, but is tried once
  obtain ⟨c, h_c⟩ := o
  cases c <;> cases level <;> rfl

include hf in
/-- There is no cut at the second character of an operator. -/
theorem cutsHere_second {a b : Char} {c : Calculation} (hc : c.operator = [a, b])
    (members : List Calculation) (text : String) (n : Nesting) (position : Nat)
    (previous : Option Char) (v : List Char) :
    cutsHere (members.map Calculation.operator).eraseDups text n position previous
      (b :: f :: v) = [] := by
  have h_filter : (members.map Calculation.operator).eraseDups.filter
      (meets previous (b :: f :: v)) = [] := by
    refine List.filter_eq_nil_iff.mpr fun operator h_mem => ?_
    obtain ⟨q, -, rfl⟩ := List.mem_map.mp (List.mem_eraseDups.mp h_mem)
    rw [not_meets_second hf hc]
    exact Bool.false_ne_true
  rw [cutsHere, h_filter]
  split <;> rfl

include hp hf in
/-- **The cuts at an operator between two operands**: one, if the operator is of the level that is
searched. -/
theorem cutsWithin_symbol (level : Precedence) (o : Operator) (text : String) (position : Nat)
    (v : List Char) :
    cutsWithin (level.members.map Calculation.operator).eraseDups text {} position (some p)
        o.symbol (f :: v) =
      if o.level = level then [⟨text, position, o.symbol⟩] else [] := by
  have h_filter : (level.members.map Calculation.operator).eraseDups.filter
      (meets (some p) (o.symbol ++ f :: v)) = if o.level = level then [o.symbol] else [] := by
    rw [← filter_operators]
    refine List.filter_congr fun operator h_mem => ?_
    obtain ⟨q, -, rfl⟩ := List.mem_map.mp (List.mem_eraseDups.mp h_mem)
    exact meets_operator hp hf q o.1 v
  have h_here : cutsHere (level.members.map Calculation.operator).eraseDups text {} position
      (some p) (o.symbol ++ f :: v) =
        if o.level = level then [⟨text, position, o.symbol⟩] else [] := by
    have h_head : (o.symbol ++ f :: v).head?.any (Nesting.exposes {}) := by
      obtain ⟨a, rest, h_symbol, h_a⟩ := o.exists_symbol_eq_cons
      rw [h_symbol]
      exact exposes_of_isOperatorChar h_a
    rw [cutsHere, if_pos h_head, h_filter]
    split <;> rfl
  -- the walk goes over one character or two, and the second brings no cut of its own
  rcases o.1.operator_cases with ⟨a, h_symbol, -⟩ | ⟨a, b, h_symbol, -⟩
  · have h_symbol : o.symbol = [a] := h_symbol
    rw [h_symbol] at h_here ⊢
    exact h_here
  · have h_second := cutsHere_second hf h_symbol level.members text (Nesting.next {} a)
      (position + a.utf8Size) (some a) v
    have h_symbol : o.symbol = [a, b] := h_symbol
    rw [h_symbol] at h_here ⊢
    rw [cutsWithin, cutsWithin, cutsWithin, List.nil_append, List.nil_append, h_second,
      List.nil_append]
    exact h_here

end Meeting

/-- The calculation that is chosen at an operator is the one that is meant. -/
theorem chooseAmong_bind (o : Operator) (cut : Cut) (h : cut.operator = o.symbol)
    (left right : Value) :
    (chooseAmong o.level.members cut left right).bind foundValue =
      (o.apply left right).toOption := by
  obtain ⟨c, h_c⟩ := o
  obtain ⟨text, position, operator⟩ := cut
  subst h
  cases c <;> cases left <;> cases right <;> first | rfl | exact absurd rfl h_c

/-! ### Cuts of a row -/

variable {scope : Scope} {m : SignedOperand}

/-- **Cuts inside a segment lead nowhere**, whatever stands before and after it. -/
theorem findSome?_cutsWithin_segment {s passed : List Char} (hs : Segment scope s m)
    (h_end : ∀ l, endsOperand (passed ++ l) = endsOperand l) (members : List Calculation)
    (previous : Option Char) (coming : List Char) :
    (cutsWithin (members.map Calculation.operator).eraseDups
        (String.ofList (passed ++ (s ++ coming))) {} (Text.byteSize passed) previous s
        coming).findSome? (cutValue scope members) = none := by
  rw [List.findSome?_eq_none_iff]
  intro cut h_cut
  obtain ⟨l, c, r, rfl, h_here⟩ := exists_of_mem_cutsWithin h_cut
  obtain ⟨h_exposed, h_meets, h_mem, h_text, h_position⟩ := of_mem_cutsHere h_here
  obtain ⟨h_ne, -, d, r', h_coming, -⟩ := exists_of_meets h_meets
  obtain ⟨q, -, h_q⟩ := List.mem_map.mp (List.mem_eraseDups.mp h_mem)
  have h_operator : isOperatorChar c := by
    obtain ⟨a, rest, h_cons⟩ := List.exists_cons_of_ne_nil h_ne
    rw [h_cons, List.cons_append, List.cons.injEq] at h_coming
    rw [h_coming.1]
    exact isOperatorChar_of_mem_operator (h_q ▸ h_cons ▸ List.mem_cons_self)
  -- the left side of the cut ends where an operand cannot end
  have h_left : endsOperand (passed ++ l) = false := by
    rw [h_end]
    exact hs.not_endsOperand rfl h_exposed h_operator
  have h_before : cut.before = String.ofList (passed ++ l) := by
    refine (before_after_of_position (r := d :: r') ?_ ?_).1
    · rw [h_text, List.append_assoc (passed ++ l), ← h_coming]
      simp
    · rw [h_position, Text.byteSize_append]
  rw [cutValue, cutChoice, h_before, String.toList_ofList, valueOf_eq_none h_left]
  rfl

/-- The cut at an operator between two rows comes to what the split there comes to. -/
theorem cutValue_symbol {l r : List Char} {c d : Chain} {o : Operator}
    (hl : valueOf scope l = c.settle) (hr : valueOf scope r = d.settle) :
    cutValue scope o.level.members
        ⟨String.ofList (l ++ o.symbol ++ r), Text.byteSize l, o.symbol⟩ =
      (⟨c, o, d⟩ : Chain.Split).value := by
  obtain ⟨h_before, h_after⟩ := @before_after_of_position
    ⟨String.ofList (l ++ o.symbol ++ r), Text.byteSize l, o.symbol⟩ l r rfl rfl
  rw [cutValue, cutChoice, h_before, h_after, String.toList_ofList, String.toList_ofList, hl, hr,
    Option.bind_assoc, Chain.Split.value]
  congr 1
  funext left
  rw [Option.bind_assoc]
  congr 1
  funext right
  exact chooseAmong_bind o _ rfl left right

/-- So does the search among the cuts at that operator. -/
theorem findSome?_cutsWithin_symbol {l r : List Char} {c d : Chain} {p : Char}
    (level : Precedence) (o : Operator) (hp : isOperatorChar p = false) (h_row : Row scope r d)
    (hl : valueOf scope l = c.settle) (hr : valueOf scope r = d.settle) :
    (cutsWithin (level.members.map Calculation.operator).eraseDups
        (String.ofList (l ++ o.symbol ++ r)) {} (Text.byteSize l) (some p) o.symbol r).findSome?
          (cutValue scope level.members) =
      if o.level = level then (⟨c, o, d⟩ : Chain.Split).value else none := by
  have h_value := cutValue_symbol (o := o) hl hr
  obtain ⟨f, v, rfl, hf⟩ := h_row.exists_cons
  rw [cutsWithin_symbol hp hf]
  split
  · next h_level => rw [← h_level, List.findSome?_singleton, h_value]
  · rfl

/-- **The cuts of a row come to what the splits of its chain come to.** The row `u` stands at the
end of a text, after `passed`, and `before` puts in front of a chain what `passed` amounts to. By
induction on the row: the cuts in the rest are tried first, then the one at the first operator, and
those in the first segment lead nowhere. -/
theorem findSome?_cutsWithin_row (level : Precedence) {text u : List Char} {d : Chain}
    (hu : Row scope u d)
    (h_shorter : ∀ s c, s.length < text.length → Row scope s c → valueOf scope s = c.settle)
    (passed : List Char) (before : Chain → Chain) (h_text : text = passed ++ u)
    (h_end : ∀ l, endsOperand (passed ++ l) = endsOperand l)
    (h_row : ∀ l c, Row scope l c → Row scope (passed ++ l) (before c)) :
    (cutsWithin (level.members.map Calculation.operator).eraseDups (String.ofList text) {}
        (Text.byteSize passed) passed.getLast? u []).findSome? (cutValue scope level.members) =
      Chain.settleAt level (d.splits.map fun s => { s with left := before s.left }) := by
  induction hu generalizing passed before with
  | single h =>
    have h_cuts := findSome?_cutsWithin_segment h h_end level.members passed.getLast? []
    rw [List.append_nil, ← h_text] at h_cuts
    rw [h_cuts]
    rfl
  | @link s t m c h o h_rest ih =>
    have h_symbol : Sealed o.symbol := sealed_of_isBlank_or_isOperatorChar fun a ha =>
      .inr (isOperatorChar_of_mem_operator ha)
    have h_open : Nesting.after {} s = {} := h.isSealed.after_eq 0
    have h_open' : Nesting.after {} (s ++ o.symbol) = {} := (h.isSealed.append h_symbol).after_eq 0
    have h_length : (passed ++ s).length < text.length ∧ t.length < text.length := by
      obtain ⟨a, rest, h_cons, -⟩ := o.exists_symbol_eq_cons
      rw [h_text, h_cons]
      simp only [List.length_append, List.length_cons]
      omega
    -- the rest of the row, with one more segment passed
    have h_later := ih (passed ++ (s ++ o.symbol)) (fun c => before (.link m o c))
      (by rw [h_text, List.append_assoc passed])
      (fun l => by
        rw [← List.append_assoc]
        exact endsOperand_append_operator o.1 _ l)
      (fun l c hr => by
        have h_link := h_row _ _ (Row.link h o hr)
        rwa [← List.append_assoc] at h_link)
    -- the operator itself: both sides are shorter rows
    obtain ⟨p, h_last, hp⟩ := h.exists_getLast?
    have h_split := findSome?_cutsWithin_symbol level o hp h_rest
      (h_shorter _ _ h_length.1 (h_row _ _ (.single h))) (h_shorter _ _ h_length.2 h_rest)
    rw [List.append_assoc passed, List.append_assoc passed, ← h_text,
      Text.byteSize_append] at h_split
    have h_first := findSome?_cutsWithin_segment h h_end level.members passed.getLast?
      (o.symbol ++ t)
    rw [← List.append_assoc s, ← h_text] at h_first
    -- the walk over the row is one over the segment, the operator and the rest
    rw [cutsWithin_append, List.findSome?_append, cutsWithin_append, List.findSome?_append,
      List.append_nil, h_open, h_open', h_last, Option.some_or, h_split, h_first, Option.or_none,
      ← Text.byteSize_append, ← List.getLast?_append, h_later]
    rw [Chain.splits, List.map_append, Chain.settleAt, Chain.settleAt, List.findSome?_append,
      List.map_map, List.map_singleton, List.findSome?_singleton]
    rfl

/-- The search of a row at one level. -/
theorem valueAmong_eq_settleAt {text : List Char} {c : Chain} (h : Row scope text c)
    (h_shorter : ∀ s c, s.length < text.length → Row scope s c → valueOf scope s = c.settle)
    (level : Precedence) :
    valueAmong scope level.members text = Chain.settleAt level c.splits := by
  have h_cuts := findSome?_cutsWithin_row level h h_shorter [] id rfl (fun _ => rfl)
    (fun _ _ hr => hr)
  rw [valueAmong, cutsAmong, cuts_eq_cutsWithin]
  refine h_cuts.trans ?_
  congr 1
  exact List.map_id' _

/-! ### Signs -/

/-- The sign at the start of a text is applied to what follows it. -/
theorem signedValue_symbol (scope : Scope) (u : Unary) (rest : List Char) :
    signedValue scope (u.symbol :: rest) =
      (valueOf scope rest).bind fun v => (u.apply v).toOption := by
  cases u <;> rfl

/-- Without a sign there is nothing to apply. -/
theorem signedValue_eq_none {a : Char} (h : Unary.ofChar? a = none) (rest : List Char) :
    signedValue scope (a :: rest) = none := by
  unfold signedValue
  split
  · next h_eq =>
    cases h_eq
    exact absurd h (by simp [Unary.ofChar?])
  · next h_eq =>
    cases h_eq
    exact absurd h (by simp [Unary.ofChar?])
  · rfl

/-- A number that is read with its sign is the number after the sign, with the sign applied. No
other text that is resolved directly starts with a sign. -/
theorem valueOf_cons_symbol_of_isDirect {u : Unary} {rest : List Char}
    (h_trim : Text.trim (u.symbol :: rest) = u.symbol :: rest) (h : IsDirect (u.symbol :: rest)) :
    valueOf scope (u.symbol :: rest) =
      (valueOf scope rest).bind fun v => (u.apply v).toOption := by
  cases h with
  | number h =>
    obtain ⟨x, h_x⟩ := Option.isSome_iff_exists.mp h
    have h_head := (Number.spelling_of_parse? h).head_of_not_isMantissaChar (by cases u <;> decide)
    cases u with
    | not => exact absurd h_head.1 (by decide)
    | minus =>
      obtain ⟨y, h_y, rfl⟩ := Number.parse?_cons_minus h_x
      -- nothing can stand between the sign and its digits
      have h_rest : Text.trim rest = rest := by
        refine trim_of_isDirect (.number (by rw [h_y]; rfl)) ?_
        obtain ⟨a, h_a, h_mantissa⟩ := (Option.any_eq_true _ _).mp h_head.2
        rw [h_a]
        exact opensLexeme_of_isRunChar (isRunChar_of_isMantissaChar h_mantissa)
      have h_signed : literal? (Unary.minus.symbol :: rest) = some (.number (-y)) := by
        unfold literal?
        rw [h_x]
      have h_plain : literal? rest = some (.number y) := by
        unfold literal?
        rw [h_y]
      rw [valueOf_of_literal? h_trim h_signed, valueOf_of_literal? h_rest h_plain]
      rfl
  | quoted h =>
    have h_eq := (quoted?_eq_some h).1
    rw [List.cons.injEq] at h_eq
    exact absurd h_eq.1 (by cases u <;> decide)
  | name h =>
    have h_start := (Bool.and_eq_true_iff.mp h).1
    exact absurd h_start (by cases u <;> decide)
  | group h => cases u <;> exact absurd h (by simp [group?, Unary.symbol])

/-! ### The value of a row -/

/-- A segment without signs is its operand, with blanks around. -/
theorem Segment.lexeme_trim {s : List Char} {v : Option Value} (h : Segment scope s ⟨[], v⟩) :
    Lexeme scope (Text.trim s) v := by
  obtain ⟨front, body, back, rfl, h_front, h_signs, h_body, h_back⟩ := h
  -- without signs there are only blanks before the operand
  have h_blank : ∀ c ∈ front, Text.isBlank c := by
    intro c hc
    refine (h_front c hc).resolve_right fun h_sign => ?_
    rw [List.filterMap_eq_nil_iff.mp h_signs.symm c hc] at h_sign
    exact Bool.false_ne_true h_sign
  rw [Text.trim_blanks h_blank h_back, trim_of_isDirect h_body.direct h_body.opens]
  exact h_body

/-- A segment that does not start with a blank starts with its first sign, or it has none. -/
theorem Segment.sign_cases {s : List Char} (h : Segment scope s m)
    (h_head : ¬ s.head?.any Text.isBlank) :
    (∃ u signs rest, m.signs = u :: signs ∧ s = u.symbol :: rest ∧
        Segment scope rest ⟨signs, m.value⟩) ∨
      m.signs = [] ∧ ∃ a rest, s = a :: rest ∧ Unary.ofChar? a = none := by
  obtain ⟨front, body, back, rfl, h_front, h_signs, h_body, h_back⟩ := h
  cases front with
  | nil =>
    obtain ⟨c, rest, rfl, h_c⟩ := h_body.exists_cons
    refine .inr ⟨h_signs, c, rest ++ back, rfl, ?_⟩
    simp only [opensLexeme, Bool.and_eq_true, decide_eq_true_eq, List.mem_cons, not_or] at h_c
    rw [Unary.ofChar?]
    · exact h_c.2.1
    · exact h_c.2.2.1
  | cons a front =>
    have h_a := (h_front a List.mem_cons_self).resolve_left fun h_blank => h_head h_blank
    obtain ⟨u, h_u⟩ := Option.isSome_iff_exists.mp h_a
    rw [List.filterMap_cons, h_u] at h_signs
    refine .inl ⟨u, _, front ++ (body ++ back), h_signs, ?_, front, body, back, rfl, ?_, rfl,
      h_body, h_back⟩
    · rw [Unary.symbol_of_ofChar? h_u]
      rfl
    · exact fun c hc => h_front c (List.mem_cons_of_mem a hc)

/-- A trimmed row starts with its first sign, or it has none. -/
theorem Row.sign_cases {s : List Char} {c : Chain} (h : Row scope s c)
    (h_trim : Text.trim s = s) :
    (∃ u d rest, c.firstSign? = some (u, d) ∧ s = u.symbol :: rest ∧ Row scope rest d) ∨
      c.firstSign? = none ∧ ∃ a rest, s = a :: rest ∧ Unary.ofChar? a = none := by
  have h_head : ¬ s.head?.any Text.isBlank := by
    rw [Option.any_eq_true]
    rintro ⟨a, h_a, h_blank⟩
    rw [← h_trim] at h_a
    exact Bool.false_ne_true ((Text.isBlank_of_head?_trim h_a).symm.trans h_blank)
  cases h with
  | @single s m h =>
    obtain ⟨signs, v⟩ := m
    rcases h.sign_cases h_head with ⟨u, signs, rest, rfl, rfl, h_rest⟩ | ⟨rfl, h_first⟩
    · exact .inl ⟨u, .single ⟨signs, v⟩, rest, rfl, rfl, .single h_rest⟩
    · exact .inr ⟨rfl, h_first⟩
  | @link s t m c h o h_rest =>
    obtain ⟨signs, v⟩ := m
    obtain ⟨a, front, rfl, -⟩ := h.exists_cons
    rcases h.sign_cases h_head with ⟨u, signs, rest, rfl, h_eq, h_first⟩ | ⟨rfl, b, rest, h_eq, h_b⟩
    · refine .inl ⟨u, .link ⟨signs, v⟩ o c, rest ++ o.symbol ++ t, rfl, ?_, .link h_first o h_rest⟩
      rw [h_eq]
      rfl
    · refine .inr ⟨rfl, b, rest ++ o.symbol ++ t, ?_, h_b⟩
      rw [h_eq]
      rfl

/-- A row with an operator is not resolved directly. -/
theorem Segment.not_isDirect {s : List Char} (h : Segment scope s m) (o : Operator)
    (t : List Char) : ¬ IsDirect (s ++ o.symbol ++ t) := by
  obtain ⟨a, rest, h_symbol, h_a⟩ := o.exists_symbol_eq_cons
  have h_open : Nesting.after {} s = {} := h.isSealed.after_eq 0
  rw [h_symbol, List.append_assoc, List.cons_append]
  refine Resolve.not_isDirect ?_ h_a h.endsOperand
  rw [h_open]
  exact exposes_of_isOperatorChar h_a

/-- A row that is resolved directly has no operators. -/
theorem Row.splits_eq_nil {s : List Char} {c : Chain} (h : Row scope s c) (h_direct : IsDirect s) :
    c.splits = [] := by
  cases h with
  | single h => rfl
  | link h o h_rest => exact absurd h_direct (h.not_isDirect o _)

/-- A trimmed row without a sign at its start is a single operand, or it has operators. -/
theorem Row.bare_cases {s : List Char} {c : Chain} (h : Row scope s c) (h_trim : Text.trim s = s)
    (h_first : c.firstSign? = none) :
    (∃ v, c = .single ⟨[], v⟩ ∧ Lexeme scope s v) ∨ ¬ IsDirect s ∧ c.bareValue = none := by
  cases h with
  | @single s m h =>
    obtain ⟨signs, v⟩ := m
    cases signs with
    | nil => exact .inl ⟨v, rfl, h_trim ▸ h.lexeme_trim⟩
    | cons u signs => exact absurd h_first (by simp [Chain.firstSign?])
  | link h o h_rest => exact .inr ⟨h.not_isDirect o _, rfl⟩

/-- **The value of a row is what its chain settles to.** By induction on the length of the text. -/
theorem Row.valueOf_eq_settle {s : List Char} {c : Chain} (h : Row scope s c) :
    valueOf scope s = c.settle := by
  induction h_length : s.length using Nat.strong_induction_on generalizing s c with
  | _ n ih =>
    -- blanks at the ends change neither side, so the text may be taken to be trimmed
    have h_le := Text.length_trim_le s
    have h_trim := Text.trim_trim s
    have h_row := h.trim
    rw [← valueOf_trim]
    generalize Text.trim s = t at h_le h_trim h_row ⊢
    have h_shorter : ∀ s c, s.length < t.length → Row scope s c → valueOf scope s = c.settle :=
      fun s c h_s h_c => ih s.length (by omega) h_c rfl
    -- unless the text is a literal, a name or a group, the levels and then the sign are searched
    have h_search : ¬ IsDirect t → valueOf scope t =
        (Precedence.all.findSome? fun level => Chain.settleAt level c.splits).or
          (signedValue scope t) := by
      intro h_direct
      obtain ⟨h_literal, h_name, h_group⟩ := search_of_not_isDirect h_direct
      rw [valueOf_eq_search h_trim h_literal h_name h_group]
      simp only [valueAmong_eq_settleAt h_row h_shorter]
    rcases h_row.sign_cases h_trim with ⟨u, d, rest, h_first, rfl, h_rest⟩ |
      ⟨h_first, a, rest, rfl, h_a⟩
    · -- the row starts with a sign
      have h_sign : c.settleSign = (valueOf scope rest).bind fun v => (u.apply v).toOption := by
        rw [Chain.settleSign, h_first, h_shorter rest d (Nat.lt_succ_self _) h_rest]
      by_cases h_direct : IsDirect (u.symbol :: rest)
      · -- a number with its sign, which has no operators
        rw [valueOf_cons_symbol_of_isDirect h_trim h_direct, ← h_sign, Chain.settle_eq,
          h_row.splits_eq_nil h_direct]
        rfl
      · rw [h_search h_direct, Chain.settle_eq, h_sign, signedValue_symbol]
    · -- it starts with an operand, which is all of it or has an operator after it
      rcases h_row.bare_cases h_trim h_first with ⟨v, rfl, h_lexeme⟩ | ⟨h_direct, h_bare⟩
      · rw [h_lexeme.valueOf_eq, Chain.settle_single]
      · rw [h_search h_direct, Chain.settle_eq, Chain.settleSign, h_first, h_bare,
          signedValue_eq_none h_a]

end LineScript
