import LineScript.Scan.Cut

/-!
# The cuts of a text, part by part

`Scan.cuts` collects its cuts in one walk from the left. The proofs about resolution look at a text
in parts instead: an operand, an operator, the operands after it. This module says which cuts start
in which part.

* `cutsWithin`: the cuts that start in one part of a text, given what follows that part. The cuts of
  two adjoining parts are those of the second, then those of the first
  (`cutsWithin_append`), and the whole text is a part of itself (`cuts_eq_cutsWithin`);
* `exists_of_mem_cutsWithin`: where a cut stands, read back from its membership;
* `exists_sides_of_mem_cuts`: **the sides of a cut and its operator make up the text**, and none of
  the three is empty.
-/

namespace LineScript.Scan

variable {operators : List (List Char)} {text : String} {cut : Cut}

/-- The cuts that start in a part of a text when `coming` follows that part, the rightmost first.
The part starts at the given position, with the given nesting and character before it. -/
def cutsWithin (operators : List (List Char)) (text : String) (n : Nesting) (position : Nat)
    (previous : Option Char) : List Char → List Char → List Cut
  | [], _ => []
  | c :: part, coming =>
    cutsWithin operators text (n.next c) (position + c.utf8Size) (some c) part coming ++
      cutsHere operators text n position previous (c :: (part ++ coming))

/-! ### Parts -/

/-- A character of two adjoining parts stands in one of them. -/
theorem append_eq_append_cons {α : Type} {a b l r : List α} {c : α} (h : a ++ b = l ++ c :: r) :
    (∃ r', a = l ++ c :: r') ∨ ∃ l', l = a ++ l' ∧ b = l' ++ c :: r := by
  rcases List.append_eq_append_iff.mp h with ⟨l', rfl, h_b⟩ | ⟨m, rfl, h_m⟩
  · exact .inr ⟨l', rfl, h_b⟩
  · cases m with
    | nil => exact .inr ⟨[], by rw [List.append_nil, List.append_nil], h_m.symm⟩
    | cons e m =>
      rw [List.cons_append, List.cons.injEq] at h_m
      exact .inl ⟨m, by rw [h_m.1]⟩

/-- The walk puts the cuts it finds in front of those it has, so they can be collected apart. -/
theorem cutsFrom_eq_append (n : Nesting) (position : Nat) (previous : Option Char)
    (s : List Char) (found : List Cut) :
    cutsFrom operators text n position previous s found =
      cutsWithin operators text n position previous s [] ++ found := by
  -- cuts already found stay behind those still to be found
  induction s generalizing n position previous found with
  | nil => rfl
  | cons c rest ih =>
    rw [cutsFrom, cutsWithin, ih, List.append_assoc, List.append_nil]

/-- The whole text is a part that nothing follows. -/
theorem cuts_eq_cutsWithin (operators : List (List Char)) (s : List Char) :
    cuts operators s = cutsWithin operators (String.ofList s) {} 0 none s [] := by
  rw [cuts, cutsFrom_eq_append, List.append_nil]

/-- The character before the rest of a part: `c` if the rest has just begun. -/
private theorem getLast?_cons_or (c : Char) (s : List Char) (previous : Option Char) :
    (c :: s).getLast?.or previous = s.getLast?.or (some c) := by
  cases s with
  | nil => rfl
  | cons d s =>
    rw [List.getLast?_cons_cons, List.getLast?_eq_some_getLast (List.cons_ne_nil d s)]
    rfl

/-- **Cuts of adjoining parts.** The second part sees the nesting, the position and the last
character that the first one leaves, and its cuts come first. -/
theorem cutsWithin_append (n : Nesting) (position : Nat) (previous : Option Char)
    (s t coming : List Char) :
    cutsWithin operators text n position previous (s ++ t) coming =
      cutsWithin operators text (n.after s) (position + Text.byteSize s) (s.getLast?.or previous)
          t coming ++
        cutsWithin operators text n position previous s (t ++ coming) := by
  -- position, nesting and last character move on with each character of the first part
  induction s generalizing n position previous with
  | nil => simp [cutsWithin]
  | cons c s ih =>
    rw [List.cons_append, cutsWithin, cutsWithin, ih, getLast?_cons_or, Nesting.after_cons,
      Text.byteSize_cons, Nat.add_assoc, List.append_assoc, List.append_assoc s t coming]

/-! ### Where a cut stands -/

/-- A cut found at a position is at one of the operators, which starts what is to come there. -/
theorem of_mem_cutsHere {n : Nesting} {position : Nat} {previous : Option Char}
    {coming : List Char} (h : cut ∈ cutsHere operators text n position previous coming) :
    coming.head?.any n.exposes ∧ meets previous coming cut.operator ∧ cut.operator ∈ operators ∧
      cut.text = text ∧ cut.position = position := by
  unfold cutsHere at h
  split at h
  · next h_exposed =>
    obtain ⟨operator, h_op, rfl⟩ := List.mem_map.mp h
    obtain ⟨h_mem, h_meets⟩ := List.mem_filter.mp h_op
    exact ⟨h_exposed, h_meets, h_mem, rfl, rfl⟩
  · exact absurd h List.not_mem_nil

/-- A cut within a part stands before some character of it, in the state that the walk has there. -/
theorem exists_of_mem_cutsWithin {n : Nesting} {position : Nat} {previous : Option Char}
    {part coming : List Char}
    (h : cut ∈ cutsWithin operators text n position previous part coming) :
    ∃ l c r, part = l ++ c :: r ∧
      cut ∈ cutsHere operators text (n.after l) (position + Text.byteSize l)
        (l.getLast?.or previous) (c :: (r ++ coming)) := by
  -- the induction follows the walk: the state at the character is what passing `l` leaves
  induction part generalizing n position previous with
  | nil => exact absurd h List.not_mem_nil
  | cons d part ih =>
    rcases List.mem_append.mp h with h_later | h_here
    · obtain ⟨l, c, r, rfl, h_at⟩ := ih h_later
      refine ⟨d :: l, c, r, rfl, ?_⟩
      rw [Nesting.after_cons, Text.byteSize_cons, ← Nat.add_assoc, getLast?_cons_or]
      exact h_at
    · exact ⟨[], d, part, rfl, h_here⟩

/-- What it takes for an operator to be met: it starts what is to come, and something stands on
either side of it. -/
theorem exists_of_meets {previous : Option Char} {coming operator : List Char}
    (h : meets previous coming operator) :
    operator ≠ [] ∧ previous.isSome ∧ ∃ d r, coming = operator ++ d :: r ∧
      ¬ clashes operator previous d := by
  simp only [meets, Bool.and_eq_true, Bool.not_eq_true', List.isEmpty_eq_false_iff] at h
  obtain ⟨⟨⟨h_start, h_ne⟩, h_some⟩, h_clash⟩ := h
  obtain ⟨rest, rfl⟩ := List.isPrefixOf_iff_prefix.mp h_start
  rw [List.drop_left] at h_clash
  -- what follows the operator cannot be empty, or nothing could be read there
  cases rest with
  | nil => exact absurd h_clash Bool.false_ne_true
  | cons d r => exact ⟨h_ne, h_some, d, r, rfl, by simpa using h_clash⟩

/-- The sides of a cut whose operator starts after `l`, as texts. -/
theorem before_after_of_position {l r : List Char}
    (h_text : cut.text = String.ofList (l ++ cut.operator ++ r))
    (h_position : cut.position = Text.byteSize l) :
    cut.before = String.ofList l ∧ cut.after = String.ofList r := by
  -- the side before is an excerpt after nothing, the side after one before nothing
  have h_before := Text.excerpt_append [] l (cut.operator ++ r)
  have h_after := Text.excerpt_append (l ++ cut.operator) r []
  rw [List.nil_append, ← List.append_assoc, Text.byteSize_nil, Nat.zero_add] at h_before
  rw [List.append_nil, Text.byteSize_append] at h_after
  have h_size : (String.ofList (l ++ cut.operator ++ r)).utf8ByteSize =
      Text.byteSize l + Text.byteSize cut.operator + Text.byteSize r := by
    rw [Text.utf8ByteSize_ofList, Text.byteSize_append, Text.byteSize_append]
  rw [Cut.before, Cut.after, h_text, h_position, h_size]
  exact ⟨h_before, h_after⟩

/-- **The sides of a cut.** The text is one side, the operator and the other side. None of the three
is empty, and the operator stands where nothing is open. -/
theorem exists_sides_of_mem_cuts {s : List Char} (h : cut ∈ cuts operators s) :
    ∃ l r, s = l ++ cut.operator ++ r ∧ cut.before = String.ofList l ∧
      cut.after = String.ofList r ∧ l ≠ [] ∧ r ≠ [] ∧ cut.operator ≠ [] ∧
      cut.operator ∈ operators ∧ (cut.operator ++ r).head?.any (Nesting.after {} l).exposes := by
  rw [cuts_eq_cutsWithin] at h
  obtain ⟨l, c, r, rfl, h_here⟩ := exists_of_mem_cutsWithin h
  obtain ⟨h_exposed, h_meets, h_mem, h_text, h_position⟩ := of_mem_cutsHere h_here
  obtain ⟨h_ne, h_some, d, r', h_coming, -⟩ := exists_of_meets h_meets
  -- the part is the whole text, so nothing is to come after it and positions count from 0
  rw [List.append_nil] at h_coming h_exposed
  rw [Nat.zero_add] at h_position
  rw [h_coming, ← List.append_assoc] at h_text
  obtain ⟨h_before, h_after⟩ := before_after_of_position h_text h_position
  refine ⟨l, d :: r', ?_, h_before, h_after, ?_, List.cons_ne_nil _ _, h_ne, h_mem, ?_⟩
  · rw [h_coming, List.append_assoc]
  · rintro rfl
    exact absurd h_some (by simp)
  · rwa [← h_coming]

/-- The side before a cut is shorter than the text: resolution may recurse on it. -/
theorem length_before_lt {s : List Char} (h : cut ∈ cuts operators s) :
    cut.before.toList.length < s.length := by
  obtain ⟨l, r, rfl, h_before, -, -, h_r, -⟩ := exists_sides_of_mem_cuts h
  have := List.length_pos_iff.mpr h_r
  rw [h_before, String.toList_ofList, List.length_append, List.length_append]
  omega

/-- The side after a cut is shorter too. -/
theorem length_after_lt {s : List Char} (h : cut ∈ cuts operators s) :
    cut.after.toList.length < s.length := by
  obtain ⟨l, r, rfl, -, h_after, h_l, -⟩ := exists_sides_of_mem_cuts h
  have := List.length_pos_iff.mpr h_l
  rw [h_after, String.toList_ofList, List.length_append, List.length_append]
  omega

end LineScript.Scan
