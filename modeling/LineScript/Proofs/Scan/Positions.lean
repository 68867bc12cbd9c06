import LineScript.Proofs.Scan.Order

/-!
# Where operators are reported

The search for an operator is a walk over characters that carries along what is open, the last
character and a count of bytes. What it reports is a list of byte offsets, and every caller takes
the text apart at such an offset. This module says what the offsets are, without the walk.

* `Reported`: when an operator between two parts of a text is reported. Both parts hold something,
  nothing is open after the first, and the characters next to the operator do not make it a part of
  a longer one;
* `divides_iff`: a cut divides a text exactly where its operator is reported;
* `mem_positions_iff`: **an offset is reported if and only if it is the size of what stands before
  such an operator**;
* `pairwise_positions`: each offset is reported once, from right to left;
* `isValid_ends`: both ends of an operator are boundaries between characters, whatever characters
  stand around it. So no side that is taken from the text reaches into a character
  (`isValid_of_mem_cuts`).
-/

namespace LineScript.Scan

variable {operator : List Char} {operators : List (List Char)} {s l r : List Char} {cut : Cut}

/-- Where a text may be cut at an operator, in bytes from its start, the rightmost place first. -/
def positions (operator s : List Char) : List Nat :=
  (cuts [operator] s).map Cut.position

/-- An operator that stands between `l` and `r` is reported. -/
structure Reported (operator l r : List Char) : Prop where
  left_ne_nil : l ≠ []
  right_ne_nil : r ≠ []
  /-- Quotes and parentheses are never exposed, so nothing that starts with one is found. -/
  head_plain : ∀ c ∈ operator.head?, c ≠ '"' ∧ c ≠ '(' ∧ c ≠ ')'
  isClosed : (Nesting.after {} l).isClosed
  /-- With its two neighbours the operator does not make a longer one. -/
  lone : ∀ c ∈ r.head?, clashes operator l.getLast? c = false

/-! ### Which offsets are reported -/

/-- An operator is met exactly if something stands on either side of it and it makes no longer one
with what follows. -/
theorem meets_iff {previous : Option Char} {coming : List Char} :
    meets previous coming operator ↔
      operator ≠ [] ∧ previous.isSome ∧ ∃ d r, coming = operator ++ d :: r ∧
        ¬ clashes operator previous d := by
  refine ⟨exists_of_meets, ?_⟩
  rintro ⟨h_ne, h_some, d, r, rfl, h_clash⟩
  have h_start : operator.isPrefixOf (operator ++ d :: r) :=
    List.isPrefixOf_iff_prefix.mpr (List.prefix_append _ _)
  have h_rest : (operator ++ d :: r).drop operator.length = d :: r := List.drop_left
  have h_lone : clashes operator previous d = false := by simpa using h_clash
  rw [meets, h_rest, h_start, h_some, List.isEmpty_eq_false_iff.mpr h_ne]
  simp only [h_lone, Bool.not_false, Bool.and_self]

/-- Quotes and parentheses are never exposed, anything else where nothing is open. -/
theorem Nesting.exposes_iff {n : Nesting} {c : Char} :
    n.exposes c ↔ n.isClosed ∧ c ≠ '"' ∧ c ≠ '(' ∧ c ≠ ')' := by
  simp [Nesting.exposes, and_assoc]

/-- An operator is exposed if nothing is open before it and its first character is a plain one. -/
theorem any_exposes_append_iff {n : Nesting} (h : operator ≠ []) :
    (operator ++ r).head?.any n.exposes ↔
      n.isClosed ∧ ∀ c ∈ operator.head?, c ≠ '"' ∧ c ≠ '(' ∧ c ≠ ')' := by
  obtain ⟨c, rest, rfl⟩ := List.exists_cons_of_ne_nil h
  simp [Nesting.exposes_iff]

/-- **A cut divides a text exactly where its operator is reported.** -/
theorem divides_iff {coming : List Char} :
    cut.Divides l coming ↔
      cut.operator ≠ [] ∧ cut.text = String.ofList (l ++ coming) ∧
        cut.position = Text.byteSize l ∧ ∃ r, coming = cut.operator ++ r ∧
          Reported cut.operator l r := by
  constructor
  · -- the two tests of the walk give one half of what is reported each
    rintro ⟨h_exposed, h_meets, h_text, h_position⟩
    obtain ⟨h_ne, h_some, d, r, rfl, h_clash⟩ := meets_iff.mp h_meets
    obtain ⟨h_closed, h_plain⟩ := (any_exposes_append_iff h_ne).mp h_exposed
    refine ⟨h_ne, h_text, h_position, d :: r, rfl, ?_, List.cons_ne_nil _ _, h_plain, h_closed, ?_⟩
    · rintro rfl
      exact absurd h_some Bool.false_ne_true
    · intro c hc
      obtain rfl : d = c := by simpa using hc
      simpa using h_clash
  · rintro ⟨h_ne, h_text, h_position, r, rfl, h⟩
    obtain ⟨d, r, rfl⟩ := List.exists_cons_of_ne_nil h.right_ne_nil
    have h_some : l.getLast?.isSome := by
      rw [List.getLast?_eq_some_getLast h.left_ne_nil]
      rfl
    have h_lone : ¬ clashes cut.operator l.getLast? d := by
      rw [h.lone d rfl]
      exact Bool.false_ne_true
    exact ⟨(any_exposes_append_iff h_ne).mpr ⟨h.isClosed, h.head_plain⟩,
      meets_iff.mpr ⟨h_ne, h_some, d, r, rfl, h_lone⟩, h_text, h_position⟩

/-- **The offsets that are reported.** -/
theorem mem_positions_iff (h : operator ≠ []) {p : Nat} :
    p ∈ positions operator s ↔
      ∃ l r, s = l ++ operator ++ r ∧ p = Text.byteSize l ∧ Reported operator l r := by
  simp only [positions, List.mem_map, mem_cuts_iff, List.mem_singleton]
  constructor
  · rintro ⟨cut, ⟨rfl, l, coming, rfl, h_divides⟩, rfl⟩
    obtain ⟨-, -, h_position, r, rfl, h_reported⟩ := divides_iff.mp h_divides
    exact ⟨l, r, by rw [List.append_assoc], h_position, h_reported⟩
  · rintro ⟨l, r, rfl, rfl, h_reported⟩
    -- the cut is made up from the place, and the walk finds it
    let cut : Cut := ⟨String.ofList (l ++ (operator ++ r)), Text.byteSize l, operator⟩
    have h_divides : cut.Divides l (operator ++ r) :=
      divides_iff.mpr ⟨h, rfl, rfl, r, rfl, h_reported⟩
    exact ⟨cut, ⟨rfl, l, operator ++ r, List.append_assoc l operator r, h_divides⟩, rfl⟩

/-! ### The order of offsets -/

/-- One operator gives at most one cut at a position, so the cuts go strictly from right to left. -/
theorem pairwise_cutsWithin_singleton (operator : List Char) (text : String) (n : Nesting)
    (position : Nat) (previous : Option Char) (part coming : List Char) :
    (cutsWithin [operator] text n position previous part coming).Pairwise
      fun a b => b.position < a.position := by
  induction part generalizing n position previous with
  | nil => exact .nil
  | cons c part ih =>
    refine List.pairwise_append.mpr ⟨ih _ _ _, ?_, ?_⟩
    · -- there is one operator to look for, so this list has at most one entry
      unfold cutsHere
      split
      · rw [List.filter_cons, List.filter_nil]
        split
        · exact List.pairwise_singleton _ _
        · exact .nil
      · exact .nil
    · intro a ha b hb
      -- cuts further on stand at least one character behind this one
      have h_later : position + c.utf8Size ≤ a.position := position_le_of_mem_cutsWithin ha
      have h_here : b.position = position := (of_mem_cutsHere hb).2.2.2.2
      have h_size : 0 < c.utf8Size := c.utf8Size_pos
      omega

/-- Each offset is reported once, from right to left. -/
theorem pairwise_positions (operator s : List Char) : (positions operator s).Pairwise (· > ·) := by
  rw [positions, cuts_eq_cutsWithin]
  exact List.pairwise_map.mpr (pairwise_cutsWithin_singleton operator _ _ _ _ s [])

/-! ### Boundaries between characters -/

/-- The end of what starts a text is a boundary between characters. -/
theorem isValid_byteSize (l r : List Char) :
    String.Pos.Raw.IsValid (String.ofList (l ++ r)) ⟨Text.byteSize l⟩ := by
  refine String.Pos.Raw.isValid_iff_exists_append.mpr ⟨String.ofList l, String.ofList r, ?_, ?_⟩
  · exact String.ofList_append
  · rw [String.Pos.Raw.ext_iff, String.byteIdx_rawEndPos, Text.utf8ByteSize_ofList]

/-- Whatever stands in a text starts and ends at boundaries between characters. -/
theorem isValid_ends (l m r : List Char) :
    String.Pos.Raw.IsValid (String.ofList (l ++ m ++ r)) ⟨Text.byteSize l⟩ ∧
      String.Pos.Raw.IsValid (String.ofList (l ++ m ++ r))
        ⟨Text.byteSize l + Text.byteSize m⟩ := by
  constructor
  · rw [List.append_assoc]
    exact isValid_byteSize l (m ++ r)
  · -- the end of what stands there is the end of what starts the text up to there
    rw [← Text.byteSize_append]
    exact isValid_byteSize (l ++ m) r

/-- A cut starts and ends at boundaries of its text, whichever operators were looked for. -/
theorem isValid_of_mem_cuts (h : cut ∈ cuts operators s) :
    cut.text = String.ofList s ∧ String.Pos.Raw.IsValid cut.text ⟨cut.position⟩ ∧
      String.Pos.Raw.IsValid cut.text ⟨cut.position + Text.byteSize cut.operator⟩ := by
  obtain ⟨-, l, coming, rfl, h_divides⟩ := mem_cuts_iff.mp h
  obtain ⟨-, h_text, h_position, r, rfl, -⟩ := divides_iff.mp h_divides
  refine ⟨h_text, ?_⟩
  rw [h_text, h_position, ← List.append_assoc]
  exact isValid_ends l cut.operator r

/-- **The search for an operator reports exactly the places where it stands inside the text**,
exposed and not as a part of a longer operator, each once and from right to left. Wherever an
operator occurs at all, it lies between boundaries of characters, so what is looked at on its two
sides is whole. The same holds of every cut, for whichever operators it was made, and its sides are
the parts of the text before and after the operator. -/
theorem positions_exact (s operator : List Char) (h : operator ≠ []) :
    (positions operator s).Pairwise (· > ·) ∧
    (∀ p, p ∈ positions operator s ↔
      ∃ l r, s = l ++ operator ++ r ∧ p = Text.byteSize l ∧ Reported operator l r) ∧
    (∀ l r, s = l ++ operator ++ r →
      String.Pos.Raw.IsValid (String.ofList s) ⟨Text.byteSize l⟩ ∧
        String.Pos.Raw.IsValid (String.ofList s) ⟨Text.byteSize l + Text.byteSize operator⟩) ∧
    ∀ operators, ∀ cut ∈ cuts operators s,
      cut.text = String.ofList s ∧ String.Pos.Raw.IsValid cut.text ⟨cut.position⟩ ∧
        String.Pos.Raw.IsValid cut.text ⟨cut.position + Text.byteSize cut.operator⟩ ∧
        ∃ l r, s = l ++ cut.operator ++ r ∧ cut.before = String.ofList l ∧
          cut.after = String.ofList r := by
  refine ⟨pairwise_positions operator s, fun p => mem_positions_iff h, ?_, ?_⟩
  · rintro l r rfl
    exact isValid_ends l operator r
  · intro operators cut h_cut
    obtain ⟨h_text, h_start, h_end⟩ := isValid_of_mem_cuts h_cut
    obtain ⟨l, r, h_s, h_before, h_after, -⟩ := exists_sides_of_mem_cuts h_cut
    exact ⟨h_text, h_start, h_end, l, r, h_s, h_before, h_after⟩

/-- In `é<=b<ß` the first `<` belongs to `<=`. The second is reported with its offset in bytes, and
a letter of two bytes stands right behind it. -/
theorem positions_exact_letters :
    ['<'] ≠ [] ∧ positions ['<'] "é<=b<ß".toList = [5] ∧
      Reported ['<'] "é<=b".toList "ß".toList ∧ ¬ Reported ['<'] "é".toList "=b<ß".toList ∧
      String.Pos.Raw.IsValid (String.ofList "é<=b<ß".toList) ⟨5⟩ ∧
      String.Pos.Raw.IsValid (String.ofList "é<=b<ß".toList) ⟨6⟩ := by
  obtain ⟨-, h_exact, h_valid, -⟩ := positions_exact "é<=b<ß".toList ['<'] (by decide)
  have h_positions : positions ['<'] "é<=b<ß".toList = [5] := by decide
  have h_ends := h_valid "é<=b".toList "ß".toList (by decide)
  refine ⟨by decide, h_positions, ?_, ?_, h_ends⟩
  · exact ⟨by decide, by decide, by simp, by decide, by simp [clashes]⟩
  · -- it would be found after the two bytes of the first letter
    intro h_reported
    have h_mem : Text.byteSize "é".toList ∈ positions ['<'] "é<=b<ß".toList :=
      (h_exact _).mpr ⟨"é".toList, "=b<ß".toList, by decide, rfl, h_reported⟩
    rw [h_positions] at h_mem
    exact absurd h_mem (by decide)

end LineScript.Scan
