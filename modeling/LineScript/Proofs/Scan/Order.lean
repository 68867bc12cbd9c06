import LineScript.Proofs.Scan.Cuts
import Mathlib.Data.List.Pairwise

/-!
# The order of cuts

A search goes through the cuts of a text and stops at the first that passes, so what it finds
depends on their order. This module says what that comes to in terms of positions.

* `mem_cuts_iff`: which cuts there are, without a walk: a text may be cut at an operator wherever
  the operator is exposed and met;
* `pairwise_cuts`: the cuts are listed from right to left;
* `findSome?_eq_some_iff_rightmost`: **the first cut that passes is the rightmost one**, as long as
  no two cuts of the list stand at one position.
-/

namespace LineScript.Scan

variable {operators : List (List Char)} {text : String} {s l r : List Char} {cut : Cut}

/-! ### Where cuts stand -/

/-- The cut is at an operator that is exposed and met between `l` and the end of `l ++ coming`. -/
structure Cut.Divides (cut : Cut) (l coming : List Char) : Prop where
  exposed : coming.head?.any (Nesting.after {} l).exposes
  isMet : meets l.getLast? coming cut.operator
  text_eq : cut.text = String.ofList (l ++ coming)
  position_eq : cut.position = Text.byteSize l

/-- **The cuts of a text.** -/
theorem mem_cuts_iff :
    cut ∈ cuts operators s ↔
      cut.operator ∈ operators ∧ ∃ l coming, s = l ++ coming ∧ cut.Divides l coming := by
  rw [cuts_eq_cutsWithin]
  constructor
  · -- a cut of the walk stands at some character, and the walk has passed what is before it
    intro h
    obtain ⟨l, c, r, rfl, h_here⟩ := exists_of_mem_cutsWithin h
    rw [List.append_nil, Nat.zero_add, Option.or_none] at h_here
    obtain ⟨h_exposed, h_meets, h_mem, h_text, h_position⟩ := of_mem_cutsHere h_here
    exact ⟨h_mem, l, c :: r, rfl, h_exposed, h_meets, h_text, h_position⟩
  · rintro ⟨h_mem, l, coming, rfl, h⟩
    obtain ⟨cut_text, position, operator⟩ := cut
    obtain ⟨h_exposed, h_meets, rfl, rfl⟩ := h
    cases coming with
    | nil => exact absurd h_exposed Bool.false_ne_true
    | cons c r =>
      -- the cuts in the rest come first, and then those at its first character
      rw [cutsWithin_append, Nat.zero_add, Option.or_none]
      refine List.mem_append_left _ (List.mem_append_right _ ?_)
      rw [List.append_nil, cutsHere, if_pos h_exposed]
      exact List.mem_map.mpr ⟨operator, List.mem_filter.mpr ⟨h_mem, h_meets⟩, rfl⟩

/-- Parts of a text that start it and are of one size are the same. -/
theorem eq_of_byteSize_eq {l' r' : List Char} (h : l ++ r = l' ++ r')
    (h_size : Text.byteSize l = Text.byteSize l') : l = l' := by
  induction l generalizing l' with
  | nil =>
    cases l' with
    | nil => rfl
    | cons c l' =>
      rw [Text.byteSize_nil, Text.byteSize_cons] at h_size
      -- every character takes up at least one byte, so a text without bytes is empty
      have := c.utf8Size_pos
      omega
  | cons c l ih =>
    cases l' with
    | nil =>
      rw [Text.byteSize_nil, Text.byteSize_cons] at h_size
      have := c.utf8Size_pos
      omega
    | cons d l' =>
      rw [List.cons_append, List.cons_append, List.cons.injEq] at h
      rw [Text.byteSize_cons, Text.byteSize_cons, h.1] at h_size
      rw [h.1, ih h.2 (by omega)]

/-! ### From right to left -/

/-- No cut in a part stands before the part. -/
theorem position_le_of_mem_cutsWithin {n : Nesting} {position : Nat} {previous : Option Char}
    {part coming : List Char}
    (h : cut ∈ cutsWithin operators text n position previous part coming) :
    position ≤ cut.position := by
  obtain ⟨l, c, r, -, h_here⟩ := exists_of_mem_cutsWithin h
  rw [(of_mem_cutsHere h_here).2.2.2.2]
  exact Nat.le_add_right _ _

/-- **Cuts are listed from right to left.** -/
theorem pairwise_cutsWithin (n : Nesting) (position : Nat) (previous : Option Char)
    (part coming : List Char) :
    (cutsWithin operators text n position previous part coming).Pairwise
      fun a b => b.position ≤ a.position := by
  induction part generalizing n position previous with
  | nil => exact .nil
  | cons c part ih =>
    have h_here : ∀ a ∈ cutsHere operators text n position previous (c :: (part ++ coming)),
        a.position = position := fun a ha => (of_mem_cutsHere ha).2.2.2.2
    -- the cuts further on are listed first, and those at this character stand at one position
    refine List.pairwise_append.mpr ⟨ih _ _ _, ?_, ?_⟩
    · refine List.pairwise_of_forall_mem_list fun a ha b hb => ?_
      exact Nat.le_of_eq ((h_here b hb).trans (h_here a ha).symm)
    · intro a ha b hb
      have h_later := position_le_of_mem_cutsWithin ha
      rw [h_here b hb]
      omega

/-- The same of a whole text. -/
theorem pairwise_cuts (operators : List (List Char)) (s : List Char) :
    (cuts operators s).Pairwise fun a b => b.position ≤ a.position := by
  rw [cuts_eq_cutsWithin]
  exact pairwise_cutsWithin {} 0 none s []

section Rightmost

variable {α : Type} {f : Cut → Option α} {cs : List Cut} {found : α}
  (h_order : cs.Pairwise fun a b => b.position ≤ a.position)

include h_order

/-- No cut that passes stands to the right of the first one that does. -/
theorem exists_rightmost_of_findSome? (h : cs.findSome? f = some found) :
    ∃ cut ∈ cs, f cut = some found ∧
      ∀ other ∈ cs, (f other).isSome → other.position ≤ cut.position := by
  obtain ⟨before, cut, after, rfl, h_cut, h_before⟩ := List.findSome?_eq_some_iff.mp h
  obtain ⟨-, h_after, -⟩ := List.pairwise_append.mp h_order
  refine ⟨cut, List.mem_append_right _ List.mem_cons_self, h_cut, fun other h_other h_some => ?_⟩
  -- a cut listed before the found one does not pass, and one listed after it stands further left
  rcases List.mem_append.mp h_other with h_mem | h_mem
  · rw [h_before other h_mem] at h_some
    exact absurd h_some Bool.false_ne_true
  · rcases List.mem_cons.mp h_mem with rfl | h_mem
    · exact Nat.le_refl _
    · exact (List.pairwise_cons.mp h_after).1 other h_mem

/-- **The first cut that passes is the rightmost one that does**, if no two cuts stand at one
position. -/
theorem findSome?_eq_some_iff_rightmost
    (h_unique : ∀ a ∈ cs, ∀ b ∈ cs, a.position = b.position → a = b) :
    cs.findSome? f = some found ↔
      ∃ cut ∈ cs, f cut = some found ∧
        ∀ other ∈ cs, (f other).isSome → other.position ≤ cut.position := by
  refine ⟨exists_rightmost_of_findSome? h_order, ?_⟩
  rintro ⟨cut, h_mem, h_cut, h_last⟩
  -- something is found, and it is found at a cut with the same position
  have h_some : (cs.findSome? f).isSome :=
    List.findSome?_isSome_iff.mpr ⟨cut, h_mem, by rw [h_cut]; rfl⟩
  obtain ⟨found', h_found⟩ := Option.isSome_iff_exists.mp h_some
  obtain ⟨cut', h_mem', h_cut', h_last'⟩ := exists_rightmost_of_findSome? h_order h_found
  have h_le : cut.position ≤ cut'.position := h_last' cut h_mem (by rw [h_cut]; rfl)
  have h_ge : cut'.position ≤ cut.position := h_last cut' h_mem' (by rw [h_cut']; rfl)
  have h_position : cut.position = cut'.position := Nat.le_antisymm h_le h_ge
  rw [h_found, ← h_cut, h_unique cut h_mem cut' h_mem' h_position, h_cut']

end Rightmost

end LineScript.Scan
