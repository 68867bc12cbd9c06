import LineScript.Proofs.Scan.Cuts
import LineScript.Scan.Group

/-!
# Sealed texts

A text is *sealed* if it opens nothing that it does not close and closes nothing that it did not
open. A sealed text can be passed over as a whole: what is open after it is what was open before,
and a parenthesis around it is not closed inside it. Literals, names and groups are sealed, and so
is everything that is put together from sealed texts.

Inside a group and inside quotes nothing is exposed (`not_exposes_of_group?`,
`not_exposes_of_quoted`), so no cut ever starts there.
-/

namespace LineScript.Scan

/-- Outside of quotes, the text can be passed over as a whole. -/
structure Sealed (s : List Char) : Prop where
  /-- What is open does not change. -/
  after_eq (depth : Nat) : Nesting.after ⟨false, depth⟩ s = ⟨false, depth⟩
  /-- A parenthesis that is open is not closed. -/
  closesAtEnd_append (depth : Nat) (rest : List Char) :
    closesAtEnd ⟨false, depth + 1⟩ (s ++ rest) = closesAtEnd ⟨false, depth + 1⟩ rest

namespace Sealed

theorem nil : Sealed [] where
  after_eq _ := rfl
  closesAtEnd_append _ _ := rfl

/-- Two sealed texts can be passed over one after the other. -/
theorem append {s t : List Char} (hs : Sealed s) (ht : Sealed t) : Sealed (s ++ t) where
  after_eq depth := by rw [Nesting.after_append, hs.after_eq, ht.after_eq]
  closesAtEnd_append depth rest := by
    rw [List.append_assoc, hs.closesAtEnd_append, ht.closesAtEnd_append]

/-- Characters that are neither quotes nor parentheses open and close nothing. -/
theorem of_forall {s : List Char} (h : ∀ c ∈ s, c ≠ '"' ∧ c ≠ '(' ∧ c ≠ ')') : Sealed s := by
  induction s with
  | nil => exact nil
  | cons c s ih =>
    obtain ⟨h_quote, h_open, h_close⟩ := h c List.mem_cons_self
    have h_next : ∀ depth, Nesting.next ⟨false, depth⟩ c = ⟨false, depth⟩ := by
      intro depth
      simp [Nesting.next, h_quote, h_open, h_close]
    -- each character leaves a walk as it was, at any depth
    have h_rest := ih fun d hd => h d (List.mem_cons_of_mem c hd)
    constructor
    · intro depth
      rw [Nesting.after_cons, h_next, h_rest.after_eq]
    · intro depth rest
      rw [List.cons_append, closesAtEnd, if_neg (by simp [h_close]), h_next,
        h_rest.closesAtEnd_append]

end Sealed

/-! ### Quotes -/

/-- Only a quote opens or closes quotes. -/
theorem quoted_next_of_ne (n : Nesting) {c : Char} (hc : c ≠ '"') :
    (n.next c).quoted = n.quoted := by
  unfold Nesting.next
  rw [if_neg hc]
  split
  · rfl
  · split
    · rfl
    · split <;> rfl

/-- In quotes nothing but a quote counts. -/
theorem next_of_quoted {c : Char} (hc : c ≠ '"') (depth : Nat) :
    Nesting.next ⟨true, depth⟩ c = ⟨true, depth⟩ := by
  simp [Nesting.next, hc]

/-- So the inside of a quoted text leaves everything as it is. -/
theorem after_quoted {s : List Char} (h : '"' ∉ s) (depth : Nat) :
    Nesting.after ⟨true, depth⟩ s = ⟨true, depth⟩ := by
  induction s with
  | nil => rfl
  | cons c s ih =>
    rw [List.mem_cons, not_or] at h
    rw [Nesting.after_cons, next_of_quoted (Ne.symm h.1), ih h.2]

/-- Nor does any parenthesis in it close another. -/
theorem closesAtEnd_quoted {s : List Char} (h : '"' ∉ s) (depth : Nat) (rest : List Char) :
    closesAtEnd ⟨true, depth⟩ (s ++ rest) = closesAtEnd ⟨true, depth⟩ rest := by
  induction s with
  | nil => rfl
  | cons c s ih =>
    rw [List.mem_cons, not_or] at h
    rw [List.cons_append, closesAtEnd, if_neg (by simp), next_of_quoted (Ne.symm h.1), ih h.2]

/-- A text in quotes is sealed, whatever stands in it. -/
theorem Sealed.quoted {s : List Char} (h : '"' ∉ s) : Sealed ('"' :: (s ++ ['"'])) where
  after_eq depth := by
    rw [Nesting.after_cons, Nesting.after_append]
    have h_open : Nesting.next ⟨false, depth⟩ '"' = ⟨true, depth⟩ := rfl
    rw [h_open, after_quoted h]
    rfl
  closesAtEnd_append depth rest := by
    have h_open : Nesting.next ⟨false, depth + 1⟩ '"' = ⟨true, depth + 1⟩ := rfl
    -- the first quote opens and the last one closes; the inside is passed between them
    have h_close : Nesting.next ⟨true, depth + 1⟩ '"' = ⟨false, depth + 1⟩ := rfl
    rw [List.cons_append, List.append_assoc, closesAtEnd, if_neg (by simp), h_open,
      closesAtEnd_quoted h, List.singleton_append, closesAtEnd, if_neg (by simp), h_close]

/-- Nothing is exposed in a text in quotes. -/
theorem not_exposes_of_quoted {s l r : List Char} {c : Char} (h : '"' ∉ s)
    (h_eq : '"' :: (s ++ ['"']) = l ++ c :: r) : (Nesting.after {} l).exposes c = false := by
  cases l with
  | nil =>
    rw [List.nil_append, List.cons.injEq] at h_eq
    rw [← h_eq.1]
    rfl
  | cons d l =>
    rw [List.cons_append, List.cons.injEq] at h_eq
    obtain ⟨rfl, h_eq⟩ := h_eq
    -- what was passed after the quote is a part of the inside, so the quote is still open
    have h_inside : '"' ∉ l := by
      rcases append_eq_append_cons h_eq with ⟨r', rfl⟩ | ⟨l', rfl, h_last⟩
      · exact fun h_mem => h (List.mem_append_left _ h_mem)
      · cases l' with
        | nil => rwa [List.append_nil]
        | cons e l' => exact absurd h_last (by simp)
    have h_open : Nesting.next {} '"' = ⟨true, 0⟩ := rfl
    rw [Nesting.after_cons, h_open, after_quoted h_inside]
    rfl

/-! ### Groups -/

/-- A sealed text in parentheses is a group. -/
theorem group?_of_sealed {s : List Char} (h : Sealed s) :
    group? ('(' :: (s ++ [')'])) = some s := by
  have h_close : closesAtEnd ⟨false, 0 + 1⟩ (s ++ [')']) = true := by
    rw [h.closesAtEnd_append]
    rfl
  rw [group?, if_pos h_close, List.dropLast_concat]

/-- A sealed text in parentheses is sealed: its first parenthesis is closed by its last. -/
theorem Sealed.group {s : List Char} (h : Sealed s) : Sealed ('(' :: (s ++ [')'])) where
  after_eq depth := by
    have h_open : Nesting.next ⟨false, depth⟩ '(' = ⟨false, depth + 1⟩ := rfl
    rw [Nesting.after_cons, Nesting.after_append, h_open, h.after_eq]
    rfl
  closesAtEnd_append depth rest := by
    have h_open : Nesting.next ⟨false, depth + 1⟩ '(' = ⟨false, depth + 1 + 1⟩ := rfl
    have h_close : Nesting.next ⟨false, depth + 1 + 1⟩ ')' = ⟨false, depth + 1⟩ := rfl
    rw [List.cons_append, List.append_assoc, closesAtEnd, if_neg (by simp), h_open,
      h.closesAtEnd_append, List.singleton_append, closesAtEnd, if_neg (by simp [h_close]), h_close]

/-- Up to the parenthesis that closes a text at its end, something is open. -/
theorem depth_pos_of_closesAtEnd {n : Nesting} {l r : List Char} {c : Char} (h_depth : 0 < n.depth)
    (h : closesAtEnd n (l ++ c :: r)) : 0 < (n.after l).depth := by
  -- the parenthesis that closes at the end stays open up to there
  induction l generalizing n with
  | nil => exact h_depth
  | cons d l ih =>
    rw [List.cons_append, closesAtEnd] at h
    split at h
    · -- it would close here, and more characters follow
      exact absurd (List.isEmpty_iff.mp h) (by simp)
    · next h_open =>
      rw [Nesting.after_cons]
      refine ih ?_ h
      unfold Nesting.next at h_open ⊢
      by_cases h_quote : d = '"'
      · rwa [if_pos h_quote]
      rw [if_neg h_quote] at h_open ⊢
      cases h_quoted : n.quoted with
      | true => simpa using h_depth
      | false =>
        simp only [h_quoted, Bool.false_eq_true, if_false] at h_open ⊢
        split
        · exact Nat.succ_pos _
        · split
          · -- a parenthesis inside is closed, so it was not the last one
            next h_close =>
            simp [h_close] at h_open
            dsimp only
            omega
          · exact h_depth

/-- Nothing is exposed in a group. -/
theorem not_exposes_of_group? {s inside l r : List Char} {c : Char} (h : group? s = some inside)
    (h_eq : s = l ++ c :: r) : (Nesting.after {} l).exposes c = false := by
  unfold group? at h
  split at h
  · next rest =>
    split at h
    · next h_close =>
      cases l with
      | nil =>
        rw [List.nil_append, List.cons.injEq] at h_eq
        rw [← h_eq.1]
        rfl
      | cons d l =>
        rw [List.cons_append, List.cons.injEq] at h_eq
        obtain ⟨rfl, rfl⟩ := h_eq
        have h_open : Nesting.next {} '(' = ⟨false, 1⟩ := rfl
        -- after the first parenthesis the walk is inside the group for as long as characters follow
        have h_pos := depth_pos_of_closesAtEnd Nat.one_pos h_close
        rw [Nesting.after_cons, h_open, Nesting.exposes, Nesting.isClosed]
        simp only [Bool.and_eq_false_iff, beq_eq_false_iff_ne]
        exact .inl (.inl (.inl (.inr (by omega))))
    · exact absurd h (by simp)
  · exact absurd h (by simp)

end LineScript.Scan
