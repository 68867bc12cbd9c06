import LineScript.Text.Split

/-!
# Splitting undoes joining

Pieces that are put together with a character between them come apart again, provided that none of
them holds the character (`splitWhere_intercalate`). The pieces that splitting itself returns never
hold it (`not_of_mem_splitWhere`), so they may always be put together again.
-/

namespace LineScript.Text

variable {p : Char → Bool} {s : List Char}

/-- A text without the character is its only piece. -/
theorem splitWhere_of_forall (h : ∀ d ∈ s, ¬ p d) : splitWhere p s = [s] := by
  induction s with
  | nil => rfl
  | cons d s ih =>
    rw [splitWhere_cons, if_neg (h d List.mem_cons_self),
      ih fun c hc => h c (List.mem_cons_of_mem d hc)]
    rfl

/-- The first piece ends where the character first stands. -/
theorem splitWhere_append_cons (h : ∀ d ∈ s, ¬ p d) {c : Char} (hc : p c) (t : List Char) :
    splitWhere p (s ++ c :: t) = s :: splitWhere p t := by
  induction s with
  | nil => rw [List.nil_append, splitWhere_cons, if_pos hc]
  | cons d s ih =>
    rw [List.cons_append, splitWhere_cons, if_neg (h d List.mem_cons_self),
      ih fun c hc => h c (List.mem_cons_of_mem d hc)]
    rfl

/-- Pieces without the character between them are found again. -/
theorem splitWhere_intercalate {c : Char} (hc : p c) {pieces : List (List Char)}
    (h_ne : pieces ≠ []) (h : ∀ piece ∈ pieces, ∀ d ∈ piece, ¬ p d) :
    splitWhere p ([c].intercalate pieces) = pieces := by
  induction pieces with
  | nil => exact absurd rfl h_ne
  | cons piece pieces ih =>
    have h_piece := h piece List.mem_cons_self
    cases pieces with
    | nil => rw [List.intercalate_singleton, splitWhere_of_forall h_piece]
    | cons next pieces =>
      rw [List.intercalate_cons_cons, List.append_assoc, List.singleton_append,
        splitWhere_append_cons h_piece hc,
        ih (List.cons_ne_nil next pieces) fun q hq => h q (List.mem_cons_of_mem piece hq)]

/-- No piece holds a character at which the text was cut. -/
theorem not_of_mem_splitWhere {piece : List Char} (h : piece ∈ splitWhere p s) :
    ∀ d ∈ piece, ¬ p d := by
  induction s generalizing piece with
  | nil =>
    rw [splitWhere_nil, List.mem_singleton] at h
    rw [h]
    exact List.forall_mem_nil _
  | cons c s ih =>
    rw [splitWhere_cons] at h
    split at h
    · -- the text is cut here, so the first piece is empty
      rcases List.mem_cons.mp h with rfl | h
      · exact List.forall_mem_nil _
      · exact ih h
    · next hc =>
      -- the character goes to the first of the pieces of the rest
      cases h_rest : splitWhere p s with
      | nil =>
        rw [h_rest, consFirst, List.mem_singleton] at h
        rw [h]
        exact List.forall_mem_singleton.mpr hc
      | cons first rest =>
        rw [h_rest, consFirst] at h
        rcases List.mem_cons.mp h with rfl | h
        · exact List.forall_mem_cons.mpr ⟨hc, ih (h_rest ▸ List.mem_cons_self)⟩
        · exact ih (h_rest ▸ List.mem_cons_of_mem first h)

end LineScript.Text
