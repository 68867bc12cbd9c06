import LineScript.Proofs.Scan.Delimiters
import LineScript.Proofs.Scan.Sealed

/-!
# Pieces of a text

`pieces` divides a text at a separator wherever that is exposed, and what is exposed is decided by a
walk from the very start of the text. A piece is therefore found as a whole if the separator is
exposed nowhere in it, and the walk is back at its start once it has passed the piece.

* `Hides`: the character is exposed nowhere in a text;
* `piecesFrom_append`: a part that hides the separator is a part of the first piece;
* `pieces_append_cons`: **a text that hides the separator and leaves nothing open is the first
  piece**, and the pieces of what follows the separator are the others;
* `WellDelimited.hides_comma`: a comma that stands in quotes, if at all, is hidden.
-/

namespace LineScript.Scan

variable {separator : Char} {n : Nesting} {s : List Char}

/-- The character is exposed nowhere in the text, which starts with the given nesting. -/
def Hides (n : Nesting) (c : Char) (s : List Char) : Prop :=
  ∀ l r, s = l ++ c :: r → (n.after l).exposes c = false

/-- What a text hides, the rest of it hides from where its first character leaves off. -/
theorem Hides.tail {c : Char} (h : Hides n separator (c :: s)) : Hides (n.next c) separator s := by
  rintro l r rfl
  exact h (c :: l) r rfl

/-- A part that hides the separator belongs to the first piece as a whole. -/
theorem piecesFrom_append (h : Hides n separator s) {t piece : List Char} {more : List (List Char)}
    (h_rest : piecesFrom separator (n.after s) t = piece :: more) :
    piecesFrom separator n (s ++ t) = (s ++ piece) :: more := by
  induction s generalizing n with
  | nil => exact h_rest
  | cons c s ih =>
    -- were the text cut at this character, it would be exposed with nothing before it
    have h_c : ¬ (c == separator && n.exposes c) := by
      intro h_cut
      obtain ⟨h_eq, h_exposed⟩ := Bool.and_eq_true_iff.mp h_cut
      obtain rfl := eq_of_beq h_eq
      exact Bool.false_ne_true ((h [] s rfl).symm.trans h_exposed)
    rw [List.cons_append, piecesFrom, if_neg h_c, ih h.tail h_rest]
    rfl

/-- A text that hides the separator is its only piece. -/
theorem pieces_of_hides (h : Hides {} separator s) : pieces separator s = [s] := by
  have h_append := piecesFrom_append h (t := []) rfl
  rwa [List.append_nil] at h_append

/-- **What hides the separator and leaves nothing open is a piece.** -/
theorem pieces_append_cons (h_separator : Nesting.exposes {} separator)
    (h : Hides {} separator s) (h_closed : Nesting.after {} s = {}) (t : List Char) :
    pieces separator (s ++ separator :: t) = s :: pieces separator t := by
  -- the walk is back at its start, so the separator cuts, and the first piece of the rest is empty
  have h_rest : piecesFrom separator (Nesting.after {} s) (separator :: t) =
      [] :: pieces separator t := by
    rw [h_closed, piecesFrom, Nesting.next_of_exposes h_separator, h_separator, beq_self_eq_true]
    rfl
  have h_append := piecesFrom_append h h_rest
  rwa [List.append_nil] at h_append

/-- A character that is met while no quote is open stands outside of quotes. -/
theorem mem_outside {c : Char} (hc : c ≠ '"') {l r : List Char} (h : (n.after l).quoted = false) :
    c ∈ outside n.quoted (l ++ c :: r) := by
  induction l generalizing n with
  | nil =>
    have h_quoted : n.quoted = false := h
    rw [List.nil_append, outside, if_neg hc, h_quoted]
    exact List.mem_cons_self
  | cons d l ih =>
    have h_later := ih (n := n.next d) h
    rw [List.cons_append, outside]
    -- a quote turns the two readings over together; any other character leaves them as they are
    by_cases hd : d = '"'
    · have h_next : (n.next d).quoted = !n.quoted := by
        rw [Nesting.next, if_pos hd]
      rw [if_pos hd, ← h_next]
      exact h_later
    · rw [quoted_next_of_ne n hd] at h_later
      rw [if_neg hd]
      split
      · exact h_later
      · exact List.mem_cons_of_mem d h_later

/-- No comma of a well delimited text separates anything. -/
theorem WellDelimited.hides_comma (h : WellDelimited s) : Hides {} ',' s := by
  rintro l r rfl
  rw [Bool.eq_false_iff]
  intro h_exposed
  have h_quoted : (Nesting.after {} l).quoted = false := by
    simp only [Nesting.exposes, Nesting.isClosed, Bool.and_eq_true, Bool.not_eq_true'] at h_exposed
    exact h_exposed.1.1.1.1
  exact h.comma (mem_outside (n := {}) (by decide) h_quoted)

end LineScript.Scan
