import LineScript.Proofs.Scan.Pieces
import LineScript.Proofs.Scan.Positions

/-!
# Pieces that are joined again

What is exposed in a text depends on everything before it, so it is not clear from the start that a
piece means the same alone as it did in the whole text. It does, because a text is only cut where
nothing is open: the walk through the next piece starts as the walk through the whole text did.

* `intercalate_pieces`: joined by the separator, the pieces of a text are the text. This takes no
  argument about what is open, and holds of a walk that starts anywhere;
* `Divisible`: what the pieces of a text are like. The separator is exposed in none of them, and
  nothing is open after any but the last;
* `divisible_pieces`: the pieces of a text are like that, also where quotes and parentheses of the
  text do not match. A parenthesis or quote that is never closed keeps the rest of the text
  together, so it can only stand in the last piece;
* `Divisible.pieces_intercalate`: **parts like that are found again** once they are joined.
-/

namespace LineScript.Scan

variable {separator : Char} {n : Nesting} {s : List Char}

/-- There is only one state in which nothing is open, and every text starts in it. -/
theorem Nesting.eq_of_isClosed (h : n.isClosed) : n = {} := by
  obtain ⟨quoted, depth⟩ := n
  simp only [isClosed, Bool.and_eq_true, Bool.not_eq_true', beq_iff_eq] at h
  rw [h.1, h.2]

/-- Texts that a separator divides: it is exposed in none of them, and nothing is open where it is
to stand, which is after each of them but the last. -/
structure Divisible (separator : Char) (parts : List (List Char)) : Prop where
  ne_nil : parts ≠ []
  hides : ∀ part ∈ parts, Hides {} separator part
  isClosed : ∀ part ∈ parts.dropLast, (Nesting.after {} part).isClosed

/-! ### What the pieces are like -/

/-- A list is divisible if its first text fits and the others, if there are any, are divisible. -/
theorem Divisible.of_first {more : List (List Char)} (h : Hides {} separator s)
    (h_more : more = [] ∨ (Nesting.after {} s).isClosed ∧ Divisible separator more) :
    Divisible separator (s :: more) := by
  rcases h_more with rfl | ⟨h_closed, h_more⟩
  · exact ⟨List.cons_ne_nil s [], List.forall_mem_singleton.mpr h, List.forall_mem_nil _⟩
  · refine ⟨List.cons_ne_nil s more, List.forall_mem_cons.mpr ⟨h, h_more.hides⟩, ?_⟩
    rw [List.dropLast_cons_of_ne_nil h_more.ne_nil]
    exact List.forall_mem_cons.mpr ⟨h_closed, h_more.isClosed⟩

theorem Hides.nil (n : Nesting) (separator : Char) : Hides n separator [] := by
  intro l r h_eq
  exact absurd h_eq.symm (List.append_ne_nil_of_right_ne_nil l (List.cons_ne_nil _ r))

/-- A character that does not cut the text may be put in front of what hides the separator. -/
theorem Hides.cons {c : Char} (h : Hides (n.next c) separator s)
    (h_c : ¬ (c == separator && n.exposes c)) : Hides n separator (c :: s) := by
  intro l r h_eq
  -- the exposed separator would be the first character, or stand in the rest
  cases l with
  | nil =>
    obtain ⟨rfl, -⟩ := List.cons.inj h_eq
    simpa using h_c
  | cons d l =>
    obtain ⟨rfl, h_tail⟩ := List.cons.inj h_eq
    exact h l r h_tail

/-- The pieces of a text that starts anywhere. Only the first one depends on what is open at the
start: it hides the separator as seen from there, and if others follow, nothing is open after it. -/
theorem piecesFrom_cases (separator : Char) (n : Nesting) (s : List Char) :
    ∃ piece more, piecesFrom separator n s = piece :: more ∧ Hides n separator piece ∧
      (more = [] ∨ (n.after piece).isClosed ∧ Divisible separator more) := by
  induction s generalizing n with
  | nil => exact ⟨[], [], rfl, .nil n separator, .inl rfl⟩
  | cons c rest ih =>
    obtain ⟨piece, more, h_rest, h_hides, h_more⟩ := ih (n.next c)
    rw [piecesFrom]
    split
    · next h_cut =>
      -- the separator is exposed here, so the rest is walked through from a fresh start
      obtain ⟨-, h_exposed⟩ := Bool.and_eq_true_iff.mp h_cut
      have h_closed : n.isClosed := (Nesting.exposes_iff.mp h_exposed).1
      obtain rfl := Nesting.eq_of_isClosed h_closed
      rw [Nesting.next_of_exposes h_exposed] at h_rest h_hides h_more ⊢
      refine ⟨[], _, rfl, .nil {} separator, .inr ⟨h_closed, ?_⟩⟩
      rw [h_rest]
      exact .of_first h_hides h_more
    · next h_c =>
      rw [h_rest]
      -- no cut: the first piece of the rest grows by one character
      exact ⟨c :: piece, more, rfl, h_hides.cons h_c, h_more⟩

/-- **The pieces of a text are divisible**, whether or not its quotes and parentheses match. -/
theorem divisible_pieces (separator : Char) (s : List Char) :
    Divisible separator (pieces separator s) := by
  obtain ⟨piece, more, h_pieces, h_hides, h_more⟩ := piecesFrom_cases separator {} s
  rw [pieces, h_pieces]
  exact .of_first h_hides h_more

/-! ### Joining -/

/-- What is put in front of the first piece comes first in the joined text. -/
theorem intercalate_cons_append (between front piece : List Char) (more : List (List Char)) :
    between.intercalate ((front ++ piece) :: more) =
      front ++ between.intercalate (piece :: more) := by
  cases more with
  | nil => rw [List.intercalate_singleton, List.intercalate_singleton]
  | cons next more =>
    rw [List.intercalate_cons_cons, List.intercalate_cons_cons, List.append_assoc,
      List.append_assoc, List.append_assoc]

/-- The walk drops nothing but the separators it cuts at, and joining puts those back. -/
theorem intercalate_piecesFrom (separator : Char) (n : Nesting) (s : List Char) :
    [separator].intercalate (piecesFrom separator n s) = s := by
  induction s generalizing n with
  | nil => rfl
  | cons c rest ih =>
    -- the rest has at least one piece, which the character is put in front of or stands apart from
    obtain ⟨piece, more, h_rest, -⟩ := piecesFrom_cases separator (n.next c) rest
    have h_joined := ih (n.next c)
    rw [h_rest] at h_joined
    rw [piecesFrom, h_rest]
    split
    · next h_cut =>
      obtain rfl := eq_of_beq (Bool.and_eq_true_iff.mp h_cut).1
      rw [List.intercalate_cons_cons, h_joined]
      rfl
    · exact (intercalate_cons_append [separator] [c] piece more).trans
        (congrArg (c :: ·) h_joined)

/-- **Joining the pieces of a text gives the text back.** -/
theorem intercalate_pieces (separator : Char) (s : List Char) :
    [separator].intercalate (pieces separator s) = s :=
  intercalate_piecesFrom separator {} s

/-! ### Splitting what was joined -/

/-- **Divisible parts are found again** once they are joined, one after the other. -/
theorem Divisible.pieces_intercalate {parts : List (List Char)}
    (h_separator : Nesting.exposes {} separator) (h : Divisible separator parts) :
    pieces separator ([separator].intercalate parts) = parts := by
  obtain ⟨h_ne, h_hides, h_closed⟩ := h
  -- each part ends in the state that the next one starts in, so they are found one by one
  induction parts with
  | nil => exact absurd rfl h_ne
  | cons part more ih =>
    have h_part : Hides {} separator part := h_hides part List.mem_cons_self
    -- only parts that others follow have to be closed
    cases more with
    | nil => rw [List.intercalate_singleton, pieces_of_hides h_part]
    | cons next more =>
      have h_after : Nesting.after {} part = {} :=
        Nesting.eq_of_isClosed (h_closed part List.mem_cons_self)
      have h_more : pieces separator ([separator].intercalate (next :: more)) = next :: more :=
        ih (List.cons_ne_nil next more) (fun p hp => h_hides p (List.mem_cons_of_mem part hp))
          fun p hp => h_closed p (List.mem_cons_of_mem part hp)
      rw [List.intercalate_cons_cons, List.append_assoc, List.singleton_append,
        pieces_append_cons h_separator h_part h_after, h_more]

/-- **Splitting at exposed separators and joining undo each other.** The pieces of a text, joined,
are the text, and none of them is split any further. A list of texts, joined, is split into the same
texts again if and only if they are divisible, unless the separator is one of the characters that
open and close, which are never exposed. -/
theorem pieces_invert_joining (separator : Char) :
    (∀ s, [separator].intercalate (pieces separator s) = s ∧
      ∀ piece ∈ pieces separator s, pieces separator piece = [piece]) ∧
    (separator ≠ '"' → separator ≠ '(' → separator ≠ ')' → ∀ parts : List (List Char),
      pieces separator ([separator].intercalate parts) = parts ↔ Divisible separator parts) := by
  refine ⟨?_, ?_⟩
  · intro s
    refine ⟨intercalate_pieces separator s, ?_⟩
    intro piece h_piece
    -- a piece is not split again because it hides the separator as seen from a fresh start
    exact pieces_of_hides ((divisible_pieces separator s).hides piece h_piece)
  · intro h_quote h_open h_close parts
    have h_separator : Nesting.exposes {} separator :=
      Nesting.exposes_iff.mpr ⟨rfl, h_quote, h_open, h_close⟩
    constructor
    · intro h_parts
      -- what comes out of `pieces` is divisible, so parts that come out again are
      have h_divisible := divisible_pieces separator ([separator].intercalate parts)
      rwa [h_parts] at h_divisible
    · exact Divisible.pieces_intercalate h_separator

/-- A separator of three bytes. The parenthesis of the last part is never closed, and the one of the
part before it was never opened. -/
theorem pieces_invert_joining_arrow :
    '→' ≠ '"' ∧ '→' ≠ '(' ∧ '→' ≠ ')' ∧
      pieces '→' "f(a→b)→\"c→\"→)→(d→e".toList =
        ["f(a→b)".toList, "\"c→\"".toList, ")".toList, "(d→e".toList] ∧
      Divisible '→' ["f(a→b)".toList, "\"c→\"".toList, ")".toList, "(d→e".toList] ∧
      ['→'].intercalate (pieces '→' "f(a→b)→\"c→\"→)→(d→e".toList) =
        "f(a→b)→\"c→\"→)→(d→e".toList := by
  obtain ⟨h_joined, h_split⟩ := pieces_invert_joining '→'
  have h_pieces : pieces '→' "f(a→b)→\"c→\"→)→(d→e".toList =
      ["f(a→b)".toList, "\"c→\"".toList, ")".toList, "(d→e".toList] := by decide
  have h_divisible := (h_split (by decide) (by decide) (by decide)
    ["f(a→b)".toList, "\"c→\"".toList, ")".toList, "(d→e".toList]).mp (by decide)
  exact ⟨by decide, by decide, by decide, h_pieces, h_divisible, (h_joined _).1⟩

end LineScript.Scan
