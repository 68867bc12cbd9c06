import LineScript.Proofs.Text.Splitting
import LineScript.Script.Line

/-!
# Lines that are put together

A source is written line by line, with one of three endings between the lines. `Script.lines` takes
it apart again: pairs of a carriage return and a line feed are written as one line feed first, and
then the source is split at either character. This module says that nothing is lost on the way, as
long as the lines themselves hold no ending.

* `LineEnding`: the three ways of ending a line. The first step leaves one character of each
  (`LineEnding.mark`). A carriage return is left alone because no line starts with a line feed;
* `lines_intercalate`: **rows joined by an ending are read as these rows**, numbered from one,
  whichever ending it is.
-/

namespace LineScript.Script

/-- The ways of ending a line. -/
inductive LineEnding where
  | lineFeed
  | pair
  | carriageReturn
deriving Repr, DecidableEq

namespace LineEnding

/-- The characters of the ending. -/
def chars : LineEnding → List Char
  | lineFeed => ['\n']
  | pair => ['\r', '\n']
  | carriageReturn => ['\r']

/-- What is left of the ending once pairs are written as one character. -/
def mark : LineEnding → Char
  | lineFeed => '\n'
  | pair => '\n'
  | carriageReturn => '\r'

/-- A mark ends a line, as the ending itself does. -/
theorem isLineEnd_mark (e : LineEnding) : isLineEnd e.mark := by
  cases e <;> rfl

end LineEnding

/-- Only a carriage return can be the start of a pair. -/
theorem unifyEndings_cons {c : Char} (hc : c ≠ '\r') (t : List Char) :
    unifyEndings (c :: t) = c :: unifyEndings t := by
  rw [unifyEndings]
  intro rest h_c _
  exact hc h_c

/-- A row without endings stays as it is. -/
theorem unifyEndings_append {s : List Char} (h : ∀ c ∈ s, ¬ isLineEnd c) (t : List Char) :
    unifyEndings (s ++ t) = s ++ unifyEndings t := by
  induction s with
  | nil => rfl
  | cons c s ih =>
    have h_c : c ≠ '\r' := by
      rintro rfl
      exact h _ List.mem_cons_self rfl
    rw [List.cons_append, unifyEndings_cons h_c, ih fun d hd => h d (List.mem_cons_of_mem c hd)]
    rfl

/-- An ending becomes its mark. For a lone carriage return, this takes that no line feed follows. -/
theorem LineEnding.unifyEndings_chars_append (e : LineEnding) {t : List Char}
    (h : e = carriageReturn → t.head? ≠ some '\n') :
    unifyEndings (e.chars ++ t) = e.mark :: unifyEndings t := by
  cases e with
  | lineFeed => exact unifyEndings_cons (by decide) t
  | pair => exact unifyEndings.eq_1 t
  | carriageReturn =>
    cases t with
    | nil => rfl
    | cons c t =>
      -- the pair is the one thing that would be written otherwise, and it is ruled out
      change unifyEndings ('\r' :: c :: t) = '\r' :: unifyEndings (c :: t)
      rw [unifyEndings.eq_2]
      rintro rest - h_rest
      exact h rfl (by rw [h_rest]; rfl)

/-- Rows that are joined by carriage returns hold no line feed. -/
theorem not_mem_intercalate {rows : List (List Char)} (h : ∀ row ∈ rows, ∀ c ∈ row, ¬ isLineEnd c) :
    '\n' ∉ ['\r'].intercalate rows := by
  induction rows with
  | nil => exact List.not_mem_nil
  | cons row rows ih =>
    have h_row : '\n' ∉ row := fun h_mem => h row List.mem_cons_self '\n' h_mem rfl
    have h_rows := ih fun r hr => h r (List.mem_cons_of_mem row hr)
    cases rows with
    | nil => simpa using h_row
    | cons next rows =>
      rw [List.intercalate_cons_cons, List.mem_append, List.mem_append]
      -- it would stand in the first row, be the carriage return, or stand in a later row
      rintro ((h_mem | h_mem) | h_mem)
      · exact h_row h_mem
      · exact absurd h_mem (by decide)
      · exact h_rows h_mem

/-- Every ending between two rows becomes its mark. -/
theorem unifyEndings_intercalate (e : LineEnding) {rows : List (List Char)}
    (h : ∀ row ∈ rows, ∀ c ∈ row, ¬ isLineEnd c) :
    unifyEndings (e.chars.intercalate rows) = [e.mark].intercalate rows := by
  induction rows with
  | nil => rfl
  | cons row rows ih =>
    have h_row : ∀ c ∈ row, ¬ isLineEnd c := h row List.mem_cons_self
    have h_rows : ∀ r ∈ rows, ∀ c ∈ r, ¬ isLineEnd c :=
      fun r hr => h r (List.mem_cons_of_mem row hr)
    cases rows with
    | nil =>
      -- nothing ends the last row
      have h_last := unifyEndings_append h_row []
      rw [List.append_nil, unifyEndings, List.append_nil] at h_last
      rw [List.intercalate_singleton, List.intercalate_singleton, h_last]
    | cons next rows =>
      -- a row may be empty, so it is the rest as a whole that has to be looked at
      have h_head : e = .carriageReturn →
          (e.chars.intercalate (next :: rows)).head? ≠ some '\n' := by
        rintro rfl h_feed
        exact not_mem_intercalate h_rows (List.mem_of_head? h_feed)
      rw [List.intercalate_cons_cons, List.append_assoc, unifyEndings_append h_row,
        e.unifyEndings_chars_append h_head, ih h_rows, List.intercalate_cons_cons,
        List.append_assoc, List.singleton_append]

/-- **Rows joined by an ending are read as these rows.** Without any row there is one empty line,
and that says nothing. -/
theorem lines_intercalate (e : LineEnding) {rows : List (List Char)}
    (h : ∀ row ∈ rows, ∀ c ∈ row, ¬ isLineEnd c) :
    lines (e.chars.intercalate rows) = number 1 rows := by
  cases rows with
  | nil => rfl
  | cons row rows =>
    rw [lines, unifyEndings_intercalate e h,
      Text.splitWhere_intercalate e.isLineEnd_mark (List.cons_ne_nil row rows) h]

/-! ### Numbering -/

/-- The first row is kept if it holds a statement, and counted in any case. -/
theorem number_cons (first : Nat) (row : List Char) (rows : List (List Char)) :
    number first (row :: rows) =
      if Line.isStatement ⟨first, Text.trim row⟩ then
        ⟨first, Text.trim row⟩ :: number (first + 1) rows
      else number (first + 1) rows := by
  rw [number, List.zipIdx_cons, List.map_cons, List.filter_cons]
  rfl

/-- Rows further down are numbered on from those before them. -/
theorem number_append (first : Nat) (rows more : List (List Char)) :
    number first (rows ++ more) = number first rows ++ number (first + rows.length) more := by
  rw [number, List.zipIdx_append, List.map_append, List.filter_append]
  rfl

end LineScript.Script
