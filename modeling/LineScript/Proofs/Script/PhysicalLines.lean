import LineScript.Proofs.Script.Lines

/-!
# Lines are counted as they stand in the source

`lines` goes over a source twice: pairs of a carriage return and a line feed are first written as
one character, and what is left is split at every ending. Whether the numbers that come out are
those of the lines in the source is a question about the two steps together, and it is answered by
reading the source once, one character after the other.

* `Reader`: what is known after some characters of a source. A carriage return ends a line at once,
  so all that has to be remembered of it is that a line feed right after it belongs to the same
  ending (`Reader.returned`);
* `Reader.close_foldl`: a reader anywhere in a source goes on to find what `lines` finds in the
  rest. The induction is on the rewriting of pairs, which takes the two characters of a pair in one
  step where the reader takes two;
* `lines_as_they_stand`: **reading a source once gives the lines and numbers of `lines`**, and so it
  is for every mixture of endings.
-/

namespace LineScript.Script

/-- What is known after some characters of a source. -/
structure Reader where
  /-- The number of the line that the reader is in. -/
  number : Nat := 1
  /-- The characters of that line up to here. -/
  text : List Char := []
  /-- The last character was a carriage return. -/
  returned : Bool := false
  /-- The lines before it that hold a statement. -/
  found : List Line := []

namespace Reader

variable {r : Reader} {s : List Char}

/-- The lines that hold a statement if the source ends here. -/
def close (r : Reader) : List Line :=
  let line : Line := ⟨r.number, Text.trim r.text⟩
  if line.isStatement then r.found ++ [line] else r.found

/-- Ends the line that the reader is in. -/
def endLine (r : Reader) (returned : Bool) : Reader where
  number := r.number + 1
  returned := returned
  found := r.close

/-- Reads one character. A line feed after a carriage return ends nothing, because the line has
ended already. -/
def next (r : Reader) (c : Char) : Reader :=
  if c = '\n' then
    if r.returned then { r with returned := false } else r.endLine false
  else if c = '\r' then r.endLine true
  else { r with text := r.text ++ [c], returned := false }

/-! ### One character -/

/-- A line feed ends the line, unless a carriage return has just done so. -/
theorem next_lineFeed (h : r.returned = false) : r.next '\n' = r.endLine false := by
  rw [next, if_pos rfl, h, if_neg Bool.false_ne_true]

/-- A line feed after a carriage return only forgets that the carriage return was there. -/
theorem next_lineFeed_of_returned (r : Reader) :
    (r.endLine true).next '\n' = r.endLine false :=
  rfl

/-- A carriage return ends the line at once, whatever follows. -/
theorem next_carriageReturn (r : Reader) : r.next '\r' = r.endLine true :=
  rfl

/-- Any other character goes on with the line. -/
theorem next_of_not_isLineEnd {c : Char} (h : ¬ isLineEnd c) :
    r.next c = { r with text := r.text ++ [c], returned := false } := by
  simp only [isLineEnd, Bool.or_eq_true, beq_iff_eq, not_or] at h
  rw [next, if_neg h.1, if_neg h.2]

/-- Ending a line is numbering one more row. -/
theorem found_append_number (r : Reader) (rows : List (List Char)) :
    r.found ++ Script.number r.number (r.text :: rows) =
      r.close ++ Script.number (r.number + 1) rows := by
  rw [number_cons, close]
  split
  · -- the row holds a statement; otherwise it only uses up its number
    rw [List.append_assoc, List.singleton_append]
  · rfl

/-- A row that goes on up to an ending is the line that the reader is in. -/
theorem endLine_spec (h_text : ∀ c ∈ r.text, ¬ isLineEnd c) {mark : Char} (h_mark : isLineEnd mark)
    (returned : Bool) (t : List Char) :
    r.found ++ Script.number r.number (Text.splitWhere isLineEnd (r.text ++ mark :: t)) =
      (r.endLine returned).found ++ Script.number (r.endLine returned).number
        (Text.splitWhere isLineEnd ((r.endLine returned).text ++ t)) := by
  rw [Text.splitWhere_append_cons h_text h_mark]
  exact found_append_number r _

/-! ### A whole source -/

/-- **A reader finds the lines of the rest.** Right after a carriage return this takes that no line
feed follows, since the rest alone does not show that it would belong to the ending before. -/
theorem close_foldl (h_text : ∀ c ∈ r.text, ¬ isLineEnd c)
    (h_returned : r.returned → s.head? ≠ some '\n') :
    (s.foldl next r).close =
      r.found ++ Script.number r.number
        (Text.splitWhere isLineEnd (r.text ++ unifyEndings s)) := by
  induction s using unifyEndings.induct generalizing r with
  | case1 rest ih =>
    -- a pair: the carriage return ends the line and the line feed adds nothing
    have h_rest := ih (r := r.endLine false) (List.forall_mem_nil _) (by simp [endLine])
    rw [unifyEndings.eq_1, endLine_spec h_text rfl false, ← h_rest, List.foldl_cons,
      List.foldl_cons, next_carriageReturn, next_lineFeed_of_returned]
  | case2 c rest h_pair ih =>
    rw [unifyEndings.eq_2 _ _ h_pair, List.foldl_cons]
    by_cases h_feed : c = '\n'
    · subst h_feed
      -- no carriage return stands before, or the pair would have been taken together
      have h_fresh : r.returned = false := by simpa using h_returned
      have h_rest := ih (r := r.endLine false) (List.forall_mem_nil _) (by simp [endLine])
      rw [endLine_spec h_text rfl false, ← h_rest, next_lineFeed h_fresh]
    by_cases h_return : c = '\r'
    · subst h_return
      -- the pairs have been taken care of, so no line feed follows
      have h_lone : rest.head? ≠ some '\n' := by
        intro h_head
        obtain ⟨tail, h_tail⟩ := List.head?_eq_some_iff.mp h_head
        exact h_pair tail rfl h_tail
      have h_rest := ih (r := r.endLine true) (List.forall_mem_nil _) fun _ => h_lone
      rw [endLine_spec h_text rfl true, ← h_rest, next_carriageReturn]
    · have h_c : ¬ isLineEnd c := by simp [isLineEnd, h_feed, h_return]
      have h_rest := ih (r := { r with text := r.text ++ [c], returned := false })
        (List.forall_mem_append.mpr ⟨h_text, List.forall_mem_singleton.mpr h_c⟩) (by simp)
      rw [next_of_not_isLineEnd h_c, h_rest, List.append_assoc, List.singleton_append]
  | case3 =>
    -- the source ends here, and so does its last line
    have h_last := found_append_number r []
    rw [unifyEndings, List.append_nil, Text.splitWhere_of_forall h_text, h_last]
    exact (List.append_nil r.close).symm

end Reader

/-- **Lines and their numbers are those of the source as it stands.** Reading the source once, from
left to right, where a carriage return with a line feed behind it, a line feed and a carriage return
alone each end one line, gives the lines that hold a statement. So it makes no difference to rows
without endings of their own which of the three stands between them. -/
theorem lines_as_they_stand :
    (∀ source, lines source = (source.foldl Reader.next {}).close) ∧
      ∀ rows : List (List Char), (∀ row ∈ rows, ∀ c ∈ row, ¬ isLineEnd c) →
        ∀ e e' : LineEnding,
          lines (e.chars.intercalate rows) = lines (e'.chars.intercalate rows) := by
  refine ⟨?_, ?_⟩
  · intro source
    have h_close := Reader.close_foldl (r := {}) (s := source) (List.forall_mem_nil _) (by simp)
    rw [h_close]
    rfl
  · -- whichever ending is used, the lines are the rows, numbered
    intro rows h_rows e e'
    rw [lines_intercalate e h_rows, lines_intercalate e' h_rows]

/-- Endings that meet: a carriage return before a pair ends a line of its own, and so does one after
a line feed. The three rows are numbered alike whether pairs or carriage returns stand between. -/
theorem lines_as_they_stand_mixed :
    lines "aim\r\r\nturn\n\rshoot\r".toList =
        [⟨1, "aim".toList⟩, ⟨3, "turn".toList⟩, ⟨5, "shoot".toList⟩] ∧
      ("aim\r\r\nturn\n\rshoot\r".toList.foldl Reader.next {}).close =
        [⟨1, "aim".toList⟩, ⟨3, "turn".toList⟩, ⟨5, "shoot".toList⟩] ∧
      (∀ row ∈ ["aim".toList, " # low".toList, "shoot".toList], ∀ c ∈ row, ¬ isLineEnd c) ∧
      lines "aim\r\n # low\r\nshoot".toList = [⟨1, "aim".toList⟩, ⟨3, "shoot".toList⟩] ∧
      lines "aim\r # low\rshoot".toList = [⟨1, "aim".toList⟩, ⟨3, "shoot".toList⟩] := by
  obtain ⟨h_once, h_alike⟩ := lines_as_they_stand
  have h_rows : ∀ row ∈ ["aim".toList, " # low".toList, "shoot".toList],
      ∀ c ∈ row, ¬ isLineEnd c := by simp [isLineEnd]
  have h_lines : lines "aim\r\r\nturn\n\rshoot\r".toList =
      [⟨1, "aim".toList⟩, ⟨3, "turn".toList⟩, ⟨5, "shoot".toList⟩] := by decide
  have h_pairs : lines "aim\r\n # low\r\nshoot".toList =
      [⟨1, "aim".toList⟩, ⟨3, "shoot".toList⟩] := by decide
  have h_same : lines "aim\r\n # low\r\nshoot".toList = lines "aim\r # low\rshoot".toList :=
    h_alike _ h_rows .pair .carriageReturn
  exact ⟨h_lines, (h_once _).symm.trans h_lines, h_rows, h_pairs, h_same.symm.trans h_pairs⟩

end LineScript.Script
