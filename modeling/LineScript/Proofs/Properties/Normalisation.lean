import LineScript.Proofs.Properties.Records
import LineScript.Proofs.Scope.Frames
import LineScript.Proofs.Text.Splitting

/-!
# A properties text in its normal form

What a text leaves behind depends on its records alone: reading it is filling a table with them, one
after the other (`fst_parse`). So lines are looked at one by one, and all that matters is what one
more line does to the table (`tableOf_append_of_records`, `tableOf_append_of_none`).

* `LastRecord`, `find?_tableOf_eq_some_iff`: a key has the value of its last record;
* `firstRecord`, `pairwise_names_tableOf`: keys stand in the order of their first records;
* `tidy_of_mem_entries`: whatever comes into the table is fit to be written out;
* `written`, `parse_written`: a table of tidy records is written out one record a line, and reading
  that gives the table back with nothing to report;
* **`parse_survives_rewriting`**: all of this for the table that a text leaves, whatever the text.
-/

namespace LineScript

/-! ### Tables that are filled from a list -/

namespace Table

variable {α : Type}

/-- Tables with the same entries are the same; that the names are distinct is no data. -/
theorem ext_entries {t t' : Table α} (h : t.entries = t'.entries) : t = t' := by
  cases t
  cases t'
  cases h
  rfl

/-- A new name is put behind the entries that are there. -/
theorem entries_insert_of_not_mem {t : Table α} {name : String} (h : name ∉ t.names) (a : α) :
    (t.insert name a).entries = t.entries ++ [(name, a)] := by
  obtain ⟨entries, h_distinct⟩ := t
  change put name a entries = entries ++ [(name, a)]
  change name ∉ entries.map Prod.fst at h
  clear h_distinct
  -- the induction is on the bare list: `put` never looks at the proof that names are distinct
  induction entries with
  | nil => rfl
  | cons e rest ih =>
    obtain ⟨key, b⟩ := e
    rw [List.map_cons, List.mem_cons, not_or] at h
    rw [put, if_neg (Ne.symm h.1), ih h.2, List.cons_append]

/-- Putting an entry in adds its name and takes none away. -/
theorem mem_names_insert {t : Table α} {name other : String} {a : α} :
    other ∈ (t.insert name a).names ↔ other ∈ t.names ∨ other = name := by
  rw [names_insert]
  split
  · next h =>
    refine ⟨.inl, ?_⟩
    rintro (h_other | rfl)
    · exact h_other
    · exact h
  · rw [List.mem_append, List.mem_singleton]

/-- Tables are filled from the front of the list, so the last pair goes in last. -/
theorem ofList_append (pairs : List (String × α)) (name : String) (a : α) :
    ofList (pairs ++ [(name, a)]) = (ofList pairs).insert name a := by
  rw [ofList, List.foldl_append, ofList]
  rfl

/-- Pairs of different names are kept as they come. -/
theorem entries_ofList {pairs : List (String × α)} (h : (pairs.map Prod.fst).Nodup) :
    (ofList pairs).entries = pairs := by
  -- from the end of the list, since that is where the table grows
  induction pairs using List.reverseRecOn with
  | nil => rfl
  | append_singleton pairs e ih =>
    obtain ⟨name, a⟩ := e
    rw [List.map_append, List.nodup_append] at h
    obtain ⟨h_pairs, -, h_ne⟩ := h
    have h_new : name ∉ (ofList pairs).names := by
      rw [names, ih h_pairs]
      exact fun h_mem => h_ne name h_mem name (List.mem_singleton_self name) rfl
    rw [ofList_append, entries_insert_of_not_mem h_new, ih h_pairs]

/-- A table is what its own entries fill, since their names differ. -/
theorem ofList_entries (t : Table α) : ofList t.entries = t :=
  ext_entries (entries_ofList t.distinct)

/-- An entry of a table is found under its name: no entry before it has the same one. -/
theorem find?_of_mem_entries {t : Table α} {name : String} {a : α} (h : (name, a) ∈ t.entries) :
    t.find? name = some a := by
  obtain ⟨entries, h_distinct⟩ := t
  change pick name entries = some a
  induction entries with
  | nil => cases h
  | cons e rest ih =>
    obtain ⟨key, b⟩ := e
    obtain ⟨h_key, h_rest⟩ := List.nodup_cons.mp h_distinct
    rcases List.mem_cons.mp h with h_eq | h_mem
    · cases h_eq
      rw [pick, if_pos rfl]
    · have h_ne : key ≠ name := by
        rintro rfl
        exact h_key (List.mem_map.mpr ⟨(key, a), h_mem, rfl⟩)
      rw [pick, if_neg h_ne]
      exact ih h_rest h_mem

end Table

namespace Properties

/-! ### Reading is filling a table -/

/-- The lines of a text as they stand. -/
def rows (source : String) : List (List Char) :=
  Text.splitWhere (· == '\n') source.toList

/-- The table that some lines leave. -/
def tableOf (lines : List (List Char)) : Properties :=
  Table.ofList (lines.filterMap recordOf?)

/-- No line of a text holds a line break. -/
theorem not_mem_of_mem_rows {source : String} {row : List Char} (h : row ∈ rows source) :
    '\n' ∉ row :=
  fun h_mem => Text.not_of_mem_splitWhere h '\n' h_mem rfl

/-- What one line does to the table. -/
theorem fst_addLine (found : Properties × List BadLine) (number : Nat) (row : List Char) :
    (addLine found number (Text.trim row)).1 =
      ([row].filterMap recordOf?).foldl (fun t p => t.insert p.1 p.2) found.1 := by
  rw [List.filterMap_cons, recordOf?, addLine]
  split
  · rfl
  · cases record? (Text.trim row) <;> rfl

/-- A line that is blank or a record is not reported. -/
theorem snd_addLine (found : Properties × List BadLine) (number : Nat) {row : List Char}
    (h : Text.trim row = [] ∨ (recordOf? row).isSome) :
    (addLine found number (Text.trim row)).2 = found.2 := by
  rw [addLine]
  split
  · rfl
  · next h_plain =>
    rcases h with h_blank | h_record
    · rw [h_blank] at h_plain
      exact absurd rfl h_plain
    · rw [recordOf?, if_neg h_plain] at h_record
      cases h_read : record? (Text.trim row) with
      | ok e => rfl
      | error fault =>
        rw [h_read] at h_record
        cases h_record

/-- Takes lines into account that are numbered from the given number. -/
def addLines (found : Properties × List BadLine) (number : Nat) (lines : List (List Char)) :
    Properties × List BadLine :=
  (lines.zipIdx number).foldl (fun found line => addLine found line.2 (Text.trim line.1)) found

/-- Lines are taken one by one, and the count goes up by one with each. -/
theorem addLines_cons (found : Properties × List BadLine) (number : Nat) (row : List Char)
    (lines : List (List Char)) :
    addLines found number (row :: lines) =
      addLines (addLine found number (Text.trim row)) (number + 1) lines :=
  rfl

/-- The table that lines leave, whatever their numbers and whatever is reported on the way. -/
theorem fst_addLines (found : Properties × List BadLine) (number : Nat)
    (lines : List (List Char)) :
    (addLines found number lines).1 =
      (lines.filterMap recordOf?).foldl (fun t p => t.insert p.1 p.2) found.1 := by
  -- the table so far and the number of the next line both change along the way
  induction lines generalizing number found with
  | nil => rfl
  | cons row lines ih =>
    rw [addLines_cons, ih, fst_addLine, ← List.foldl_append, ← List.filterMap_append,
      List.singleton_append]

/-- If every line is blank or a record, nothing is reported. -/
theorem snd_addLines (found : Properties × List BadLine) (number : Nat)
    {lines : List (List Char)}
    (h : ∀ row ∈ lines, Text.trim row = [] ∨ (recordOf? row).isSome) :
    (addLines found number lines).2 = found.2 := by
  induction lines generalizing number found with
  | nil => rfl
  | cons row lines ih =>
    rw [List.forall_mem_cons] at h
    rw [addLines_cons, ih _ _ h.2, snd_addLine _ _ h.1]

/-- Reading a text is taking its lines from the first on, with an empty table to start from. -/
theorem parse_eq_addLines (source : String) : parse source = addLines (∅, []) 1 (rows source) :=
  rfl

/-- The records of a text are put into a table one after the other. -/
theorem fst_parse (source : String) : (parse source).1 = tableOf (rows source) :=
  fst_addLines (∅, []) 1 (rows source)

/-! ### One more line -/

/-- The line is a record with this key. -/
def HasKey (key : String) (row : List Char) : Prop :=
  ∃ value, Records row key value

/-- Whether a line has a key can be computed from what is read of it. -/
theorem hasKey_iff_any {key : String} {row : List Char} :
    HasKey key row ↔ (recordOf? row).any (·.1 == key) := by
  rw [Option.any_eq_true]
  constructor
  · rintro ⟨value, h⟩
    exact ⟨(key, value), recordOf?_eq_some_iff.mpr h, beq_self_eq_true key⟩
  · rintro ⟨⟨key', value⟩, h, h_key⟩
    -- the key that was read is the one asked for
    cases beq_iff_eq.mp h_key
    exact ⟨value, recordOf?_eq_some_iff.mp h⟩

/-- Whether a line has a key is decided by reading it. -/
instance (key : String) : DecidablePred (HasKey key) :=
  fun _ => decidable_of_iff' _ hasKey_iff_any

/-- A line is one record at most: `recordOf?` is a function of it. -/
theorem Records.eq_and_eq {row : List Char} {key key' value value' : String}
    (h : Records row key value) (h' : Records row key' value') : key' = key ∧ value' = value := by
  rw [← recordOf?_eq_some_iff] at h h'
  exact Prod.mk.inj (Option.some.inj (h'.symm.trans h))

/-- A line has one key at most. -/
theorem Records.hasKey_iff {row : List Char} {key value : String} (h : Records row key value)
    {other : String} : HasKey other row ↔ other = key := by
  constructor
  · rintro ⟨value', h'⟩
    exact (h.eq_and_eq h').1
  · rintro rfl
    exact ⟨value, h⟩

/-- A record at the end goes into the table that the lines before it leave. -/
theorem tableOf_append_of_records (lines : List (List Char)) {row : List Char} {key value : String}
    (h : Records row key value) : tableOf (lines ++ [row]) = (tableOf lines).insert key value := by
  rw [tableOf, List.filterMap_append, List.filterMap_cons_some (recordOf?_eq_some_iff.mpr h),
    List.filterMap_nil, Table.ofList_append, tableOf]

/-- A line at the end that is no record leaves the table as it is. -/
theorem tableOf_append_of_none (lines : List (List Char)) {row : List Char}
    (h : ∀ key, ¬ HasKey key row) : tableOf (lines ++ [row]) = tableOf lines := by
  have h_none : recordOf? row = none := by
    rw [Option.eq_none_iff_forall_ne_some]
    exact fun e h_some => h e.1 ⟨e.2, recordOf?_eq_some_iff.mp h_some⟩
  rw [tableOf, List.filterMap_append, List.filterMap_cons_none h_none, List.filterMap_nil,
    List.append_nil, tableOf]

/-- A line is no record or a record with one key. -/
theorem forall_not_hasKey_or (row : List Char) :
    (∀ key, ¬ HasKey key row) ∨ ∃ key value, Records row key value := by
  by_cases h : ∃ key value, Records row key value
  · exact .inr h
  · exact .inl (not_exists.mp h)

/-! ### The value is that of the last record -/

/-- The last of the lines that are records with this key has this value. -/
def LastRecord (lines : List (List Char)) (key value : String) : Prop :=
  ∃ before row after, lines = before ++ row :: after ∧ Records row key value ∧
    ∀ later ∈ after, ¬ HasKey key later

/-- One more line is the last record of its key. -/
theorem lastRecord_append {lines : List (List Char)} {row : List Char} {key value : String} :
    LastRecord (lines ++ [row]) key value ↔
      Records row key value ∨ ¬ HasKey key row ∧ LastRecord lines key value := by
  constructor
  · rintro ⟨before, here, after, h_lines, h_here, h_after⟩
    -- either the record that was found is the new line, or the new line is behind it
    rcases List.eq_nil_or_concat' after with rfl | ⟨after, last, rfl⟩
    · obtain ⟨-, h_row⟩ := List.append_inj' h_lines rfl
      cases h_row
      exact .inl h_here
    · rw [← List.cons_append, ← List.append_assoc] at h_lines
      obtain ⟨rfl, h_row⟩ := List.append_inj' h_lines rfl
      cases h_row
      obtain ⟨h_after, h_last⟩ := List.forall_mem_append.mp h_after
      have h_row : ¬ HasKey key row := h_last row (List.mem_singleton_self row)
      exact .inr ⟨h_row, before, here, after, rfl, h_here, h_after⟩
  · rintro (h_row | ⟨h_row, before, here, after, rfl, h_here, h_after⟩)
    · exact ⟨lines, row, [], rfl, h_row, List.forall_mem_nil _⟩
    · refine ⟨before, here, after ++ [row], ?_, h_here, ?_⟩
      · rw [List.append_assoc, List.cons_append]
      · exact List.forall_mem_append.mpr ⟨h_after, List.forall_mem_singleton.mpr h_row⟩

/-- **A key has the value of its last record.** -/
theorem find?_tableOf_eq_some_iff {lines : List (List Char)} {key value : String} :
    (tableOf lines).find? key = some value ↔ LastRecord lines key value := by
  -- lines are added at the end, where the last record of a key is decided
  induction lines using List.reverseRecOn with
  | nil =>
    constructor
    · intro h
      cases h
    · rintro ⟨before, row, after, h_lines, -⟩
      exact absurd h_lines.symm (List.append_ne_nil_of_right_ne_nil _ (List.cons_ne_nil row after))
  | append_singleton lines row ih =>
    rw [lastRecord_append]
    rcases forall_not_hasKey_or row with h_none | ⟨key', latest, h_row⟩
    · have h_not : ¬ Records row key value := fun h => h_none key ⟨value, h⟩
      rw [tableOf_append_of_none lines h_none, or_iff_right h_not, and_iff_right (h_none key), ih]
    · rw [tableOf_append_of_records lines h_row, Table.find?_insert]
      split
      · next h_key =>
        subst h_key
        -- the line has the key, so no earlier line counts
        have h_earlier : ¬ (¬ HasKey key row ∧ LastRecord lines key value) :=
          fun h => h.1 (h_row.hasKey_iff.mpr rfl)
        rw [or_iff_left h_earlier, Option.some_inj]
        constructor
        · rintro rfl
          exact h_row
        · exact fun h => (h.eq_and_eq h_row).2
      · next h_key =>
        -- the line has another key, so it hides none of the earlier records
        have h_not : ¬ HasKey key row := h_key ∘ h_row.hasKey_iff.mp
        rw [or_iff_right fun h => h_not ⟨value, h⟩, and_iff_right h_not, ih]

/-- An entry of the table has a record that it was read from, and what is read from a record is
tidy. -/
theorem tidy_of_mem_entries {source key value : String}
    (h : (key, value) ∈ (tableOf (rows source)).entries) : Tidy key value := by
  obtain ⟨before, row, after, h_lines, h_row, -⟩ :=
    find?_tableOf_eq_some_iff.mp (Table.find?_of_mem_entries h)
  have h_mem : row ∈ rows source := by
    rw [h_lines]
    exact List.mem_append_right before List.mem_cons_self
  exact h_row.tidy (not_mem_of_mem_rows h_mem)

/-! ### The place is that of the first record -/

/-- Where the first of the lines is that is a record with this key. -/
def firstRecord (lines : List (List Char)) (key : String) : Nat :=
  lines.findIdx (HasKey key ·)

/-- The names in the table are the keys of the lines that are records. -/
theorem mem_names_tableOf_iff {lines : List (List Char)} {key : String} :
    key ∈ (tableOf lines).names ↔ ∃ row ∈ lines, HasKey key row := by
  induction lines using List.reverseRecOn with
  | nil => exact iff_of_false List.not_mem_nil fun ⟨_, h, _⟩ => List.not_mem_nil h
  | append_singleton lines row ih =>
    have h_lines : (∃ line ∈ lines ++ [row], HasKey key line) ↔
        key ∈ (tableOf lines).names ∨ HasKey key row := by
      simp only [List.mem_append, List.mem_singleton, or_and_right, exists_or, exists_eq_left, ih]
    rw [h_lines]
    -- both sides gain exactly the key of the new line, if it has one
    rcases forall_not_hasKey_or row with h_none | ⟨key', value, h_row⟩
    · rw [tableOf_append_of_none lines h_none, or_iff_left (h_none key)]
    · rw [tableOf_append_of_records lines h_row, Table.mem_names_insert, h_row.hasKey_iff]

/-- `findIdx` gives the number of lines if it finds nothing, so a key that is there has a smaller
place. -/
theorem firstRecord_lt_length_iff {lines : List (List Char)} {key : String} :
    firstRecord lines key < lines.length ↔ key ∈ (tableOf lines).names := by
  simp only [firstRecord, List.findIdx_lt_length, decide_eq_true_eq, mem_names_tableOf_iff]

/-- A key that was there stays where it is, and another one comes later. -/
theorem firstRecord_append (lines : List (List Char)) (row : List Char) (key : String) :
    firstRecord (lines ++ [row]) key =
      if key ∈ (tableOf lines).names then firstRecord lines key
      else firstRecord [row] key + lines.length := by
  rw [firstRecord, List.findIdx_append]
  exact if_congr firstRecord_lt_length_iff rfl rfl

/-- **Keys stand in the order of their first records.** -/
theorem pairwise_names_tableOf (lines : List (List Char)) :
    (tableOf lines).names.Pairwise (firstRecord lines · < firstRecord lines ·) := by
  induction lines using List.reverseRecOn with
  | nil => exact List.Pairwise.nil
  | append_singleton lines row ih =>
    -- a line at the end does not move the keys that are there
    have h_old : (tableOf lines).names.Pairwise
        (firstRecord (lines ++ [row]) · < firstRecord (lines ++ [row]) ·) := by
      refine ih.imp_of_mem fun {first second} h_first h_second h_lt => ?_
      rwa [firstRecord_append, if_pos h_first, firstRecord_append, if_pos h_second]
    rcases forall_not_hasKey_or row with h_none | ⟨key, value, h_row⟩
    · rwa [tableOf_append_of_none lines h_none]
    · rw [tableOf_append_of_records lines h_row, Table.names_insert]
      split
      · exact h_old
      · next h_new =>
        refine List.pairwise_append.mpr ⟨h_old, List.pairwise_singleton _ _, ?_⟩
        intro earlier h_earlier last h_last
        cases List.mem_singleton.mp h_last
        -- the new key stands at the end: its first record comes after all the earlier lines
        calc firstRecord (lines ++ [row]) earlier
          _ = firstRecord lines earlier := by rw [firstRecord_append, if_pos h_earlier]
          _ < lines.length := firstRecord_lt_length_iff.mpr h_earlier
          _ ≤ firstRecord [row] key + lines.length := Nat.le_add_left _ _
          _ = firstRecord (lines ++ [row]) key := by rw [firstRecord_append, if_neg h_new]

/-! ### Writing out -/

/-- The records of a table, one a line; the last line may be ended like the others. -/
def written (p : Properties) (ended : Bool) : String :=
  "\n".intercalate
    (p.entries.map (fun e => displayRecord e.1 e.2) ++ if ended then [""] else [])

/-- Lines that are put together come apart again. If there are none, the text is empty, and that is
one blank line. -/
theorem rows_intercalate {lines : List String} (h : ∀ line ∈ lines, '\n' ∉ line.toList) :
    rows ("\n".intercalate lines) = if lines = [] then [[]] else lines.map String.toList := by
  -- the condition of `splitWhere_intercalate`, over characters instead of strings
  have h_unbroken : ∀ row ∈ lines.map String.toList, ∀ c ∈ row, ¬ c == '\n' := by
    rw [List.forall_mem_map]
    intro line h_line c h_c h_break
    cases beq_iff_eq.mp h_break
    exact h line h_line h_c
  rw [rows, String.toList_intercalate]
  split
  · next h_nil =>
    rw [h_nil]
    rfl
  · next h_ne =>
    exact Text.splitWhere_intercalate rfl (h_ne ∘ List.map_eq_nil_iff.mp) h_unbroken

/-- The lines of a table that is written out are its records. There is a blank line after them if
the last of them is ended, or if there is none. -/
theorem rows_written {p : Properties} (h : ∀ e ∈ p.entries, Tidy e.1 e.2) (ended : Bool) :
    rows (written p ended) =
      p.entries.map (fun e => (displayRecord e.1 e.2).toList) ++
        if ended ∨ p.entries = [] then [[]] else [] := by
  rw [written, rows_intercalate]
  · cases ended with
    | true => simp
    | false => by_cases h_entries : p.entries = [] <;> simp [h_entries]
  · -- the condition of `rows_intercalate`: no record holds a line break, nor does the empty line
    rw [List.forall_mem_append, List.forall_mem_map]
    refine ⟨fun e h_e => (h e h_e).display_unbroken, ?_⟩
    cases ended <;> simp

/-- **Records that are written out are read again.** -/
theorem parse_written {p : Properties} (h : ∀ e ∈ p.entries, Tidy e.1 e.2) (ended : Bool) :
    parse (written p ended) = (p, []) := by
  have h_read (e : String × String) (h_e : e ∈ p.entries) :
      recordOf? (displayRecord e.1 e.2).toList = some e :=
    recordOf?_eq_some_iff.mpr (h e h_e).records_display
  -- a blank line at the end adds nothing to what is read
  have h_records : (rows (written p ended)).filterMap recordOf? = p.entries := by
    have h_blank : (if ended ∨ p.entries = [] then [[]] else []).filterMap recordOf? = [] := by
      split <;> rfl
    have h_map : p.entries.filterMap (recordOf? ∘ fun e => (displayRecord e.1 e.2).toList) =
        p.entries.filterMap some :=
      List.filterMap_congr h_read
    rw [rows_written h, List.filterMap_append, h_blank, List.append_nil, List.filterMap_map, h_map,
      List.filterMap_some]
  -- no line is to be reported: each is a record or blank
  have h_rows : ∀ row ∈ rows (written p ended), Text.trim row = [] ∨ (recordOf? row).isSome := by
    rw [rows_written h, List.forall_mem_append, List.forall_mem_map]
    refine ⟨fun e h_e => .inr (by rw [h_read e h_e]; rfl), fun row h_row => .inl ?_⟩
    split at h_row
    · cases List.mem_singleton.mp h_row
      rfl
    · cases h_row
  refine Prod.ext ?_ ?_
  · rw [fst_parse, tableOf, h_records, Table.ofList_entries]
  · rw [parse_eq_addLines, snd_addLines _ _ h_rows]

/-- Whatever a text holds, its keys are different, trimmed and not empty; the records that it leaves
can be written out and read again, and nothing is lost or reported; a key has the value of its last
record and the place of its first one. -/
theorem parse_survives_rewriting (source : String) :
    (parse source).1.names.Nodup ∧
    (∀ key ∈ (parse source).1.names, key ≠ "" ∧ Text.trim key.toList = key.toList) ∧
    (∀ ended, parse (written (parse source).1 ended) = ((parse source).1, [])) ∧
    (∀ key value, (parse source).1.find? key = some value ↔
      LastRecord (rows source) key value) ∧
    (parse source).1.names.Pairwise
      (firstRecord (rows source) · < firstRecord (rows source) ·) := by
  rw [fst_parse]
  have h_tidy (e : String × String) (h_e : e ∈ (tableOf (rows source)).entries) : Tidy e.1 e.2 :=
    tidy_of_mem_entries h_e
  refine ⟨(tableOf (rows source)).distinct, ?_, parse_written h_tidy,
    fun key value => find?_tableOf_eq_some_iff, pairwise_names_tableOf (rows source)⟩
  intro key h_key
  obtain ⟨e, h_e, rfl⟩ := List.mem_map.mp h_key
  exact ⟨(h_tidy e h_e).key_ne, (h_tidy e h_e).trim_key⟩

/-- A key that comes twice, a comment, a CR and a line without a key: the table keeps two records,
and reading it again after writing it out reports nothing. -/
theorem parse_survives_rewriting_repeated :
    (parse "x = 1\n# c\r\n y=\nx = 3 = 4\n = 4").1.entries = [("x", "3 = 4"), ("y", "")] ∧
    (parse "x = 1\n# c\r\n y=\nx = 3 = 4\n = 4").2 = [⟨5, .emptyKey⟩] ∧
    parse (written (parse "x = 1\n# c\r\n y=\nx = 3 = 4\n = 4").1 true) =
      ((parse "x = 1\n# c\r\n y=\nx = 3 = 4\n = 4").1, []) ∧
    LastRecord (rows "x = 1\n# c\r\n y=\nx = 3 = 4\n = 4") "x" "3 = 4" :=
  have h_all := parse_survives_rewriting "x = 1\n# c\r\n y=\nx = 3 = 4\n = 4"
  ⟨by decide +kernel, by decide +kernel, h_all.2.2.1 true,
    (h_all.2.2.2.1 "x" "3 = 4").mp (by decide +kernel)⟩

end Properties

end LineScript
