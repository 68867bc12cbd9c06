import LineScript.Properties
import LineScript.Proofs.Text.Trimming

/-!
# Lines that are records

A line is trimmed before it is divided at its first `=`, and its parts are trimmed again. Whether it
is a record, and of what, can be said of the line as it stands: before its first `=` there is
something other than blanks, and that does not start with `#`.

* `Records`: the line is a record with this key and this value;
* `recordOf?`: what the reader takes a line for, blank lines and comments included;
* `recordOf?_eq_some_iff`: **the reader takes a line for a record exactly if it is one**. It rests
  on what trimming does to a line with a sign in it (`trim_append_sign`): blanks go at the two ends,
  and the sign stays;
* `Tidy`, `Tidy.records_display`: what the parts of a record are like, and that they make the same
  record when they are written out.
-/

namespace LineScript

namespace Text

/-- A sign in a text keeps apart what is trimmed on its two sides. -/
theorem trim_append_sign (left right : List Char) :
    trim (left ++ '=' :: right) = trimLeft left ++ '=' :: trimRight right := by
  have h_left : trimLeft (left ++ '=' :: right) = trimLeft left ++ '=' :: right := by
    -- blanks before the sign are trimmed away up to the sign, and no further
    by_cases h : trimLeft left = []
    · have h_blank : ∀ c ∈ left, isBlank c := List.dropWhile_eq_nil_iff.mp h
      rw [trimLeft, List.dropWhile_append_of_pos h_blank, h]
      rfl
    · exact trimLeft_append h _
  have h_sign (s : List Char) : trimRight (s ++ ['=']) = s ++ ['='] := by
    rw [trimRight_append, trimRight_singleton (by decide), if_neg (by simp)]
  rw [trim, h_left, ← List.singleton_append, ← List.append_assoc, trimRight_append]
  split
  · next h => rw [h_sign, h]
  · rw [List.append_assoc, List.singleton_append]

/-- Trimming the end does not change how a text starts, unless nothing is left. -/
theorem head?_trim {s : List Char} (h : trim s ≠ []) : (trimLeft s).head? = (trim s).head? := by
  obtain ⟨rest, h_rest⟩ := List.rdropWhile_prefix isBlank (trimLeft s)
  have h_left : trimLeft s = trim s ++ rest := h_rest.symm
  rw [h_left, List.head?_append_of_ne_nil _ h]

/-- Trimming adds nothing. -/
theorem mem_of_mem_trim {s : List Char} {c : Char} (h : c ∈ trim s) : c ∈ s := by
  obtain ⟨front, back, -, -, h_s⟩ := exists_blanks_trim s
  rw [h_s]
  exact List.mem_append_left back (List.mem_append_right front h)

end Text

namespace Properties

/-- The line is a record: its first `=` divides it into a key and a value. -/
structure Records (row : List Char) (key value : String) : Prop where
  /-- What stands before the first `=`, and what stands after it. -/
  parts : ∃ left right, row = left ++ '=' :: right ∧ '=' ∉ left ∧
    key = String.ofList (Text.trim left) ∧ value = String.ofList (Text.trim right)
  key_ne : key ≠ ""
  /-- A line that starts with `#` is a comment. -/
  not_comment : key.toList.head? ≠ some '#'

/-- The record that a line is taken for. -/
def recordOf? (row : List Char) : Option (String × String) :=
  if (Text.trim row).isEmpty || (Text.trim row).head? == some '#' then none
  else (record? (Text.trim row)).toOption

/-! ### What a line is taken for -/

/-- What the reader makes of a trimmed line, by what stood on the two sides of its first sign. -/
theorem record?_append {left : List Char} (h : '=' ∉ left) (right : List Char) :
    record? (Text.trim (left ++ '=' :: right)) =
      if Text.trim left = [] then .error .emptyKey
      else .ok (String.ofList (Text.trim left), String.ofList (Text.trim right)) := by
  -- what is trimmed off is blank, so the first sign stays the first
  have h_left : ∀ c ∈ Text.trimLeft left, c != '=' := by
    intro c hc
    rw [bne_iff_ne]
    rintro rfl
    exact h ((List.dropWhile_sublist Text.isBlank).subset hc)
  rw [Text.trim_append_sign, record?, List.dropWhile_append_of_pos h_left,
    List.takeWhile_append_of_pos h_left]
  simp only [List.dropWhile_cons, List.takeWhile_cons, bne_self_eq_false, Bool.false_eq_true,
    if_false, List.append_nil, Text.trim_trimLeft, Text.trim_trimRight, List.isEmpty_iff]

/-- The same with blank lines and comments, which are told by the key. -/
theorem recordOf?_append {left : List Char} (h : '=' ∉ left) (right : List Char) :
    recordOf? (left ++ '=' :: right) =
      if Text.trim left = [] ∨ (Text.trim left).head? = some '#' then none
      else some (String.ofList (Text.trim left), String.ofList (Text.trim right)) := by
  rw [recordOf?, record?_append h]
  by_cases h_blank : Text.trim left = []
  · -- without a key the line is no record, whether it is refused or passed over
    have h_none : Text.trim left = [] ∨ (Text.trim left).head? = some '#' := .inl h_blank
    rw [if_pos h_blank, if_pos h_none]
    exact ite_self none
  · -- the line and its key start with the same character
    have h_head : (Text.trim (left ++ '=' :: right)).head? = (Text.trim left).head? := by
      have h_ne : Text.trimLeft left ≠ [] := by
        intro h_nil
        rw [Text.trim, h_nil] at h_blank
        exact h_blank rfl
      rw [Text.trim_append_sign, List.head?_append_of_ne_nil _ h_ne, Text.head?_trim h_blank]
    have h_nonempty : (Text.trim (left ++ '=' :: right)).isEmpty = false := by
      rw [Text.trim_append_sign, List.isEmpty_eq_false_iff]
      simp
    rw [if_neg h_blank, h_head, h_nonempty, Bool.false_or]
    simp only [beq_iff_eq, h_blank, false_or]
    rfl

/-- A line without a sign is no record. -/
theorem recordOf?_of_not_mem {row : List Char} (h : '=' ∉ row) : recordOf? row = none := by
  have h_drop : (Text.trim row).dropWhile (· != '=') = [] := by
    refine List.dropWhile_eq_nil_iff.mpr fun c hc => ?_
    rw [bne_iff_ne]
    rintro rfl
    exact h (Text.mem_of_mem_trim hc)
  rw [recordOf?, record?, h_drop]
  exact ite_self none

/-- **A line is taken for a record exactly if it is one.** -/
theorem recordOf?_eq_some_iff {row : List Char} {key value : String} :
    recordOf? row = some (key, value) ↔ Records row key value := by
  constructor
  · intro h
    -- the line is divided at its first sign, if it has one
    by_cases h_mem : '=' ∈ row
    · obtain ⟨left, right, rfl, h_left⟩ := List.eq_append_cons_of_mem h_mem
      rw [recordOf?_append h_left, Option.ite_none_left_eq_some, not_or] at h
      obtain ⟨⟨h_ne, h_head⟩, h_parts⟩ := h
      obtain ⟨rfl, rfl⟩ := Prod.mk.inj (Option.some.inj h_parts)
      refine ⟨⟨left, right, rfl, h_left, rfl, rfl⟩, ?_, ?_⟩
      · simpa using h_ne
      · rwa [String.toList_ofList]
    · rw [recordOf?_of_not_mem h_mem] at h
      cases h
  · rintro ⟨⟨left, right, rfl, h_left, rfl, rfl⟩, h_ne, h_head⟩
    rw [String.toList_ofList] at h_head
    have h_key : Text.trim left ≠ [] := by simpa using h_ne
    rw [recordOf?_append h_left, if_neg (not_or.mpr ⟨h_key, h_head⟩)]

/-! ### The parts of a record -/

/-- A key and a value as they stand in a record. -/
structure Tidy (key value : String) : Prop where
  key_ne : key ≠ ""
  trim_key : Text.trim key.toList = key.toList
  no_sign : '=' ∉ key.toList
  not_comment : key.toList.head? ≠ some '#'
  trim_value : Text.trim value.toList = value.toList
  key_unbroken : '\n' ∉ key.toList
  value_unbroken : '\n' ∉ value.toList

/-- The parts of a record in a line are as they stand in one. -/
theorem Records.tidy {row : List Char} {key value : String} (h : Records row key value)
    (h_row : '\n' ∉ row) : Tidy key value := by
  obtain ⟨⟨left, right, rfl, h_left, rfl, rfl⟩, h_ne, h_head⟩ := h
  refine ⟨h_ne, ?_, ?_, h_head, ?_, ?_, ?_⟩ <;> rw [String.toList_ofList]
  · exact Text.trim_trim left
  · exact fun h_mem => h_left (Text.mem_of_mem_trim h_mem)
  · exact Text.trim_trim right
  · exact fun h_mem => h_row (List.mem_append_left _ (Text.mem_of_mem_trim h_mem))
  · exact fun h_mem =>
      h_row (List.mem_append_right _ (List.mem_cons_of_mem _ (Text.mem_of_mem_trim h_mem)))

namespace Tidy

variable {key value : String}

/-- A record as it is written, with a space on either side of the sign. -/
theorem toList_display (key value : String) :
    (displayRecord key value).toList = (key.toList ++ [' ']) ++ '=' :: ' ' :: value.toList := by
  simp [displayRecord, String.toList_append]

/-- **A record that is written out is the same record.** -/
theorem records_display (h : Tidy key value) :
    Records (displayRecord key value).toList key value := by
  have h_space : ∀ c ∈ [' '], Text.isBlank c := List.forall_mem_singleton.mpr rfl
  refine ⟨⟨key.toList ++ [' '], ' ' :: value.toList, toList_display key value, ?_, ?_, ?_⟩,
    h.key_ne, h.not_comment⟩
  · simp [h.no_sign]
  · rw [Text.trim_append_blanks h_space, h.trim_key, String.ofList_toList]
  · rw [← List.singleton_append, Text.trim_blanks_append h_space, h.trim_value,
      String.ofList_toList]

/-- It fits on one line. -/
theorem display_unbroken (h : Tidy key value) : '\n' ∉ (displayRecord key value).toList := by
  rw [toList_display]
  simp [h.key_unbroken, h.value_unbroken]

end Tidy

end Properties

end LineScript
