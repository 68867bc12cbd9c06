import LineScript.Proofs.Resolve.Direct
import LineScript.Script.Line

/-!
# What a line is taken for

A line is one of five things (`Script.Form`), and which one is decided by its text alone: by an
assignment sign if it has one in the right place, and otherwise by its leading word. This module has
one lemma for each of the five, saying when a line is taken for it, and one that reads all five back
(`of_form`).

The assignment sign is the leftmost lone `=`. The search for it lists cuts from the right, so what
has to be shown is that the last cut in the list is the wanted one: no cut starts before it
(`getLast?_cuts_lone`), because a name and the blanks after it hold no `=`.
-/

namespace LineScript.Script

open Resolve (isRunChar)
open Scan
open Text (isBlank)

/-! ### Assignments -/

/-- The last cut in the list, which is the leftmost one, is at the first `=` of the text, if that is
a lone one and nothing is open before it. -/
theorem getLast?_cuts_lone {l r : List Char} {d : Char} (h_ne : l ≠ []) (h_l : '=' ∉ l)
    (h_open : Nesting.after {} l = {}) (h_clash : clashes ['='] l.getLast? d = false) :
    (cuts [['=']] (l ++ '=' :: d :: r)).getLast? =
      some ⟨String.ofList (l ++ '=' :: d :: r), Text.byteSize l, ['=']⟩ := by
  -- no cut starts before the sign, since there is no `=` to start one
  have h_none : cutsWithin [['=']] (String.ofList (l ++ '=' :: d :: r)) {} 0 none l
      ('=' :: d :: r) = [] := by
    refine List.eq_nil_iff_forall_not_mem.mpr fun cut h_cut => ?_
    obtain ⟨front, c, back, rfl, h_here⟩ := exists_of_mem_cutsWithin h_cut
    obtain ⟨-, h_meets, h_operator, -, -⟩ := of_mem_cutsHere h_here
    obtain ⟨-, -, e, rest, h_coming, -⟩ := exists_of_meets h_meets
    -- the character at a cut is the sign that the cut is at
    rw [List.mem_singleton.mp h_operator, List.singleton_append, List.cons.injEq] at h_coming
    exact h_l (h_coming.1 ▸ List.mem_append_right front List.mem_cons_self)
  -- and the one at the sign itself is found
  have h_here : cutsHere [['=']] (String.ofList (l ++ '=' :: d :: r)) {} (Text.byteSize l)
      l.getLast? ('=' :: d :: r) =
        [⟨String.ofList (l ++ '=' :: d :: r), Text.byteSize l, ['=']⟩] := by
    have h_meets : meets l.getLast? ('=' :: d :: r) ['='] = true := by
      simp [meets, h_clash, h_ne]
    have h_exposes : Nesting.exposes {} '=' = true := rfl
    simp [cutsHere, h_exposes, h_meets]
  rw [cuts_eq_cutsWithin, cutsWithin_append, List.append_nil, h_none, List.append_nil, h_open,
    Option.or_none, Nat.zero_add, cutsWithin, List.append_nil, h_here, List.getLast?_concat]

/-- What hangs together in a name, and a blank, is no quote, no parenthesis and no part of a
comparison. -/
theorem not_mem_of_isRunChar_or_isBlank {c : Char} (h : isRunChar c ∨ isBlank c) :
    c ∉ ['"', '(', ')', '=', '!', '<', '>'] := by
  intro h_mem
  have h_none : ['"', '(', ')', '=', '!', '<', '>'].all fun c => !(isRunChar c || isBlank c) := by
    decide
  have h_c := List.all_eq_true.mp h_none c h_mem
  rcases h with h_run | h_blank
  · simp [h_run] at h_c
  · simp [h_blank] at h_c

/-- A name has no blanks. -/
theorem trim_of_isIdentifier {name : List Char} (h : Text.isIdentifier name) :
    Text.trim name = name :=
  Text.trim_of_forall fun _ hc =>
    Resolve.isBlank_eq_false_of_isRunChar (Resolve.IsDirect.isRunChar_of_mem_isIdentifier h hc)

/-- A space in front is trimmed away. -/
theorem trim_space_cons (s : List Char) : Text.trim (' ' :: s) = Text.trim s :=
  Text.trim_blanks_append (List.forall_mem_singleton.mpr rfl) s

/-- What stands around the name of an assignment opens nothing and is no part of an operator. -/
theorem isRunChar_or_isBlank_of_mem {front name back : List Char} (h_name : Text.isIdentifier name)
    (h_front : ∀ c ∈ front, isBlank c) (h_back : ∀ c ∈ back, isBlank c) {c : Char}
    (hc : c ∈ front ++ name ++ back) : isRunChar c ∨ isBlank c := by
  rcases List.mem_append.mp hc with hc | hc
  · rcases List.mem_append.mp hc with hc | hc
    · exact .inr (h_front c hc)
    · exact .inl (Resolve.IsDirect.isRunChar_of_mem_isIdentifier h_name hc)
  · exact .inr (h_back c hc)

/-- So names and blanks open nothing. -/
theorem after_eq_of_isRunChar_or_isBlank {s : List Char} (h : ∀ c ∈ s, isRunChar c ∨ isBlank c) :
    Nesting.after {} s = {} := by
  have h_sealed : Sealed s := by
    refine .of_forall fun c hc => ?_
    have h_c := not_mem_of_isRunChar_or_isBlank (h c hc)
    refine ⟨?_, ?_, ?_⟩ <;> (rintro rfl; exact h_c (by decide))
  exact h_sealed.after_eq 0

/-- **A name, a lone `=` and something that is not blank make an assignment.** What stands after the
sign may hold anything but a further `=` at its start. -/
theorem assignment?_append {front name back r : List Char} (h_name : Text.isIdentifier name)
    (h_front : ∀ c ∈ front, isBlank c) (h_back : ∀ c ∈ back, isBlank c) (h_r : r.head? ≠ some '=')
    (h_e : Text.trim r ≠ []) :
    assignment? (front ++ name ++ back ++ '=' :: r) = some (name, Text.trim r) := by
  have h_kinds : ∀ c ∈ front ++ name ++ back, isRunChar c ∨ isBlank c := fun _ hc =>
    isRunChar_or_isBlank_of_mem h_name h_front h_back hc
  have h_name_ne : name ≠ [] := by
    rintro rfl
    exact absurd h_name Bool.false_ne_true
  have h_trim : Text.trim (front ++ name ++ back) = name := by
    rw [List.append_assoc, Text.trim_blanks h_front h_back, trim_of_isIdentifier h_name]
  -- something stands after the sign, or the expression would be empty
  obtain ⟨d, r, rfl⟩ : ∃ d r', r = d :: r' := by
    refine List.exists_cons_of_ne_nil ?_
    rintro rfl
    exact h_e rfl
  have h_ne : front ++ name ++ back ≠ [] := by simp [h_name_ne]
  -- from here on only the kinds of the characters before the sign matter
  generalize front ++ name ++ back = l at h_kinds h_trim h_ne
  have h_chars : ∀ c ∈ l, c ∉ ['"', '(', ')', '=', '!', '<', '>'] := fun c hc =>
    not_mem_of_isRunChar_or_isBlank (h_kinds c hc)
  -- a lone `=` is not a part of `==`, `!=`, `<=` or `>=`
  have h_clash : clashes ['='] l.getLast? d = false := by
    have h_d : d ≠ '=' := by simpa using h_r
    have h_last := h_chars _ (List.getLast_mem h_ne)
    rw [List.getLast?_eq_some_getLast h_ne]
    generalize l.getLast h_ne = p at h_last
    simp only [List.mem_cons, List.not_mem_nil, or_false, not_or] at h_last
    simp [clashes, h_d, h_last]
  have h_cut := getLast?_cuts_lone (r := r) h_ne (fun h_mem => h_chars _ h_mem (by decide))
    (after_eq_of_isRunChar_or_isBlank h_kinds) h_clash
  obtain ⟨h_before, h_after⟩ := @before_after_of_position
    ⟨String.ofList (l ++ '=' :: d :: r), Text.byteSize l, ['=']⟩ l (d :: r) (by simp) rfl
  rw [assignment?, h_cut]
  simp only [h_before, h_after, String.toList_ofList, h_trim]
  refine if_pos ?_
  simp [h_name, h_e]

/-- The way an assignment is usually written, with a space on either side of the sign. -/
theorem assignment?_spaced {name expression : List Char} (h_name : Text.isIdentifier name)
    (h_trim : Text.trim expression = expression) (h_ne : expression ≠ []) :
    assignment? (name ++ " = ".toList ++ expression) = some (name, expression) := by
  have h_text : name ++ " = ".toList ++ expression =
      [] ++ name ++ [' '] ++ '=' :: ' ' :: expression := by
    simp
  have h_blank : Text.trim (' ' :: expression) = expression := (trim_space_cons _).trans h_trim
  have h_assignment := assignment?_append (r := ' ' :: expression) h_name (List.forall_mem_nil _)
    (List.forall_mem_singleton.mpr rfl : ∀ c ∈ [' '], isBlank c) (by simp) (by rwa [h_blank])
  rw [h_text, h_assignment, h_blank]

/-- So it is taken for that assignment. -/
theorem form_assignment {name expression : List Char} (h_name : Text.isIdentifier name)
    (h_trim : Text.trim expression = expression) (h_ne : expression ≠ []) :
    form (name ++ " = ".toList ++ expression) = .assignment name expression := by
  rw [form, assignment?_spaced h_name h_trim h_ne]

/-! ### Keywords and commands -/

/-- A line that starts with `if` and a space opens a block, unless it is an assignment. -/
theorem form_opening {condition : List Char} (h_trim : Text.trim condition = condition)
    (h : assignment? ("if ".toList ++ condition) = none) :
    form ("if ".toList ++ condition) = .opening condition := by
  have h_word : Text.leadingWord ("if ".toList ++ condition) =
      ("if".toList, ' ' :: condition) := rfl
  have h_blank : Text.trim (' ' :: condition) = condition := (trim_space_cons _).trans h_trim
  rw [form, h]
  simp only [keywordForm, h_word, h_blank, if_true]

/-- A bare `else` is taken for one. -/
theorem form_alternative : form "else".toList = .alternative := by decide

/-- So is a bare `end`. -/
theorem form_closing : form "end".toList = .closing := by decide

/-- A trimmed text whose leading word is followed by nothing but blanks is that word. -/
theorem eq_leadingWord_of_trim_eq_nil {text : List Char} (h_trim : Text.trim text = text)
    (h : Text.trim (Text.leadingWord text).2 = []) : (Text.leadingWord text).1 = text := by
  have h_word := Text.trim_append_blanks (Text.trim_eq_nil_iff.mp h) (Text.leadingWord text).1
  rw [Text.leadingWord_append, h_trim] at h_word
  -- the word is not shorter than the text, so nothing is left after it
  have h_length := Text.length_trim_le (Text.leadingWord text).1
  rw [← h_word] at h_length
  exact (List.takeWhile_prefix _).eq_of_length_le h_length

/-- Whatever is not a keyword alone, nor starts with `if`, is a command. -/
theorem form_command {text : List Char} (h_trim : Text.trim text = text)
    (h : assignment? text = none) (h_if : (Text.leadingWord text).1 ≠ "if".toList)
    (h_else : text ≠ "else".toList) (h_end : text ≠ "end".toList) : form text = .command := by
  -- a keyword that is followed by blanks only is the whole line
  have h_bare : ∀ word, text ≠ word →
      ¬ ((Text.leadingWord text).1 = word ∧ Text.trim (Text.leadingWord text).2 = []) := by
    rintro word h_ne ⟨h_word, h_rest⟩
    exact h_ne ((eq_leadingWord_of_trim_eq_nil h_trim h_rest).symm.trans h_word)
  rw [form, h]
  simp only [keywordForm, Bool.and_eq_true, decide_eq_true_eq, List.isEmpty_iff]
  rw [if_neg h_if, if_neg (h_bare _ h_else), if_neg (h_bare _ h_end)]

/-! ### What a line says -/

/-- What is known of a line by what it is taken for. -/
theorem of_form (text : List Char) :
    match form text with
    | .assignment name expression => assignment? text = some (name, expression)
    | .opening condition => assignment? text = none ∧
        (Text.leadingWord text).1 = "if".toList ∧ condition = Text.trim (Text.leadingWord text).2
    | .alternative => (Text.leadingWord text).1 = "else".toList ∧
        Text.trim (Text.leadingWord text).2 = []
    | .closing => (Text.leadingWord text).1 = "end".toList ∧
        Text.trim (Text.leadingWord text).2 = []
    | .command => assignment? text = none ∧ (Text.leadingWord text).1 ≠ "if".toList := by
  rw [form]
  cases h : assignment? text with
  | some parts => rfl
  | none =>
    -- without an assignment the leading word is compared with one keyword after the other
    simp only [keywordForm, Bool.and_eq_true, decide_eq_true_eq, List.isEmpty_iff]
    by_cases h_if : (Text.leadingWord text).1 = "if".toList
    · rw [if_pos h_if]
      exact ⟨trivial, h_if, rfl⟩
    rw [if_neg h_if]
    by_cases h_else : (Text.leadingWord text).1 = "else".toList ∧
        Text.trim (Text.leadingWord text).2 = []
    · rw [if_pos h_else]
      exact h_else
    rw [if_neg h_else]
    by_cases h_end : (Text.leadingWord text).1 = "end".toList ∧
        Text.trim (Text.leadingWord text).2 = []
    · rw [if_pos h_end]
      exact h_end
    · rw [if_neg h_end]
      exact ⟨trivial, h_if⟩

/-- Only a bare `else` starts a second block. -/
theorem form_eq_alternative_iff {text : List Char} (h_trim : Text.trim text = text) :
    form text = .alternative ↔ text = "else".toList := by
  constructor
  · intro h
    have h_of := of_form text
    rw [h] at h_of
    exact (eq_leadingWord_of_trim_eq_nil h_trim h_of.2).symm.trans h_of.1
  · rintro rfl
    exact form_alternative

/-- Only a bare `end` ends an `if`. -/
theorem form_eq_closing_iff {text : List Char} (h_trim : Text.trim text = text) :
    form text = .closing ↔ text = "end".toList := by
  constructor
  · intro h
    have h_of := of_form text
    rw [h] at h_of
    exact (eq_leadingWord_of_trim_eq_nil h_trim h_of.2).symm.trans h_of.1
  · rintro rfl
    exact form_closing

end LineScript.Script
