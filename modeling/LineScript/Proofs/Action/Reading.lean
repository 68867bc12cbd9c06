import LineScript.Action
import LineScript.Proofs.Expression.Acceptance
import LineScript.Proofs.Scan.Pieces

/-!
# Two ways of writing a command

A command may be written with parentheses around its arguments or without them, and blanks may stand
around every argument. The reader does not know which way was meant: it drops a pair of parentheses
if one encloses everything after the leading word, also if they are those of an only argument, and
divides what is left at exposed commas. That this never merges, divides or loses an argument rests
on what a text with a value looks like.

* `Delivers scope text values`: the text consists of texts with these values, with commas between
  them. It stays so when the text is trimmed (`Delivers.trim`) and when it loses parentheses around
  all of it (`Delivers.group`), and its pieces have the values (`Delivers.pieces`);
* `Argument`, `Action.called`, `Action.spoken`: a command as it is written, in the two ways;
* `parse_called_spoken`: **both ways of writing a command give the same action**, with the value of
  every argument.
-/

namespace LineScript

open Resolve Scan
open Text (isBlank)

variable {scope : Scope} {s t : List Char} {v : Value} {vs : List Value}

/-! ### Texts with a value -/

/-- A text with a value is the text of a form, so its delimiters match. -/
theorem wellDelimited_of_valueOf (h : valueOf scope s = some v) : WellDelimited s := by
  obtain ⟨f, rfl, -⟩ := derives_of_valueOf h
  exact f.wellDelimited

/-- For the same reason it leaves nothing open. -/
theorem sealed_of_valueOf (h : valueOf scope s = some v) : Sealed s := by
  obtain ⟨f, rfl, -⟩ := derives_of_valueOf h
  exact (f.row scope).isSealed

/-- Blanks alone have no value. -/
theorem trim_ne_nil_of_valueOf (h : valueOf scope s = some v) : Text.trim s ≠ [] := by
  intro h_trim
  rw [← valueOf_trim, h_trim, valueOf_eq_none rfl] at h
  exact absurd h (by simp)

/-- A group has the value of its inside. -/
theorem valueOf_group {inside : List Char} (h : group? s = some inside) :
    valueOf scope s = valueOf scope inside := by
  have h_direct : IsDirect s := .group h
  obtain rfl := eq_of_group? h
  have h_trim := trim_of_isDirect h_direct (show opensLexeme '(' by decide)
  exact valueOf_of_group? h_trim (literal?_cons_parenthesis _) rfl h

/-! ### Texts with several values -/

/-- The text consists of texts with the given values, with commas between them. -/
inductive Delivers (scope : Scope) : List Char → List Value → Prop
  /-- The last of the texts, or the only one. -/
  | last {s : List Char} {v : Value} (h : valueOf scope s = some v) : Delivers scope s [v]
  /-- A text, a comma, and the texts that follow. -/
  | comma {s t : List Char} {v : Value} {vs : List Value} (h : valueOf scope s = some v)
      (h_rest : Delivers scope t vs) : Delivers scope (s ++ ',' :: t) (v :: vs)

namespace Delivers

/-- Nothing is left open in such a text: commas open nothing. -/
theorem isSealed (h : Delivers scope s vs) : Sealed s := by
  have h_comma : Sealed [','] := .of_forall (by simp)
  induction h with
  | last h => exact sealed_of_valueOf h
  | comma h _ ih => exact (sealed_of_valueOf h).append (h_comma.append ih)

/-- Nor is it blank: there is an argument or a comma. -/
theorem trim_ne_nil (h : Delivers scope s vs) : Text.trim s ≠ [] := by
  cases h with
  | last h => exact trim_ne_nil_of_valueOf h
  | comma h h_rest =>
    intro h_trim
    have h_comma := Text.trim_eq_nil_iff.mp h_trim ',' (List.mem_append_right _ List.mem_cons_self)
    exact absurd h_comma (by decide)

/-- **The pieces have the values.** A comma inside an argument is hidden, and nothing is open after
an argument. -/
theorem pieces (h : Delivers scope s vs) :
    List.Forall₂ (fun piece v => valueOf scope piece = some v) (Scan.pieces ',' s) vs := by
  induction h with
  | last h =>
    rw [pieces_of_hides (wellDelimited_of_valueOf h).hides_comma]
    exact .cons h .nil
  | comma h _ ih =>
    rw [pieces_append_cons (by decide) (wellDelimited_of_valueOf h).hides_comma
      ((sealed_of_valueOf h).after_eq 0)]
    exact .cons h ih

/-- Blanks before the first argument do not change its value. -/
theorem trimLeft (h : Delivers scope s vs) : Delivers scope (Text.trimLeft s) vs := by
  have h_value : ∀ {s v}, valueOf scope s = some v → valueOf scope (Text.trimLeft s) = some v := by
    intro s v h
    rwa [← valueOf_trim, Text.trim_trimLeft, valueOf_trim]
  cases h with
  | last h => exact .last (h_value h)
  | @comma s t v vs h h_rest =>
    -- there is something in the first argument, so blanks are lost only before it
    have h_ne : Text.trimLeft s ≠ [] := by
      intro h_nil
      exact trim_ne_nil_of_valueOf h (by rw [← Text.trim_trimLeft, h_nil, Text.trim_nil])
    rw [Text.trimLeft_append h_ne]
    exact .comma (h_value h) h_rest

/-- Nor do blanks after the last one. -/
theorem trimRight (h : Delivers scope s vs) : Delivers scope (Text.trimRight s) vs := by
  induction h with
  | last h => exact .last (by rwa [← valueOf_trim, Text.trim_trimRight, valueOf_trim])
  | @comma s t v vs h h_rest ih =>
    have h_ne : Text.trimRight t ≠ [] := by
      intro h_nil
      exact h_rest.trim_ne_nil (by rw [← Text.trim_trimRight, h_nil, Text.trim_nil])
    have h_right := Text.trimRight_append (s ++ [',']) t
    rw [if_neg h_ne, List.append_assoc, List.append_assoc] at h_right
    change Delivers scope (Text.trimRight (s ++ ([','] ++ t))) (v :: vs)
    rw [h_right]
    exact .comma h ih

/-- So the text may be trimmed. -/
theorem trim (h : Delivers scope s vs) : Delivers scope (Text.trim s) vs :=
  h.trimLeft.trimRight

/-- Parentheses around everything are those of an only argument: a comma between two arguments would
be exposed. -/
theorem group (h : Delivers scope s vs) {inside : List Char} (h_group : group? s = some inside) :
    Delivers scope inside vs := by
  cases h with
  | last h => exact .last (valueOf_group h_group ▸ h)
  | @comma s t v vs h h_rest =>
    have h_hidden := not_exposes_of_group? h_group rfl
    rw [show Nesting.after {} s = {} from (sealed_of_valueOf h).after_eq 0] at h_hidden
    exact absurd h_hidden (by decide)

end Delivers

/-! ### Commands as they are written -/

/-- An argument as it is written: an expression with blanks around it. -/
structure Argument where
  /-- The blanks before it. -/
  before : Blanks := .none
  /-- The expression. -/
  expression : String
  /-- The blanks after it. -/
  after : Blanks := .none

namespace Argument

/-- The argument with its blanks. -/
def text (a : Argument) : List Char :=
  a.before.1 ++ (a.expression.toList ++ a.after.1)

/-- The arguments in order, with commas between them. -/
def list : List Argument → List Char
  | [] => []
  | [a] => a.text
  | a :: b :: rest => a.text ++ ',' :: list (b :: rest)

end Argument

namespace Action

/-- `name(a, b)`, with blanks before the parenthesis. -/
def called (name : String) (gap : Blanks) (arguments : List Argument) : String :=
  String.ofList (name.toList ++ (gap.1 ++ '(' :: (Argument.list arguments ++ [')'])))

/-- `name a, b`, with blanks after the name. -/
def spoken (name : String) (gap : Blanks) (arguments : List Argument) : String :=
  String.ofList (name.toList ++ (gap.1 ++ Argument.list arguments))

end Action

/-- Every argument has its value. -/
abbrev Argument.Resolve (scope : Scope) (arguments : List Argument) (values : List Value) : Prop :=
  List.Forall₂ (fun a v => scope.resolve a.expression = .ok v) arguments values

/-- An argument has the value of its expression. -/
theorem Argument.valueOf_text {a : Argument} (h : scope.resolve a.expression = .ok v) :
    valueOf scope a.text = some v := by
  rw [text, ← valueOf_trim, Text.trim_blanks a.before.2 a.after.2, valueOf_trim]
  exact (resolve_eq_ok_iff scope a.expression v).mp h

/-- The text of some arguments delivers their values. -/
theorem Argument.delivers_list {arguments : List Argument} (h_ne : arguments ≠ [])
    (h : Argument.Resolve scope arguments vs) : Delivers scope (list arguments) vs := by
  induction h with
  | nil => exact absurd rfl h_ne
  | @cons a v arguments vs h_a h_rest ih =>
    cases h_rest with
    | nil => exact .last (valueOf_text h_a)
    | cons h_b h_rest => exact .comma (valueOf_text h_a) (ih (List.cons_ne_nil _ _))

namespace Action

/-! ### Reading them back -/

/-- A command whose parts have values is read as the action with these values. -/
theorem parse_of_parts {statement name : String} {texts : List (List Char)}
    (h_parts : parts statement = .ok (name, texts.map String.ofList))
    (h : List.Forall₂ (fun text v => valueOf scope text = some v) texts vs) :
    parse statement scope = .ok { name, arguments := vs } := by
  have h_values : (texts.map String.ofList).mapM scope.resolve = .ok vs := by
    clear h_parts
    induction h with
    | nil => rfl
    | @cons text v texts vs h_text _ ih =>
      have h_first : scope.resolve (String.ofList text) = .ok v := by
        rwa [resolve_eq_ok_iff, String.toList_ofList]
      rw [List.map_cons, List.mapM_cons, h_first, ih]
      rfl
  rw [parse, h_parts]
  change (do
    let arguments ← (texts.map String.ofList).mapM scope.resolve
    return ({ name, arguments } : Action)) = _
  rw [h_values]
  rfl

/-- Blanks at the end of a command make no difference to its arguments. -/
theorem argumentTexts_trimRight (tail : List Char) :
    argumentTexts (Text.trimRight tail) = argumentTexts tail := by
  rw [argumentTexts, argumentTexts, Text.trim_trimRight]

/-- Trimming a command leaves its name alone. -/
theorem trim_name_append {name : List Char} (h_name : Text.isIdentifier name) (tail : List Char) :
    Text.trim (name ++ tail) = name ++ Text.trimRight tail := by
  have h_blank : ∀ c ∈ name, isBlank c = false := fun c hc =>
    isBlank_eq_false_of_isRunChar (IsDirect.isRunChar_of_mem_isIdentifier h_name hc)
  have h_right : Text.trimRight name = name := by
    refine Text.trimRight_eq_self ?_
    rw [Option.any_eq_true]
    rintro ⟨c, h_last, h_c⟩
    exact Bool.false_ne_true ((h_blank c (List.mem_of_getLast? h_last)).symm.trans h_c)
  cases name with
  | nil => exact absurd h_name Bool.false_ne_true
  | cons c rest =>
    -- the name starts with no blank, so only the end of the tail is trimmed
    have h_left : Text.trimLeft (c :: rest ++ tail) = c :: rest ++ tail :=
      List.dropWhile_cons_of_neg (by rw [h_blank c List.mem_cons_self]; exact Bool.false_ne_true)
    rw [Text.trim, h_left, Text.trimRight_append]
    split
    · next h_nil => rw [h_nil, h_right, List.append_nil]
    · rfl

/-- The name is the leading word if what follows cannot go on with it. -/
theorem leadingWord_name_append {name rest : List Char} (h_name : Text.isIdentifier name)
    (h_rest : ¬ rest.head?.any Text.isWordChar) :
    Text.leadingWord (name ++ rest) = (name, rest) := by
  have h_word : ∀ c ∈ name, Text.isWordChar c := by
    cases name with
    | nil => exact List.forall_mem_nil _
    | cons c name =>
      obtain ⟨h_start, h_all⟩ := Bool.and_eq_true_iff.mp h_name
      exact List.forall_mem_cons.mpr ⟨isWordChar_of_isNameStart h_start, List.all_eq_true.mp h_all⟩
  -- the rest starts with no word character, so none of it is taken
  have h_stop : rest.takeWhile Text.isWordChar = [] ∧ rest.dropWhile Text.isWordChar = rest := by
    cases rest with
    | nil => exact ⟨rfl, rfl⟩
    | cons c rest =>
      have h_c : ¬ Text.isWordChar c := by simpa using h_rest
      exact ⟨List.takeWhile_cons_of_neg h_c, List.dropWhile_cons_of_neg h_c⟩
  rw [Text.leadingWord, List.takeWhile_append_of_pos h_word, List.dropWhile_append_of_pos h_word,
    h_stop.1, h_stop.2, List.append_nil]

/-- The leading word ends where a character follows that belongs to no word, and the blanks at the
end of a command make no difference to its arguments. -/
theorem parts_append {name : String} (h_name : Text.isIdentifier name.toList) {tail : List Char}
    (h_tail : ¬ tail.head?.any Text.isWordChar) :
    parts (String.ofList (name.toList ++ tail)) =
      .ok (name, (argumentTexts tail).map String.ofList) := by
  -- trimming the end does not change how the tail starts, unless nothing is left of it
  have h_rest : ¬ (Text.trimRight tail).head?.any Text.isWordChar := by
    obtain ⟨back, h_back⟩ := List.rdropWhile_prefix isBlank tail
    intro h_word
    obtain ⟨c, h_head, h_c⟩ := (Option.any_eq_true _ _).mp h_word
    refine h_tail ((Option.any_eq_true _ _).mpr ⟨c, ?_, h_c⟩)
    rw [← h_back, List.head?_append]
    exact Option.or_eq_some_iff.mpr (.inl h_head)
  rw [parts, String.toList_ofList, trim_name_append h_name, leadingWord_name_append h_name h_rest]
  dsimp only
  rw [if_pos h_name, argumentTexts_trimRight, String.ofList_toList]

/-- Whatever the arguments, parentheses around them are dropped. -/
theorem argumentTexts_called (gap : Blanks) {arguments : List Argument}
    (h : Argument.Resolve scope arguments vs) :
    List.Forall₂ (fun text v => valueOf scope text = some v)
      (argumentTexts (gap.1 ++ '(' :: (Argument.list arguments ++ [')']))) vs := by
  have h_trim : Text.trim (gap.1 ++ '(' :: (Argument.list arguments ++ [')'])) =
      '(' :: (Argument.list arguments ++ [')']) := by
    rw [Text.trim_blanks_append gap.2]
    refine Text.trim_eq_self (show ¬ isBlank '(' by decide) ?_
    rw [← List.cons_append, List.getLast?_concat]
    decide
  cases arguments with
  | nil =>
    -- the parentheses have nothing between them
    cases h
    rw [argumentTexts, h_trim]
    exact .nil
  | cons a arguments =>
    have h_list := Argument.delivers_list (List.cons_ne_nil a arguments) h
    -- the arguments leave nothing open, so the outer parentheses belong together
    rw [argumentTexts, h_trim, group?_of_sealed h_list.isSealed, Option.getD_some,
      if_neg (by rw [List.isEmpty_iff]; exact h_list.trim_ne_nil)]
    exact h_list.pieces

/-- Without parentheses around the arguments, those that are found belong to an only argument, and
it has the same value without them. -/
theorem argumentTexts_spoken (gap : Blanks) {arguments : List Argument}
    (h : Argument.Resolve scope arguments vs) :
    List.Forall₂ (fun text v => valueOf scope text = some v)
      (argumentTexts (gap.1 ++ Argument.list arguments)) vs := by
  have h_trim : Text.trim (gap.1 ++ Argument.list arguments) =
      Text.trim (Argument.list arguments) := Text.trim_blanks_append gap.2 _
  cases arguments with
  | nil =>
    cases h
    rw [argumentTexts, h_trim]
    exact .nil
  | cons a arguments =>
    have h_list := (Argument.delivers_list (List.cons_ne_nil a arguments) h).trim
    -- the reader may drop parentheses, but what is left still delivers the same values
    have h_inside : Delivers scope
        ((group? (Text.trim (Argument.list (a :: arguments)))).getD
          (Text.trim (Argument.list (a :: arguments)))) vs := by
      cases h_group : group? (Text.trim (Argument.list (a :: arguments))) with
      | none => exact h_list
      | some inside => exact h_list.group h_group
    rw [argumentTexts, h_trim, if_neg (by rw [List.isEmpty_iff]; exact h_inside.trim_ne_nil)]
    exact h_inside.pieces

/-- **Both ways of writing a command deliver every argument.** The name is followed by the arguments
in parentheses, or by at least one blank and the arguments; blanks may stand around every argument
and before the parenthesis. If every argument has a value, the command is read as the action with
that name and these values, in order, whichever way it is written. -/
theorem parse_called_spoken {scope : Scope} {name : String}
    (h_name : Text.isIdentifier name.toList) {arguments : List Argument} {values : List Value}
    (h : Argument.Resolve scope arguments values) (gap : Blanks) :
    parse (called name gap arguments) scope = .ok { name, arguments := values } ∧
      (gap.1 ≠ [] →
        parse (spoken name gap arguments) scope = .ok { name, arguments := values }) := by
  -- a blank ends the name, and so does the parenthesis if there is no blank before it
  have h_gap : ∀ c ∈ gap.1, ¬ Text.isWordChar c := by
    intro c hc h_word
    have h_blank := isBlank_eq_false_of_isRunChar (c := c) (by rw [isRunChar, h_word, Bool.true_or])
    exact Bool.false_ne_true (h_blank.symm.trans (gap.2 c hc))
  constructor
  · refine parse_of_parts (parts_append h_name ?_) (argumentTexts_called gap h)
    cases h_blanks : gap.1 with
    | nil => exact (show ¬ Text.isWordChar '(' by decide)
    | cons c blanks => simpa using h_gap c (by rw [h_blanks]; exact List.mem_cons_self)
  · intro h_ne
    refine parse_of_parts (parts_append h_name ?_) (argumentTexts_spoken gap h)
    obtain ⟨c, blanks, h_blanks⟩ := List.exists_cons_of_ne_nil h_ne
    rw [h_blanks]
    simpa using h_gap c (by rw [h_blanks]; exact List.mem_cons_self)

/-- A comparison with a comma and a parenthesis in quotes, and a text that looks like the end of a
call. -/
def labelArguments : List Argument :=
  [{ expression := "!( ready ) != ( label != \"a,)\" )", after := .one },
    { before := .one, expression := "\"a,)\"" }]

/-- Both arguments have values. -/
theorem resolve_labelArguments :
    Argument.Resolve readyLabel labelArguments [.boolean true, .text "a,)"] :=
  .cons resolve_readyLabel
    (.cons (resolve_of_literal? readyLabel (by decide) (by decide +kernel)) .nil)

/-- The same command with parentheses and without. -/
theorem parse_called_spoken_label :
    Text.isIdentifier "report".toList ∧
      Argument.Resolve readyLabel labelArguments [.boolean true, .text "a,)"] ∧
      parse "report (!( ready ) != ( label != \"a,)\" ) , \"a,)\")" readyLabel =
        .ok { name := "report", arguments := [.boolean true, .text "a,)"] } ∧
      parse "report !( ready ) != ( label != \"a,)\" ) , \"a,)\"" readyLabel =
        .ok { name := "report", arguments := [.boolean true, .text "a,)"] } := by
  have h_name : Text.isIdentifier "report".toList := by decide
  obtain ⟨h_called, h_spoken⟩ := parse_called_spoken h_name resolve_labelArguments .one
  exact ⟨h_name, resolve_labelArguments, h_called, h_spoken (by decide)⟩

end Action

end LineScript
