import LineScript.Proofs.Resolve.Remembering

/-!
# Resolution as a search for values

What a resolver notes never shows in its answer, so an answer can be read off a recursion that keeps
no notes at all. `valueOf scope text` is the value that a text has, if it has one, and this module
says how it comes from the values of shorter texts.

* `valueAmong`: what a search for a cut at the operators of some calculations comes to;
* `signedValue`: what a leading `-` or `!` comes to;
* `valueOf_eq_search`: a text that is no literal, name or group has the value that the first level
  with one finds, or else the one that its sign gives;
* `resolve_eq_ok_iff`: `Scope.resolve` succeeds exactly with `valueOf`.
-/

namespace LineScript.Resolve

open Scan (Cut group?)

variable {scope : Scope} {text : List Char}

/-- The value of a text, if it has one. -/
def valueOf (scope : Scope) (text : List Char) : Option Value :=
  (outcome scope text).toOption

/-- The calculation at a cut, if both sides have values and one of the calculations takes them. -/
def cutChoice (scope : Scope) (members : List Calculation) (cut : Cut) :
    Option (Calculation × Split) :=
  (valueOf scope cut.before.toList).bind fun left =>
    (valueOf scope cut.after.toList).bind fun right => chooseAmong members cut left right

/-- What a calculation that was found comes to. -/
def foundValue (found : Calculation × Split) : Option Value :=
  (found.1.apply found.2.left found.2.right).toOption

/-- What a cut comes to. -/
def cutValue (scope : Scope) (members : List Calculation) (cut : Cut) : Option Value :=
  (cutChoice scope members cut).bind foundValue

/-- What the search for a cut at the operators of some calculations comes to. -/
def valueAmong (scope : Scope) (members : List Calculation) (text : List Char) : Option Value :=
  (cutsAmong members text).findSome? (cutValue scope members)

/-- What a leading `-` or `!` comes to. -/
def signedValue (scope : Scope) : List Char → Option Value
  | '-' :: rest =>
    (valueOf scope rest).bind fun v => (v.asNumber.map fun x => .number (-x)).toOption
  | '!' :: rest =>
    (valueOf scope rest).bind fun v => (v.asBoolean.map fun b => .boolean (!b)).toOption
  | _ => none

/-! ### A layer without notes -/

/-- Blanks around a text do not matter to its outcome. -/
theorem outcome_trim (scope : Scope) (text : List Char) :
    outcome scope (Text.trim text) = outcome scope text := by
  rw [outcome, outcome, resolved_eq_attempt, resolved_eq_attempt, Text.trim_trim]

/-- Nor to its value. -/
theorem valueOf_trim (scope : Scope) (text : List Char) :
    valueOf scope (Text.trim text) = valueOf scope text := by
  rw [valueOf, valueOf, outcome_trim]

/-- A text is resolved by a layer that keeps no notes, given the values of its operands. -/
theorem outcome_eq_attempt (scope : Scope) (text : List Char) :
    outcome scope text =
      ((attempt scope (fun _ => pure ()) (fun candidate => pure (valueOf scope candidate.toList))
        (fun inside => pure (outcome scope inside)) (Text.trim text) :
          StateM Unit (Except Error Value)).run ()).1 := by
  rw [outcome, resolved_eq_attempt]
  -- the notes of the plain resolver are related to no notes whatever they are
  refine (Simulates.attempt (R := fun _ _ => True) ?_ ?_ ?_ none () trivial).1
  · intro candidate _ slot _ _
    rw [run_operandWith_plain, outcome_trim]
    exact ⟨rfl, trivial⟩
  · intro _ _ _ _
    exact ⟨rfl, trivial⟩
  · intro inside _ slot _ _
    rw [run_resolved_plain]
    exact ⟨rfl, trivial⟩

/-- Going through cuts with values at hand. -/
theorem firstSides_eq_findSome? {α : Type} (f : String → Option Value)
    (choose : Cut → Value → Value → Option α) (cs : List Cut) :
    (firstSides (fun candidate => pure (f candidate)) choose cs : StateM Unit (Option α)) =
      pure (cs.findSome? fun cut => (f cut.before).bind fun left =>
        (f cut.after).bind fun right => choose cut left right) := by
  -- nothing is noted on the way, so each step is a case on values alone
  induction cs with
  | nil => rfl
  | cons cut rest ih =>
    rw [firstSides, List.findSome?_cons, pure_bind]
    cases f cut.before with
    | none => exact ih
    | some left =>
      dsimp only
      rw [pure_bind]
      cases f cut.after with
      | none => exact ih
      | some right =>
        dsimp only [Option.bind_some]
        cases choose cut left right with
        | none => exact ih
        | some found => rfl

/-- Going through the levels, with values at hand. -/
theorem locateLevel_eq_findSome? (scope : Scope) (text : List Char) (levels : List Precedence) :
    (locateLevel (fun candidate => pure (valueOf scope candidate.toList)) text levels :
        StateM Unit _) =
      pure (levels.findSome? fun level =>
        (cutsAmong level.members text).findSome? (cutChoice scope level.members)) := by
  induction levels with
  | nil => rfl
  | cons level rest ih =>
    have h_level : (locateAmong (fun candidate => pure (valueOf scope candidate.toList))
        level.members text : StateM Unit _) =
          pure ((cutsAmong level.members text).findSome? (cutChoice scope level.members)) :=
      firstSides_eq_findSome? (fun c => valueOf scope c.toList) _ _
    rw [locateLevel, h_level, List.findSome?_cons, pure_bind]
    cases (cutsAmong level.members text).findSome? (cutChoice scope level.members) with
    | none => exact ih
    | some found => rfl

/-- Looking at a sign, with values at hand. -/
theorem toOption_signed (scope : Scope) (text : List Char) :
    ((signed (fun candidate => pure (valueOf scope candidate.toList)) text :
        StateM Unit (Except Error Value)).run ()).1.toOption = signedValue scope text := by
  unfold signed
  split
  · simp only [String.toList_ofList, signedValue]
    cases valueOf scope _ <;> rfl
  · simp only [String.toList_ofList, signedValue]
    cases valueOf scope _ <;> rfl
  · next h_minus h_not =>
    rw [signedValue]
    · rfl
    · exact h_minus
    · exact h_not

/-! ### The value of a text -/

/-- **A calculation succeeds exactly on the operands that it accepts.** -/
theorem isSome_apply (c : Calculation) (left right : Value) :
    (c.apply left right).toOption.isSome = c.accepts left right := by
  cases c <;> cases left <;> cases right <;> rfl

/-- Values found in order, and then used, if each that is found can be used. -/
theorem findSome?_bind {α β γ : Type} {f : α → Option β} {g : β → Option γ} (l : List α)
    (h : ∀ a b, f a = some b → (g b).isSome) :
    (l.findSome? f).bind g = l.findSome? fun a => (f a).bind g := by
  induction l with
  | nil => rfl
  | cons a l ih =>
    rw [List.findSome?_cons, List.findSome?_cons]
    cases h_a : f a with
    | none => exact ih
    | some b =>
      -- the first value that is found can be used, so the search does not have to go on
      obtain ⟨c, h_c⟩ := Option.isSome_iff_exists.mp (h a b h_a)
      simp only [Option.bind_some, h_c]

/-- A calculation that is found at a cut can be carried out. -/
theorem isSome_foundValue {members : List Calculation} {cut : Cut} {found : Calculation × Split}
    (h : cutChoice scope members cut = some found) : (foundValue found).isSome := by
  obtain ⟨left, -, h⟩ := Option.bind_eq_some_iff.mp h
  obtain ⟨right, -, h⟩ := Option.bind_eq_some_iff.mp h
  obtain ⟨c, h_c, rfl⟩ := Option.map_eq_some_iff.mp h
  -- it was chosen because it accepts the two values
  have h_accepts := List.find?_some h_c
  rw [Bool.and_eq_true] at h_accepts
  exact (isSome_apply c left right).trans h_accepts.2

/-- And so can the one that a search finds. -/
theorem isSome_foundValue_of_cuts {members : List Calculation} {cs : List Cut}
    {found : Calculation × Split} (h : cs.findSome? (cutChoice scope members) = some found) :
    (foundValue found).isSome := by
  obtain ⟨_, cut, _, -, h, -⟩ := List.findSome?_eq_some_iff.mp h
  exact isSome_foundValue h

/-- The search through levels, once what it finds is carried out. -/
theorem findSome?_levels_bind (scope : Scope) (text : List Char) (levels : List Precedence) :
    (levels.findSome? fun level =>
        (cutsAmong level.members text).findSome? (cutChoice scope level.members)).bind foundValue =
      levels.findSome? fun level => valueAmong scope level.members text := by
  rw [findSome?_bind _ fun level found => isSome_foundValue_of_cuts]
  congr 1
  funext level
  exact findSome?_bind _ fun cut found => isSome_foundValue

variable (h_trim : Text.trim text = text)

include h_trim

/-- A literal has its own value. -/
theorem valueOf_of_literal? {v : Value} (h : literal? text = some v) :
    valueOf scope text = some v := by
  rw [valueOf, outcome_eq_attempt, h_trim, attempt, h]
  rfl

/-- A name has the value that is bound to it. -/
theorem valueOf_of_isIdentifier (h_literal : literal? text = none) (h : Text.isIdentifier text) :
    valueOf scope text = scope.lookup (String.ofList text) := by
  rw [valueOf, outcome_eq_attempt, h_trim, attempt, h_literal]
  simp only [h, if_true]
  cases h_lookup : scope.lookup (String.ofList text) <;> simp only [variableValue, h_lookup] <;> rfl

/-- A group has the value of its inside. -/
theorem valueOf_of_group? {inside : List Char} (h_literal : literal? text = none)
    (h_name : Text.isIdentifier text = false) (h : group? text = some inside) :
    valueOf scope text = valueOf scope inside := by
  rw [valueOf, outcome_eq_attempt, h_trim, attempt, h_literal]
  simp only [h_name, h]
  rfl

/-- **A text that is no literal, name or group is searched.** The levels are tried from the weakest
on, and a leading sign is looked at last. -/
theorem valueOf_eq_search (h_literal : literal? text = none)
    (h_name : Text.isIdentifier text = false) (h_group : group? text = none) :
    valueOf scope text =
      (Precedence.all.findSome? fun level => valueAmong scope level.members text).or
        (signedValue scope text) := by
  rw [valueOf, outcome_eq_attempt, h_trim, attempt, h_literal]
  simp only [h_name, h_group, locateLevel_eq_findSome?]
  rw [← findSome?_levels_bind]
  cases h_found : Precedence.all.findSome? fun level =>
      (cutsAmong level.members text).findSome? (cutChoice scope level.members) with
  | none =>
    -- only a sign is left
    exact toOption_signed scope text
  | some found =>
    -- what was found at a cut can be carried out, so the sign is not looked at
    obtain ⟨_, level, _, -, h_level, -⟩ := List.findSome?_eq_some_iff.mp h_found
    obtain ⟨v, h_v⟩ := Option.isSome_iff_exists.mp (isSome_foundValue_of_cuts h_level)
    rw [Option.bind_some, h_v, Option.some_or, ← h_v]
    rfl

omit h_trim in
/-- **Resolving an expression succeeds exactly with the value of its text.** -/
theorem resolve_eq_ok_iff (scope : Scope) (expression : String) (v : Value) :
    scope.resolve expression = .ok v ↔ valueOf scope expression.toList = some v := by
  have h_run : (resolved .plain scope expression.toList).run Notebook.plain.start =
      (outcome scope expression.toList, firstMissing scope expression.toList) :=
    run_resolved_plain scope expression.toList none
  have h_missing : ∀ slot : Option String, Notebook.plain.missing slot = slot := fun _ => rfl
  rw [Scope.resolve, resolveWith_memo_eq, resolveWith_eq, h_run, valueOf, h_missing]
  -- naming an undefined variable replaces one failure by another
  generalize firstMissing scope expression.toList = slot
  cases outcome scope expression.toList with
  | ok w => simp [Except.toOption]
  | error e => cases e <;> cases slot <;> simp [Except.toOption]

omit h_trim in
/-- A literal stands for itself in every scope. -/
theorem resolve_of_literal? (scope : Scope) {expression : String} {v : Value}
    (h_trim : Text.trim expression.toList = expression.toList)
    (h : literal? expression.toList = some v) : scope.resolve expression = .ok v :=
  (resolve_eq_ok_iff scope expression v).mpr (valueOf_of_literal? h_trim h)

end LineScript.Resolve
