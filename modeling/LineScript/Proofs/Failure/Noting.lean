import LineScript.Proofs.Expression.Grouping
import LineScript.Proofs.Expression.Rows

/-!
# What a search notes

While a text is searched, operands are tried that have no value, and if one of them is an undefined
variable its name goes into a slot, unless a name is there already. This module says what a layer of
resolution puts there. The order in which operands are tried is left open as far as possible. What
counts is which operands are tried at all: the left side of every cut up to the one that is taken,
the right side where the left one has a value, and what follows a sign if no cut is taken.

* `Offers`: a computation answers, and offers a name for the slot. The slot takes the first name
  that it is offered;
* `noted`: the name that an operand offers, `cutNote` the one that the sides of a cut offer;
* `layer_induction`: induction over the layers of a resolution, with one case for each way in which
  a layer goes on. The last one is the search, for a text that is `Searched`;
* `search_cases`: **what a search comes to.** Either a cut is taken, and then only cuts were tried,
  or all cuts were tried and then the sign;
* `exists_note_of_firstMissing`, `isSome_firstMissing_of_cut`, `isSome_firstMissing_of_sign`: what a
  layer leaves in the slot was offered by one of its operands, and if the text has no value, an
  operand that offers a name leaves some name in the slot.
-/

namespace LineScript.Resolve

open Scan (Cut group?)

variable {scope : Scope} {text : List Char} {α β : Type}

/-! ### Names for the slot -/

/-- The computation answers `a` whatever is in the slot, and offers the slot a name. -/
def Offers (x : StateM (Option String) α) (a : α) (name : Option String) : Prop :=
  ∀ slot, x.run slot = (a, slot.or name)

namespace Offers

/-- An answer without an operand offers nothing. -/
theorem pure (a : α) : Offers (Pure.pure a) a none := by
  intro slot
  rw [Option.or_none]
  rfl

/-- What follows a computation starts from the slot that it leaves. -/
theorem run_bind {x : StateM (Option String) α} {a : α} {name : Option String}
    (h : Offers x a name) (f : α → StateM (Option String) β) (slot : Option String) :
    (x >>= f).run slot = (f a).run (slot.or name) := by
  change (f (x.run slot).1).run (x.run slot).2 = _
  rw [h slot]

/-- Of two names the slot takes the one that is offered first. -/
theorem bind {x : StateM (Option String) α} {f : α → StateM (Option String) β} {a : α} {b : β}
    {name name' : Option String} (hx : Offers x a name) (hf : Offers (f a) b name') :
    Offers (x >>= f) b (name.or name') := by
  intro slot
  rw [hx.run_bind, hf, Option.or_assoc]

/-- What the resolver of a text answers and offers are its outcome and the first name that is met in
it. -/
theorem outcome_eq {a : Except Error Value} {name : Option String}
    (h : Offers (resolved .plain scope text) a name) :
    outcome scope text = a ∧ firstMissing scope text = name := by
  rw [outcome, firstMissing, h none, Option.none_or]
  exact ⟨rfl, rfl⟩

end Offers

/-- The name that a text offers as an operand: the first one that is met in it, or the text
itself. -/
def noted (scope : Scope) (text : List Char) : Option String :=
  (firstMissing scope text).or (undefinedName? (outcome scope text))

/-- Blanks around a text do not matter to the names that are met in it. -/
theorem firstMissing_trim (scope : Scope) (text : List Char) :
    firstMissing scope (Text.trim text) = firstMissing scope text := by
  rw [firstMissing, firstMissing, resolved_eq_attempt, resolved_eq_attempt, Text.trim_trim]

/-- Nor to the name that it offers. -/
theorem noted_trim (scope : Scope) (text : List Char) :
    noted scope (Text.trim text) = noted scope text := by
  rw [noted, noted, firstMissing_trim, outcome_trim]

/-- Trying an operand answers with its value and offers its name. -/
theorem offers_operand (scope : Scope) (candidate : String) :
    Offers (operandWith .plain (resolved .plain scope) candidate)
      (valueOf scope candidate.toList) (noted scope candidate.toList) := by
  intro slot
  rw [run_operandWith_plain, outcome_trim, firstMissing_trim, valueOf, noted, Option.or_assoc]

/-! ### Cuts -/

/-- The name that the sides of a cut offer. The right side is only tried if the left one has a
value. -/
def cutNote (scope : Scope) (cut : Cut) : Option String :=
  (noted scope cut.before.toList).or
    ((valueOf scope cut.before.toList).bind fun _ => noted scope cut.after.toList)

/-- What the values of the sides of a cut come to under a choice. -/
def sidesChoice (scope : Scope) (choose : Cut → Value → Value → Option α) (cut : Cut) : Option α :=
  (valueOf scope cut.before.toList).bind fun left =>
    (valueOf scope cut.after.toList).bind fun right => choose cut left right

/-- What is known of a calculation that is chosen. -/
theorem of_chooseAmong_eq_some {members : List Calculation} {cut : Cut} {left right : Value}
    {c : Calculation} {split : Split} (h : chooseAmong members cut left right = some (c, split)) :
    c ∈ members ∧ c.operator = cut.operator ∧ c.accepts left right ∧
      split = ⟨cut.position, left, right⟩ := by
  obtain ⟨c', h_find, h_eq⟩ := Option.map_eq_some_iff.mp h
  obtain ⟨rfl, rfl⟩ := Prod.mk.inj h_eq
  have h_c := List.find?_some h_find
  rw [Bool.and_eq_true, decide_eq_true_eq] at h_c
  exact ⟨List.mem_of_find?_eq_some h_find, h_c.1, h_c.2, rfl⟩

/-- A calculation comes to a value on operands that it accepts. -/
theorem exists_apply_of_accepts {c : Calculation} {left right : Value}
    (h : c.accepts left right) : ∃ v, c.apply left right = .ok v := by
  rw [← isSome_apply] at h
  obtain ⟨v, h_v⟩ := Option.isSome_iff_exists.mp h
  exact ⟨v, eq_ok_of_toOption h_v⟩

/-- Trying one cut. -/
theorem offers_firstSides_cons (scope : Scope) (choose : Cut → Value → Value → Option α)
    (cut : Cut) {rest : List Cut} {taken : Option α} {name : Option String}
    (h_rest : Offers (firstSides (operandWith .plain (resolved .plain scope)) choose rest) taken
      name) :
    Offers (firstSides (operandWith .plain (resolved .plain scope)) choose (cut :: rest))
      ((sidesChoice scope choose cut).or taken)
      ((cutNote scope cut).or (if (sidesChoice scope choose cut).isNone then name else none)) := by
  have h_before := offers_operand scope cut.before
  have h_after := offers_operand scope cut.after
  rw [firstSides, sidesChoice, cutNote]
  -- the right side is tried only if the left one has a value, which is what `cutNote` says
  cases h_left : valueOf scope cut.before.toList with
  | none =>
    rw [h_left] at h_before
    rw [Option.bind_none, Option.bind_none, Option.or_none]
    exact h_before.bind h_rest
  | some left =>
    rw [h_left] at h_before
    rw [Option.bind_some, Option.bind_some, Option.or_assoc]
    refine h_before.bind ?_
    cases h_right : valueOf scope cut.after.toList with
    | none =>
      rw [h_right] at h_after
      exact h_after.bind h_rest
    | some right =>
      rw [h_right] at h_after
      refine h_after.bind ?_
      cases h_choice : choose cut left right with
      | none => simpa [h_choice] using h_rest
      | some found => simpa [h_choice] using Offers.pure (some found)

/-- Going through cuts, those up to the one that is taken are tried. -/
theorem exists_offers_firstSides (scope : Scope) (choose : Cut → Value → Value → Option α)
    (cs : List Cut) :
    ∃ tried, tried <+: cs ∧ (cs.findSome? (sidesChoice scope choose) = none → tried = cs) ∧
      Offers (firstSides (operandWith .plain (resolved .plain scope)) choose cs)
        (cs.findSome? (sidesChoice scope choose)) (tried.findSome? (cutNote scope)) := by
  induction cs with
  | nil => exact ⟨[], List.prefix_rfl, fun _ => rfl, .pure none⟩
  | cons cut rest ih =>
    obtain ⟨tried, h_start, h_all, h_rest⟩ := ih
    have h_offers := offers_firstSides_cons scope choose cut h_rest
    cases h_choice : sidesChoice scope choose cut with
    | none =>
      rw [h_choice] at h_offers
      refine ⟨cut :: tried, List.cons_prefix_cons.mpr ⟨rfl, h_start⟩, ?_, ?_⟩
      · intro h_none
        rw [List.findSome?_cons, h_choice] at h_none
        rw [h_all h_none]
      · have h_tried : (cut :: tried).findSome? (cutNote scope) =
            (cutNote scope cut).or (tried.findSome? (cutNote scope)) := by
          rw [← List.singleton_append, List.findSome?_append, List.findSome?_singleton]
        rw [List.findSome?_cons, h_choice, h_tried]
        simpa using h_offers
    -- the cut is taken, and what comes after it is not tried
    | some found =>
      rw [h_choice] at h_offers
      refine ⟨[cut], List.cons_prefix_cons.mpr ⟨rfl, List.nil_prefix⟩, ?_, ?_⟩
      · intro h_none
        rw [List.findSome?_cons, h_choice] at h_none
        exact absurd h_none (by simp)
      · rw [List.findSome?_cons, h_choice, List.findSome?_singleton]
        simpa using h_offers

/-! ### Levels -/

/-- All cuts of a text, level by level. -/
def levelCuts (text : List Char) (levels : List Precedence) : List Cut :=
  levels.flatMap fun level => cutsAmong level.members text

/-- The calculation that is found at the first level that has one. -/
def found? (scope : Scope) (text : List Char) (levels : List Precedence) :
    Option (Calculation × Split) :=
  levels.findSome? fun level =>
    (cutsAmong level.members text).findSome? (cutChoice scope level.members)

/-- Going through levels, the cuts up to the one that is taken are tried. -/
theorem exists_offers_locateLevel (scope : Scope) (text : List Char) (levels : List Precedence) :
    ∃ tried, tried <+: levelCuts text levels ∧
      (found? scope text levels = none → tried = levelCuts text levels) ∧
      Offers (locateLevel (operandWith .plain (resolved .plain scope)) text levels)
        (found? scope text levels) (tried.findSome? (cutNote scope)) := by
  induction levels with
  | nil => exact ⟨[], List.prefix_rfl, fun _ => rfl, .pure none⟩
  | cons level rest ih =>
    obtain ⟨tried, h_start, h_all, h_rest⟩ := ih
    obtain ⟨tried', h_start', h_all', h_level⟩ :=
      exists_offers_firstSides scope (chooseAmong level.members) (cutsAmong level.members text)
    have h_cuts : levelCuts text (level :: rest) =
        cutsAmong level.members text ++ levelCuts text rest := List.flatMap_cons
    have h_choice : sidesChoice scope (chooseAmong level.members) =
        cutChoice scope level.members := rfl
    rw [h_choice] at h_level h_all'
    rw [locateLevel, h_cuts, found?, List.findSome?_cons]
    cases h_found : (cutsAmong level.members text).findSome? (cutChoice scope level.members) with
    | none =>
      rw [h_found] at h_level
      -- no cut of this level is taken, so all of them were tried before the next level
      refine ⟨tried' ++ tried, ?_, ?_, ?_⟩
      · rw [h_all' h_found]
        exact (List.prefix_append_right_inj _).mpr h_start
      · intro h_none
        rw [h_all' h_found, h_all h_none]
      · rw [List.findSome?_append]
        exact Offers.bind h_level h_rest
    | some found =>
      rw [h_found] at h_level
      refine ⟨tried', h_start'.trans (List.prefix_append _ _), fun h_none => ?_, ?_⟩
      · exact absurd h_none (by simp)
      · rw [← Option.or_none (o := tried'.findSome? (cutNote scope))]
        exact Offers.bind h_level (.pure (some found))

/-! ### Signs -/

/-- The sign that a text starts with, and what follows it. -/
def signOf? : List Char → Option (Unary × List Char)
  | [] => none
  | c :: rest => (Unary.ofChar? c).map (·, rest)

/-- The sign and what follows it make up the text. -/
theorem eq_cons_of_signOf? {u : Unary} {rest : List Char} (h : signOf? text = some (u, rest)) :
    text = u.symbol :: rest := by
  cases text with
  | nil => exact absurd h (by simp [signOf?])
  | cons c t =>
    obtain ⟨w, h_w, h_eq⟩ := Option.map_eq_some_iff.mp h
    rw [Prod.mk.injEq] at h_eq
    rw [Unary.symbol_of_ofChar? h_w, h_eq.1, h_eq.2]

/-- What is left to try if no cut is taken: the sign. -/
def signedOutcome (scope : Scope) (text : List Char) : Except Error Value :=
  match (signOf? text).bind fun sign => (valueOf scope sign.2).map (sign.1, ·) with
  | some (u, v) => u.apply v
  | none => .error (.unresolvable (String.ofList text))

/-- The name that is offered by what follows the sign. -/
def signNote (scope : Scope) (text : List Char) : Option String :=
  (signOf? text).bind fun sign => noted scope sign.2

/-- Looking at a sign tries what follows it, and without a sign nothing is tried. -/
theorem offers_signed (scope : Scope) (text : List Char) :
    Offers (signed (operandWith .plain (resolved .plain scope)) text) (signedOutcome scope text)
      (signNote scope text) := by
  unfold signed
  split
  · next rest =>
    have h_rest := offers_operand scope (String.ofList rest)
    rw [String.toList_ofList] at h_rest
    have h_sign : signOf? ('-' :: rest) = some (.minus, rest) := rfl
    rw [signedOutcome, signNote, h_sign, Option.bind_some, Option.bind_some]
    rw [← Option.or_none (o := noted scope rest)]
    refine h_rest.bind ?_
    cases valueOf scope rest <;> exact .pure _
  · next rest =>
    have h_rest := offers_operand scope (String.ofList rest)
    rw [String.toList_ofList] at h_rest
    have h_sign : signOf? ('!' :: rest) = some (.not, rest) := rfl
    rw [signedOutcome, signNote, h_sign, Option.bind_some, Option.bind_some]
    rw [← Option.or_none (o := noted scope rest)]
    refine h_rest.bind ?_
    cases valueOf scope rest <;> exact .pure _
  · next h_minus h_not =>
    -- the two cases before are those in which the text starts with a sign
    have h_sign : signOf? text = none := by
      cases text with
      | nil => rfl
      | cons c rest =>
        rw [signOf?, Option.map_eq_none_iff, Unary.ofChar?]
        · exact fun h_c => h_minus rest (by rw [h_c])
        · exact fun h_c => h_not rest (by rw [h_c])
    rw [signedOutcome, signNote, h_sign]
    exact .pure _

/-! ### A layer -/

/-- In general a text answers with its outcome, and offers what is met in it. -/
theorem offers_resolved (scope : Scope) (text : List Char) :
    Offers (resolved .plain scope text) (outcome scope text) (firstMissing scope text) :=
  run_resolved_plain scope text

section Direct

variable (h_trim : Text.trim text = text)

include h_trim

/-- A literal answers with its value and offers nothing. -/
theorem offers_literal {v : Value} (h : literal? text = some v) :
    Offers (resolved .plain scope text) (.ok v) none := by
  intro slot
  rw [resolved_eq_attempt, h_trim, attempt, h, Option.or_none]
  rfl

/-- A literal notes nothing. -/
theorem noted_of_literal? {v : Value} (h : literal? text = some v) : noted scope text = none := by
  obtain ⟨h_outcome, h_missing⟩ := (offers_literal h_trim h).outcome_eq
  rw [noted, h_missing, h_outcome]
  rfl

/-- A name is looked up, and no operand is tried for it. -/
theorem offers_name (h_literal : literal? text = none) (h : Text.isIdentifier text) :
    Offers (resolved .plain scope text) (variableValue scope (String.ofList text)) none := by
  intro slot
  rw [resolved_eq_attempt, h_trim, attempt, h_literal, Option.or_none]
  simp only [h, if_true]
  rfl

/-- A name is noted if it has no value. -/
theorem noted_of_name (h_literal : literal? text = none) (h : Text.isIdentifier text) :
    noted scope text = undefinedName? (variableValue scope (String.ofList text)) := by
  obtain ⟨h_outcome, h_missing⟩ := (offers_name h_trim h_literal h).outcome_eq
  rw [noted, h_missing, h_outcome, Option.none_or]

/-- A group answers and offers what its inside does. -/
theorem offers_group {inside : List Char} (h_literal : literal? text = none)
    (h_name : Text.isIdentifier text = false) (h : group? text = some inside) :
    Offers (resolved .plain scope text) (outcome scope inside) (firstMissing scope inside) := by
  intro slot
  rw [resolved_eq_attempt, h_trim, attempt, h_literal]
  simp only [h_name, h]
  exact offers_resolved scope inside slot

/-- A group notes what its inside notes. -/
theorem noted_of_group? {inside : List Char} (h_literal : literal? text = none)
    (h_name : Text.isIdentifier text = false) (h : group? text = some inside) :
    noted scope text = noted scope inside := by
  obtain ⟨h_outcome, h_missing⟩ := (offers_group h_trim h_literal h_name h).outcome_eq
  rw [noted, h_missing, h_outcome, noted]

end Direct

/-- A trimmed text that is no literal, name or group, and so is searched. -/
structure Searched (text : List Char) : Prop where
  /-- There are no blanks at its ends. -/
  trim_eq : Text.trim text = text
  /-- It is no literal. -/
  literal?_eq : literal? text = none
  /-- It is no name. -/
  isIdentifier_eq : Text.isIdentifier text = false
  /-- It is no group. -/
  group?_eq : group? text = none

/-- **Induction over the layers of a resolution.** A layer trims its text, and then takes it for a
literal, a name or a group, or searches it. In a group the inside comes next, and in a search any
shorter text may. -/
@[elab_as_elim]
theorem layer_induction {motive : List Char → Prop}
    (blanks : ∀ s, motive (Text.trim s) → motive s)
    (literal : ∀ s v, Text.trim s = s → literal? s = some v → motive s)
    (name : ∀ s, Text.trim s = s → literal? s = none → Text.isIdentifier s → motive s)
    (group : ∀ s inside, Text.trim s = s → literal? s = none → Text.isIdentifier s = false →
      group? s = some inside → motive inside → motive s)
    (search : ∀ s, Searched s → (∀ t, t.length < s.length → motive t) → motive s)
    (text : List Char) : motive text := by
  induction h_length : text.length using Nat.strong_induction_on generalizing text with
  | _ n ih =>
    have h_le := Text.length_trim_le text
    have h_trim := Text.trim_trim text
    refine blanks text ?_
    generalize Text.trim text = s at h_le h_trim ⊢
    -- trimming does not lengthen a text, so the hypothesis holds for what is shorter than the
    -- trimmed one
    have h_shorter : ∀ t, t.length < s.length → motive t :=
      fun t h_t => ih t.length (by omega) t rfl
    cases h_literal : literal? s with
    | some v => exact literal s v h_trim h_literal
    | none =>
      by_cases h_name : Text.isIdentifier s
      · exact name s h_trim h_literal h_name
      · rw [Bool.not_eq_true] at h_name
        cases h_group : group? s with
        | some inside =>
          exact group s inside h_trim h_literal h_name h_group
            (h_shorter inside (length_lt_of_group? h_group))
        | none => exact search s ⟨h_trim, h_literal, h_name, h_group⟩ h_shorter

section Searched

variable (h_search : Searched text)

include h_search

/-- **What a search comes to.** If a cut is taken the text has a value, and only cuts were tried.
Otherwise all cuts were tried, and after them the sign. -/
theorem search_cases (scope : Scope) :
    (∃ tried v, tried <+: levelCuts text Precedence.all ∧
        Offers (resolved .plain scope text) (.ok v) (tried.findSome? (cutNote scope))) ∨
      Offers (resolved .plain scope text) (signedOutcome scope text)
        (((levelCuts text Precedence.all).findSome? (cutNote scope)).or (signNote scope text)) := by
  obtain ⟨tried, h_start, h_all, h_levels⟩ :=
    exists_offers_locateLevel scope text Precedence.all
  rw [resolved_eq_attempt, h_search.trim_eq, attempt, h_search.literal?_eq]
  simp only [h_search.isIdentifier_eq, h_search.group?_eq]
  cases h_found : found? scope text Precedence.all with
  | none =>
    rw [h_found] at h_levels
    -- no cut is taken, so all of them were tried, and the sign is tried next
    rw [← h_all h_found]
    exact .inr ((Offers.pure ()).bind (h_levels.bind (offers_signed scope text)))
  | some found =>
    rw [h_found] at h_levels
    -- the calculation was chosen because it accepts the two values
    obtain ⟨level, -, h_level⟩ := List.exists_of_findSome?_eq_some h_found
    obtain ⟨v, h_v⟩ := Option.isSome_iff_exists.mp (isSome_foundValue_of_cuts h_level)
    have h_apply : found.1.apply found.2.left found.2.right = .ok v := eq_ok_of_toOption h_v
    refine .inl ⟨tried, v, h_start, ?_⟩
    rw [← h_apply, ← Option.or_none (o := tried.findSome? (cutNote scope))]
    exact (Offers.pure ()).bind (h_levels.bind ((Offers.pure ()).bind (.pure _)))

/-- What a search leaves in the slot was offered by one of the operands that it tried. -/
theorem exists_note_of_firstMissing {name : String} (h : firstMissing scope text = some name) :
    (∃ level : Precedence, ∃ cut ∈ cutsAmong level.members text, cutNote scope cut = some name) ∨
      signNote scope text = some name := by
  have h_cut : ∀ cut ∈ levelCuts text Precedence.all, cutNote scope cut = some name →
      ∃ level : Precedence, ∃ cut ∈ cutsAmong level.members text,
        cutNote scope cut = some name := by
    intro cut h_cut h_note
    obtain ⟨level, -, h_mem⟩ := List.mem_flatMap.mp h_cut
    exact ⟨level, cut, h_mem, h_note⟩
  rcases search_cases h_search scope with
    ⟨tried, v, h_start, h_offers⟩ | h_offers
  · rw [h_offers.outcome_eq.2] at h
    obtain ⟨cut, h_tried, h_note⟩ := List.exists_of_findSome?_eq_some h
    exact .inl (h_cut cut (h_start.subset h_tried) h_note)
  · rw [h_offers.outcome_eq.2, Option.or_eq_some_iff] at h
    rcases h with h_tried | ⟨-, h_sign⟩
    · obtain ⟨cut, h_mem, h_note⟩ := List.exists_of_findSome?_eq_some h_tried
      exact .inl (h_cut cut h_mem h_note)
    · exact .inr h_sign

/-- How a text fails that is searched: nothing fits, or its sign does not take the value of what
follows it. -/
theorem error_cases_of_search {error : Error} (h : outcome scope text = .error error) :
    error = .unresolvable (String.ofList text) ∨
      ∃ u rest v, text = Unary.symbol u :: rest ∧ valueOf scope rest = some v ∧
        u.apply v = .error error := by
  rcases search_cases h_search scope with
    ⟨tried, v, -, h_offers⟩ | h_offers
  · rw [h_offers.outcome_eq.1] at h
    exact absurd h (by simp)
  · rw [h_offers.outcome_eq.1, signedOutcome] at h
    split at h
    · -- all cuts were tried in vain, and there is a sign whose operand has a value
      next u v h_sign =>
      obtain ⟨⟨w, rest⟩, h_w, h_v⟩ := Option.bind_eq_some_iff.mp h_sign
      obtain ⟨v', h_rest, h_eq⟩ := Option.map_eq_some_iff.mp h_v
      obtain ⟨rfl, rfl⟩ := Prod.mk.inj h_eq
      exact .inr ⟨w, rest, v', eq_cons_of_signOf? h_w, h_rest, h⟩
    · exact .inl (Except.error.inj h).symm

section Valueless

variable (h_value : valueOf scope text = none)

include h_value

/-- Without a value all cuts were tried, and the sign. -/
theorem firstMissing_of_valueOf_eq_none :
    firstMissing scope text =
      ((levelCuts text Precedence.all).findSome? (cutNote scope)).or (signNote scope text) := by
  rcases search_cases h_search scope with
    ⟨tried, v, -, h_offers⟩ | h_offers
  · rw [valueOf, h_offers.outcome_eq.1] at h_value
    exact absurd h_value (by simp [Except.toOption])
  · exact h_offers.outcome_eq.2

/-- **A name that a cut offers is not lost**, if the text has no value: some name is in the slot. -/
theorem isSome_firstMissing_of_cut {level : Precedence} {cut : Cut}
    (h_cut : cut ∈ cutsAmong level.members text) (h : (cutNote scope cut).isSome) :
    (firstMissing scope text).isSome := by
  have h_mem : cut ∈ levelCuts text Precedence.all :=
    List.mem_flatMap.mpr ⟨level, by cases level <;> decide, h_cut⟩
  rw [firstMissing_of_valueOf_eq_none h_search h_value, Option.isSome_or,
    List.findSome?_isSome_iff.mpr ⟨cut, h_mem, h⟩, Bool.true_or]

/-- Nor is a name lost that is offered behind a sign. -/
theorem isSome_firstMissing_of_sign (h : (signNote scope text).isSome) :
    (firstMissing scope text).isSome := by
  rw [firstMissing_of_valueOf_eq_none h_search h_value, Option.isSome_or, h,
    Bool.or_true]

end Valueless

end Searched

/-! ### The answer -/

/-- The answer of a resolution, from its outcome and the first name that was met. -/
theorem resolve_eq (scope : Scope) (expression : String) :
    scope.resolve expression =
      match outcome scope expression.toList, firstMissing scope expression.toList with
      | .error (.unresolvable _), some name => .error (.undefinedVariable name)
      | outcome, _ => outcome := by
  have h_run : (resolved .plain scope expression.toList).run Notebook.plain.start =
      (outcome scope expression.toList, firstMissing scope expression.toList) :=
    run_resolved_plain scope expression.toList none
  rw [Scope.resolve, resolveWith_memo_eq, resolveWith_eq, h_run]
  -- the two sides are the same match, and it is not to be carried out
  generalize outcome scope expression.toList = found, firstMissing scope expression.toList = slot
  rfl

end LineScript.Resolve
