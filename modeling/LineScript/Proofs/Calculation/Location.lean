import LineScript.Proofs.Expression.Search
import LineScript.Proofs.Failure.Noting
import LineScript.Proofs.Scan.Order

/-!
# Where a calculation is found

A calculation can be asked where it splits a text, whether it does, and what it comes to there, and
a level of precedence can be asked for the split of any of its calculations. All of these run
searches of their own. This module ties their answers to resolution.

* `Calculation.Splits`: what a split of a text is, said through `Scope.resolve`;
* `locateWith_eq_some_iff`: a search at the operators of some calculations finds the rightmost split
  of any of them;
* `Calculation.locate_evaluate_agree`: **one calculation is located at its rightmost split, and
  evaluated there**;
* `Precedence.locate_best_member`: **a level is located where the rightmost of its calculations
  is**, and an expression that is searched has the value of the calculation that the first level
  finds.

Both rest on two facts about operators. At one place of a text at most one operator is met
(`Calculation.operator_eq_of_meets`), and of the calculations that share an operator at most one
accepts two values (`Calculation.eq_of_accepts`). So a position and two values leave no choice.
-/

namespace LineScript

open Resolve Scan

variable {scope : Scope} {members : List Calculation} {text : List Char} {c c' : Calculation}

/-! ### One operator at a position -/

/-- **At one place at most one operator is met.** If two were, one would start the other, and then
it would clash with what follows. -/
theorem Calculation.operator_eq_of_meets {previous : Option Char} {coming : List Char}
    (h : meets previous coming c.operator) (h' : meets previous coming c'.operator) :
    c.operator = c'.operator := by
  obtain ⟨-, -, d, r, h_coming, h_clash⟩ := exists_of_meets h
  obtain ⟨-, -, d', r', h_coming', h_clash'⟩ := exists_of_meets h'
  have h_eq := h_coming.symm.trans h_coming'
  -- operators have one or two characters; of equal length they are the same
  rcases c.operator_cases with ⟨a, hc, -⟩ | ⟨a, b, hc, -⟩ <;>
    rcases c'.operator_cases with ⟨a', hc', -⟩ | ⟨a', b', hc', -⟩
  · rw [hc, hc'] at h_eq ⊢
    rw [(List.cons.inj h_eq).1]
  · -- the first one is followed by the second character of the other, and the other way round next
    rw [hc, hc'] at h_eq
    obtain ⟨rfl, h_rest⟩ := List.cons.inj h_eq
    have h_d : d = b' := (List.cons.inj h_rest).1
    exact absurd (Calculation.clashes_of_operator_eq hc hc' previous) (h_d ▸ h_clash)
  · rw [hc, hc'] at h_eq
    obtain ⟨rfl, h_rest⟩ := List.cons.inj h_eq
    have h_d : b = d' := (List.cons.inj h_rest).1
    exact absurd (Calculation.clashes_of_operator_eq hc' hc previous) (h_d ▸ h_clash')
  · rw [hc, hc'] at h_eq ⊢
    obtain ⟨h_a, h_rest⟩ := List.cons.inj h_eq
    rw [h_a, (List.cons.inj h_rest).1]

/-- The cuts for one calculation are those at its operator. -/
theorem cutsAmong_singleton (c : Calculation) (text : List Char) :
    cutsAmong [c] text = cuts [c.operator] text := rfl

/-- A cut for several calculations is one for some of them. -/
theorem mem_cutsAmong_iff {cut : Cut} :
    cut ∈ cutsAmong members text ↔ ∃ c ∈ members, cut ∈ cuts [c.operator] text := by
  simp only [cutsAmong, mem_cuts_iff, List.mem_eraseDups, List.mem_map, List.mem_singleton]
  constructor
  · rintro ⟨⟨c, h_c, h_operator⟩, h_divides⟩
    exact ⟨c, h_c, h_operator.symm, h_divides⟩
  · rintro ⟨c, h_c, h_operator, h_divides⟩
    exact ⟨⟨c, h_c, h_operator.symm⟩, h_divides⟩

/-- A search at one operator only cuts at that. -/
theorem operator_of_mem_cuts {cut : Cut} (h : cut ∈ cuts [c.operator] text) :
    cut.operator = c.operator :=
  List.mem_singleton.mp (mem_cuts_iff.mp h).1

/-- **At one position there is at most one cut** at operators of calculations. -/
theorem eq_of_position_eq {cut cut' : Cut} (h : cut ∈ cuts [c.operator] text)
    (h' : cut' ∈ cuts [c'.operator] text) (h_position : cut.position = cut'.position) :
    cut = cut' := by
  have h_own := operator_of_mem_cuts h
  have h_own' := operator_of_mem_cuts h'
  obtain ⟨-, l, coming, rfl, h_divides⟩ := mem_cuts_iff.mp h
  obtain ⟨-, l', coming', h_text, h_divides'⟩ := mem_cuts_iff.mp h'
  -- what stands before the two cuts is equally long, so it is the same
  obtain rfl : l = l' := by
    refine eq_of_byteSize_eq h_text ?_
    rw [← h_divides.position_eq, h_position, h_divides'.position_eq]
  obtain rfl := List.append_cancel_left h_text
  have h_operator : cut.operator = cut'.operator := by
    have h_meets := h_divides.isMet
    have h_meets' := h_divides'.isMet
    rw [h_own] at h_meets ⊢
    rw [h_own'] at h_meets' ⊢
    exact Calculation.operator_eq_of_meets h_meets h_meets'
  have h_text : cut.text = cut'.text := h_divides.text_eq.trans h_divides'.text_eq.symm
  obtain ⟨text, position, operator⟩ := cut
  obtain ⟨text', position', operator'⟩ := cut'
  rw [Cut.mk.injEq]
  exact ⟨h_text, h_position, h_operator⟩

/-- Going through the cuts at the operators of some calculations, the rightmost one that passes is
found. -/
theorem findSome?_cutsAmong_eq_some_iff {α : Type} {f : Cut → Option α} {found : α} :
    (cutsAmong members text).findSome? f = some found ↔
      ∃ cut ∈ cutsAmong members text, f cut = some found ∧
        ∀ other ∈ cutsAmong members text, (f other).isSome → other.position ≤ cut.position := by
  refine findSome?_eq_some_iff_rightmost (pairwise_cuts _ _) ?_
  intro a ha b hb h_position
  obtain ⟨_, -, ha⟩ := mem_cutsAmong_iff.mp ha
  obtain ⟨_, -, hb⟩ := mem_cutsAmong_iff.mp hb
  exact eq_of_position_eq ha hb h_position

/-- Of the calculations that share an operator at most one accepts two values: `+` adds numbers, and
joins if one of them is a text. -/
theorem Calculation.eq_of_accepts {left right : Value} (h_operator : c.operator = c'.operator)
    (h : c.accepts left right) (h' : c'.accepts left right) : c = c' := by
  cases c <;> cases c' <;> first | rfl | cases h_operator
  -- what is left are the two calculations of `+`
  all_goals cases left <;> cases right <;> simp_all [accepts, Value.kind]

/-! ### Splits -/

/-- The calculation splits the text: the text, without blanks around it, is cut at the operator of
the calculation, both sides resolve, and the calculation accepts their values. -/
def Calculation.Splits (c : Calculation) (scope : Scope) (candidate : String) (split : Split) :
    Prop :=
  ∃ cut ∈ cuts [c.operator] (Text.trim candidate.toList), cut.position = split.position ∧
    scope.resolve cut.before = .ok split.left ∧ scope.resolve cut.after = .ok split.right ∧
    c.accepts split.left split.right

/-- Both sides of some cut at the operator of the calculation resolve, to whatever values. -/
def Calculation.SidesResolve (c : Calculation) (scope : Scope) (candidate : String) : Prop :=
  ∃ cut ∈ cuts [c.operator] (Text.trim candidate.toList), ∃ left right,
    scope.resolve cut.before = .ok left ∧ scope.resolve cut.after = .ok right

variable {candidate : String} {split split' : Split}

/-- **A position leaves no choice**: splits at one position are the same, and by the same
calculation. -/
theorem Calculation.Splits.unique (h : c.Splits scope candidate split)
    (h' : c'.Splits scope candidate split') (h_position : split.position = split'.position) :
    c = c' ∧ split = split' := by
  obtain ⟨cut, h_cut, h_at, h_left, h_right, h_accepts⟩ := h
  obtain ⟨cut', h_cut', h_at', h_left', h_right', h_accepts'⟩ := h'
  -- one position, so one cut; then the two sides have the same values
  obtain rfl : cut = cut' := eq_of_position_eq h_cut h_cut' (by rw [h_at, h_position, h_at'])
  obtain ⟨position, left, right⟩ := split
  obtain ⟨position', left', right'⟩ := split'
  obtain rfl : left = left' := Except.ok.inj (h_left.symm.trans h_left')
  obtain rfl : right = right' := Except.ok.inj (h_right.symm.trans h_right')
  obtain rfl : position = position' := h_position
  have h_operator : c.operator = c'.operator :=
    (operator_of_mem_cuts h_cut).symm.trans (operator_of_mem_cuts h_cut')
  exact ⟨Calculation.eq_of_accepts h_operator h_accepts h_accepts', rfl⟩

/-- The calculation that is chosen for two values is the one that accepts them. -/
theorem chooseAmong_eq_some_iff {cut : Cut} {left right : Value} :
    chooseAmong members cut left right = some (c, split) ↔
      c ∈ members ∧ c.operator = cut.operator ∧ c.accepts left right ∧
        split = ⟨cut.position, left, right⟩ := by
  refine ⟨of_chooseAmong_eq_some, ?_⟩
  rintro ⟨h_mem, h_operator, h_accepts, rfl⟩
  -- some calculation is chosen, and no other one accepts the values
  have h_some : (chooseAmong members cut left right).isSome := by
    rw [chooseAmong, Option.isSome_map]
    exact List.find?_isSome.mpr ⟨c, h_mem, by rw [h_accepts, decide_eq_true h_operator]; rfl⟩
  obtain ⟨⟨d, split⟩, h_choice⟩ := Option.isSome_iff_exists.mp h_some
  obtain ⟨-, h_operator', h_accepts', rfl⟩ := of_chooseAmong_eq_some h_choice
  rw [h_choice, Calculation.eq_of_accepts (h_operator'.trans h_operator.symm) h_accepts' h_accepts]

/-- **What is chosen at a cut is a split there**, by one of the calculations. -/
theorem cutChoice_eq_some_iff {cut : Cut}
    (h : cut ∈ cutsAmong members (Text.trim candidate.toList)) :
    cutChoice scope members cut = some (c, split) ↔
      c ∈ members ∧ cut.position = split.position ∧ c.Splits scope candidate split := by
  obtain ⟨_, -, h_cut⟩ := mem_cutsAmong_iff.mp h
  constructor
  · intro h_choice
    obtain ⟨left, h_left, h_choice⟩ := Option.bind_eq_some_iff.mp h_choice
    obtain ⟨right, h_right, h_choice⟩ := Option.bind_eq_some_iff.mp h_choice
    obtain ⟨h_mem, h_operator, h_accepts, rfl⟩ := chooseAmong_eq_some_iff.mp h_choice
    have h_cut : cut ∈ cuts [c.operator] (Text.trim candidate.toList) :=
      mem_cuts_iff.mpr ⟨List.mem_singleton.mpr h_operator.symm, (mem_cuts_iff.mp h_cut).2⟩
    exact ⟨h_mem, rfl, cut, h_cut, rfl, (resolve_eq_ok_iff _ _ _).mpr h_left,
      (resolve_eq_ok_iff _ _ _).mpr h_right, h_accepts⟩
  · rintro ⟨h_mem, h_position, cut', h_cut', h_at, h_left, h_right, h_accepts⟩
    obtain rfl : cut = cut' := eq_of_position_eq h_cut h_cut' (h_position.trans h_at.symm)
    rw [resolve_eq_ok_iff] at h_left h_right
    rw [cutChoice, h_left, Option.bind_some, h_right, Option.bind_some, chooseAmong_eq_some_iff]
    refine ⟨h_mem, (operator_of_mem_cuts h_cut').symm, h_accepts, ?_⟩
    rw [h_at]

/-! ### Searches -/

/-- A search through the cuts of a text for two sides that pass, without its notes. -/
theorem exists_offers_cutsAmong {α : Type} (scope : Scope)
    (choose : Cut → Value → Value → Option α) (members : List Calculation) (text : List Char) :
    ∃ name, Offers (firstSides (operandFor .plain scope text) choose (cutsAmong members text))
      ((cutsAmong members text).findSome? (sidesChoice scope choose)) name := by
  -- the sides of a cut are shorter than the text, so their budget is as good as none
  have h_operand : firstSides (operandFor .plain scope text) choose (cutsAmong members text) =
      firstSides (operandWith .plain (resolved .plain scope)) choose (cutsAmong members text) := by
    refine simulates_eq_iff.mp (Simulates.firstSides_cutsAmong ?_ members)
    intro operand h_shorter
    rw [operandFor_eq h_shorter]
    exact simulates_eq_iff.mpr rfl
  obtain ⟨tried, -, -, h_offers⟩ :=
    exists_offers_firstSides scope choose (cutsAmong members text)
  rw [h_operand]
  exact ⟨_, h_offers⟩

/-- The same for locating, where a calculation is chosen at each cut. -/
theorem exists_offers_locateAmong (scope : Scope) (members : List Calculation)
    (text : List Char) :
    ∃ name, Offers (locateAmong (operandFor .plain scope text) members text)
      ((cutsAmong members text).findSome? (cutChoice scope members)) name :=
  exists_offers_cutsAmong scope (chooseAmong members) members text

/-- Locating finds the first cut from the right at which one of the calculations is chosen. -/
theorem locateWith_eq (scope : Scope) (members : List Calculation) (text : List Char) :
    locateWith .memo scope members text =
      (cutsAmong members (Text.trim text)).findSome? (cutChoice scope members) := by
  obtain ⟨name, h_offers⟩ := exists_offers_locateAmong scope members (Text.trim text)
  rw [locateWith_memo_eq]
  exact congrArg Prod.fst (h_offers none)

/-- An evaluation searches for a split, and if there is none for two sides that resolve. -/
theorem evaluateWith_eq (scope : Scope) (c : Calculation) (text : List Char) :
    evaluateWith .memo scope c text =
      match locateWith .memo scope [c] text with
      | some (_, split) => c.apply split.left split.right
      | none =>
        match (cutsAmong [c] (Text.trim text)).findSome?
            (sidesChoice scope fun _ left right => some (left, right)) with
        | some (left, right) => c.apply left right
        | none => .error (.unresolvable (String.ofList (Text.trim text))) := by
  obtain ⟨name, h_located⟩ := exists_offers_locateAmong scope [c] (Text.trim text)
  obtain ⟨name', h_sides⟩ := exists_offers_cutsAmong scope
    (fun _ left right => some (left, right)) [c] (Text.trim text)
  rw [← locateWith_eq] at h_located
  rw [evaluateWith_memo_eq, evaluateWith, h_located.run_bind]
  cases locateWith .memo scope [c] text with
  | some found => rfl
  | none =>
    dsimp only
    rw [h_sides.run_bind]
    cases (cutsAmong [c] (Text.trim text)).findSome?
        (sidesChoice scope fun _ left right => some (left, right)) with
    | some sides => rfl
    | none => rfl

/-- Two sides without a choice to pass are those that resolve. -/
theorem sidesChoice_eq_some_iff {cut : Cut} {left right : Value} :
    sidesChoice scope (fun _ left right => some (left, right)) cut = some (left, right) ↔
      scope.resolve cut.before = .ok left ∧ scope.resolve cut.after = .ok right := by
  rw [resolve_eq_ok_iff, resolve_eq_ok_iff]
  constructor
  · intro h
    obtain ⟨x, h_x, h⟩ := Option.bind_eq_some_iff.mp h
    obtain ⟨y, h_y, h⟩ := Option.bind_eq_some_iff.mp h
    obtain ⟨rfl, rfl⟩ := Prod.mk.inj (Option.some.inj h)
    exact ⟨h_x, h_y⟩
  · rintro ⟨h_left, h_right⟩
    rw [sidesChoice, h_left, Option.bind_some, h_right, Option.bind_some]

/-- Every split of one of the calculations is chosen at its cut. -/
theorem Calculation.Splits.exists_cutChoice (h : c.Splits scope candidate split)
    (h_mem : c ∈ members) :
    ∃ cut ∈ cutsAmong members (Text.trim candidate.toList), cut.position = split.position ∧
      cutChoice scope members cut = some (c, split) := by
  obtain ⟨cut, h_cut, h_at, -⟩ := id h
  have h_among := mem_cutsAmong_iff.mpr ⟨c, h_mem, h_cut⟩
  exact ⟨cut, h_among, h_at, (cutChoice_eq_some_iff h_among).mpr ⟨h_mem, h_at, h⟩⟩

/-- **A search finds the rightmost split** of any of its calculations. -/
theorem locateWith_eq_some_iff :
    locateWith .memo scope members candidate.toList = some (c, split) ↔
      c ∈ members ∧ c.Splits scope candidate split ∧
        ∀ c' ∈ members, ∀ split', c'.Splits scope candidate split' →
          split'.position ≤ split.position := by
  rw [locateWith_eq, findSome?_cutsAmong_eq_some_iff]
  constructor
  · -- any other split has a cut of its own, which is not further to the right
    rintro ⟨cut, h_cut, h_choice, h_last⟩
    obtain ⟨h_mem, h_at, h_splits⟩ := (cutChoice_eq_some_iff h_cut).mp h_choice
    refine ⟨h_mem, h_splits, fun c' h_mem' split' h_splits' => ?_⟩
    obtain ⟨cut', h_cut', h_at', h_choice'⟩ := h_splits'.exists_cutChoice h_mem'
    rw [← h_at, ← h_at']
    exact h_last cut' h_cut' (by rw [h_choice']; rfl)
  · rintro ⟨h_mem, h_splits, h_last⟩
    obtain ⟨cut, h_cut, h_at, h_choice⟩ := h_splits.exists_cutChoice h_mem
    refine ⟨cut, h_cut, h_choice, fun cut' h_cut' h_some => ?_⟩
    obtain ⟨⟨c', split'⟩, h_choice'⟩ := Option.isSome_iff_exists.mp h_some
    obtain ⟨h_mem', h_at', h_splits'⟩ := (cutChoice_eq_some_iff h_cut').mp h_choice'
    rw [h_at, h_at']
    exact h_last c' h_mem' split' h_splits'

/-- A search finds nothing if and only if there is no split. -/
theorem locateWith_eq_none_iff :
    locateWith .memo scope members candidate.toList = none ↔
      ∀ c ∈ members, ∀ split, ¬ c.Splits scope candidate split := by
  rw [locateWith_eq, List.findSome?_eq_none_iff]
  constructor
  · intro h c h_mem split h_splits
    obtain ⟨cut, h_cut, -, h_choice⟩ := h_splits.exists_cutChoice h_mem
    exact absurd ((h cut h_cut).symm.trans h_choice) (by simp)
  · intro h cut h_cut
    rw [Option.eq_none_iff_forall_not_mem]
    rintro ⟨c, split⟩ h_choice
    obtain ⟨h_mem, -, h_splits⟩ := (cutChoice_eq_some_iff h_cut).mp h_choice
    exact h c h_mem split h_splits

/-! ### One calculation -/

namespace Calculation

/-- **A calculation is located at its rightmost split.** -/
theorem locate_eq_some_iff :
    c.locate scope candidate = some split ↔
      c.Splits scope candidate split ∧
        ∀ split', c.Splits scope candidate split' → split'.position ≤ split.position := by
  rw [locate, Option.map_eq_some_iff]
  constructor
  · rintro ⟨⟨c', split'⟩, h_located, rfl⟩
    obtain ⟨h_mem, h_splits, h_last⟩ := locateWith_eq_some_iff.mp h_located
    obtain rfl := List.mem_singleton.mp h_mem
    exact ⟨h_splits, h_last c' h_mem⟩
  · rintro ⟨h_splits, h_last⟩
    refine ⟨(c, split), locateWith_eq_some_iff.mpr ⟨List.mem_singleton_self c, h_splits, ?_⟩, rfl⟩
    exact List.forall_mem_singleton.mpr h_last

/-- It is not located if and only if it has no split. -/
theorem locate_eq_none_iff :
    c.locate scope candidate = none ↔ ∀ split, ¬ c.Splits scope candidate split := by
  rw [locate, Option.map_eq_none_iff, locateWith_eq_none_iff, List.forall_mem_singleton]

/-- It is evaluated where it is located. -/
theorem evaluate_of_locate (h : c.locate scope candidate = some split) :
    c.evaluate scope candidate = c.apply split.left split.right := by
  obtain ⟨⟨c', split'⟩, h_located, rfl⟩ := Option.map_eq_some_iff.mp h
  rw [evaluate, evaluateWith_eq, h_located]

/-- At a split it comes to a value, since it accepts the two sides. -/
theorem Splits.exists_apply (h : c.Splits scope candidate split) :
    ∃ v, c.apply split.left split.right = .ok v := by
  obtain ⟨-, -, -, -, -, h_accepts⟩ := h
  exact exists_apply_of_accepts h_accepts

/-- The second search of an evaluation finds two sides exactly if there are some that resolve. -/
theorem sidesResolve_iff :
    c.SidesResolve scope candidate ↔
      ((cutsAmong [c] (Text.trim candidate.toList)).findSome?
        (sidesChoice scope fun _ left right => some (left, right))).isSome := by
  rw [List.findSome?_isSome_iff, SidesResolve, cutsAmong_singleton]
  refine exists_congr fun cut => and_congr_right fun _ => ?_
  rw [Option.isSome_iff_exists, Prod.exists]
  simp only [sidesChoice_eq_some_iff]

/-- **Without a split, two sides that resolve do not fit.** -/
theorem exists_mismatch_of_sidesResolve (h : c.locate scope candidate = none)
    (h_sides : c.SidesResolve scope candidate) :
    ∃ expected found, c.evaluate scope candidate = .error (.typeMismatch expected found) := by
  obtain ⟨⟨left, right⟩, h_found⟩ := Option.isSome_iff_exists.mp (sidesResolve_iff.mp h_sides)
  have h_evaluate : c.evaluate scope candidate = c.apply left right := by
    rw [evaluate, evaluateWith_eq, Option.map_eq_none_iff.mp h, h_found]
  rcases c.fitsOrMismatches_apply left right with ⟨v, h_v⟩ | h_mismatch
  · -- sides that fit would be a split
    obtain ⟨cut, h_cut, h_choice⟩ := List.exists_of_findSome?_eq_some h_found
    obtain ⟨h_left, h_right⟩ := sidesChoice_eq_some_iff.mp h_choice
    have h_accepts : c.accepts left right := by
      rw [← isSome_apply, h_v]
      rfl
    rw [cutsAmong_singleton] at h_cut
    exact absurd ⟨cut, h_cut, rfl, h_left, h_right, h_accepts⟩
      (locate_eq_none_iff.mp h ⟨cut.position, left, right⟩)
  · rwa [h_evaluate]

/-- Without two sides that resolve there is nothing to evaluate. -/
theorem evaluate_of_not_sidesResolve (h : c.locate scope candidate = none)
    (h_sides : ¬ c.SidesResolve scope candidate) :
    c.evaluate scope candidate =
      .error (.unresolvable (String.ofList (Text.trim candidate.toList))) := by
  rw [sidesResolve_iff, Option.not_isSome_iff_eq_none] at h_sides
  rw [evaluate, evaluateWith_eq, Option.map_eq_none_iff.mp h, h_sides]

/-- How an evaluation fails. -/
theorem evaluate_cases_of_locate_eq_none (h : c.locate scope candidate = none) :
    c.SidesResolve scope candidate ∧
        (∃ expected found, c.evaluate scope candidate = .error (.typeMismatch expected found)) ∨
      ¬ c.SidesResolve scope candidate ∧
        c.evaluate scope candidate =
          .error (.unresolvable (String.ofList (Text.trim candidate.toList))) := by
  by_cases h_sides : c.SidesResolve scope candidate
  · exact .inl ⟨h_sides, exists_mismatch_of_sidesResolve h h_sides⟩
  · exact .inr ⟨h_sides, evaluate_of_not_sidesResolve h h_sides⟩

/-- A calculation evaluates if and only if it is detected. -/
theorem exists_evaluate_iff :
    (∃ v, c.evaluate scope candidate = .ok v) ↔ c.detect scope candidate := by
  rw [detect]
  cases h : c.locate scope candidate with
  | some split =>
    rw [evaluate_of_locate h]
    exact iff_of_true (locate_eq_some_iff.mp h).1.exists_apply rfl
  | none =>
    refine iff_of_false ?_ Bool.false_ne_true
    rintro ⟨v, h_v⟩
    rcases evaluate_cases_of_locate_eq_none h with ⟨-, expected, found, h_error⟩ | ⟨-, h_error⟩
    · exact absurd (h_v.symm.trans h_error) (by simp)
    · exact absurd (h_v.symm.trans h_error) (by simp)

end Calculation

/-- **Detection, location and evaluation agree with resolution.** A calculation is located at the
rightmost split of the text, it evaluates exactly if it is detected, and then to its result on the
two sides of that split. If it is not detected, two sides that resolve do not fit, and without any
the text does not resolve. -/
theorem Calculation.locate_evaluate_agree (c : Calculation) (scope : Scope) (candidate : String) :
    (∀ split, c.locate scope candidate = some split ↔
        c.Splits scope candidate split ∧
          ∀ split', c.Splits scope candidate split' → split'.position ≤ split.position) ∧
      ((∃ v, c.evaluate scope candidate = .ok v) ↔ c.detect scope candidate) ∧
      (∀ split, c.locate scope candidate = some split →
        c.evaluate scope candidate = c.apply split.left split.right) ∧
      (c.detect scope candidate = false →
        ((∃ expected found, c.evaluate scope candidate = .error (.typeMismatch expected found)) ↔
            c.SidesResolve scope candidate) ∧
          (¬ c.SidesResolve scope candidate →
            c.evaluate scope candidate =
              .error (.unresolvable (String.ofList (Text.trim candidate.toList))))) := by
  refine ⟨fun _ => locate_eq_some_iff, exists_evaluate_iff, fun _ => evaluate_of_locate, ?_⟩
  intro h_detect
  have h_none : c.locate scope candidate = none :=
    Option.isNone_iff_eq_none.mp (Option.isSome_eq_false_iff.mp h_detect)
  -- the two ways to fail exclude each other, so each one tells whether the sides resolve
  rcases evaluate_cases_of_locate_eq_none h_none with ⟨h_sides, h_mismatch⟩ | ⟨h_sides, h_error⟩
  · exact ⟨iff_of_true h_mismatch h_sides, fun h_not => absurd h_sides h_not⟩
  · refine ⟨iff_of_false ?_ h_sides, fun _ => h_error⟩
    rintro ⟨expected, found, h_mismatch⟩
    exact absurd (h_mismatch.symm.trans h_error) (by simp)

/-- Two calculations share the operator of this text. Joining is found at the last one, and adding
finds two sides that resolve and do not fit. -/
theorem Calculation.locate_evaluate_join :
    concatenation.locate {} "\"a\"+\"b\"+\"c\"" = some ⟨7, .text "ab", .text "c"⟩ ∧
      concatenation.evaluate {} "\"a\"+\"b\"+\"c\"" =
        concatenation.apply (.text "ab") (.text "c") ∧
      addition.detect {} "\"a\"+\"b\"+\"c\"" = false ∧
      addition.evaluate {} "\"a\"+\"b\"+\"c\"" = .error (.typeMismatch .number .text) ∧
      addition.SidesResolve {} "\"a\"+\"b\"+\"c\"" := by
  have h_located : concatenation.locate {} "\"a\"+\"b\"+\"c\"" =
      some ⟨7, .text "ab", .text "c"⟩ := by
    rw [locate, locateWith_memo_eq]
    decide +kernel
  have h_detect : addition.detect {} "\"a\"+\"b\"+\"c\"" = false := by
    rw [detect, locate, locateWith_memo_eq]
    decide +kernel
  have h_mismatch : addition.evaluate {} "\"a\"+\"b\"+\"c\"" =
      .error (.typeMismatch .number .text) := by
    rw [evaluate, evaluateWith_memo_eq]
    decide +kernel
  obtain ⟨-, -, h_evaluate, -⟩ :=
    locate_evaluate_agree concatenation {} "\"a\"+\"b\"+\"c\""
  obtain ⟨-, -, -, h_refused⟩ := locate_evaluate_agree addition {} "\"a\"+\"b\"+\"c\""
  exact ⟨h_located, h_evaluate _ h_located, h_detect, h_mismatch,
    (h_refused h_detect).1.mp ⟨_, _, h_mismatch⟩⟩

/-! ### Levels -/

namespace Precedence

variable {level : Precedence}

/-- A level finds nothing if and only if none of its calculations is located. -/
theorem locate_eq_none_iff :
    level.locate scope candidate = none ↔
      ∀ c ∈ level.members, c.locate scope candidate = none := by
  rw [locate, locateWith_eq_none_iff]
  exact forall₂_congr fun c _ => Calculation.locate_eq_none_iff.symm

/-- What a level finds is what its calculation finds. -/
theorem locate_member (h : level.locate scope candidate = some (c, split)) :
    c ∈ level.members ∧ c.locate scope candidate = some split := by
  obtain ⟨h_mem, h_splits, h_last⟩ := locateWith_eq_some_iff.mp h
  exact ⟨h_mem, Calculation.locate_eq_some_iff.mpr ⟨h_splits, h_last c h_mem⟩⟩

/-- All splits of the other calculations of a level stand further to the left. -/
theorem position_lt_of_ne (h : level.locate scope candidate = some (c, split))
    (h_mem : c' ∈ level.members) (h_ne : c' ≠ c) (h_splits : c'.Splits scope candidate split') :
    split'.position < split.position := by
  obtain ⟨-, h_splits_c, h_last⟩ := locateWith_eq_some_iff.mp h
  refine lt_of_le_of_ne (h_last c' h_mem split' h_splits) fun h_position => ?_
  -- at the same position it would be the same calculation
  exact h_ne (h_splits.unique h_splits_c h_position).1

/-- A text that is searched has the value of the calculation that the first level finds. -/
theorem resolve_of_levels (h_search : Searched (Text.trim candidate.toList))
    (h : Precedence.all.findSome? (fun level => level.locate scope candidate) = some (c, split)) :
    scope.resolve candidate = c.evaluate scope candidate := by
  obtain ⟨level, -, h_level⟩ := List.exists_of_findSome?_eq_some h
  obtain ⟨-, h_located⟩ := locate_member h_level
  obtain ⟨v, h_v⟩ := (Calculation.locate_eq_some_iff.mp h_located).1.exists_apply
  rw [Calculation.evaluate_of_locate h_located, h_v, resolve_eq_ok_iff, ← valueOf_trim,
    valueOf_eq_search h_search.trim_eq h_search.literal?_eq h_search.isIdentifier_eq
      h_search.group?_eq, ← findSome?_levels_bind]
  -- what the levels locate is what the search of the resolver finds
  have h_found : (Precedence.all.findSome? fun level =>
      (cutsAmong level.members (Text.trim candidate.toList)).findSome?
        (cutChoice scope level.members)) = some (c, split) := by
    rw [← h]
    congr 1
    funext level
    exact (locateWith_eq scope level.members candidate.toList).symm
  rw [h_found, Option.bind_some, foundValue, h_v]
  rfl

end Precedence

/-- **The search at a level is the best of the searches of its members.** It finds nothing exactly
if they find nothing. Otherwise it finds what one of them finds, and what the others find stands
strictly further to the left. In consequence a text that is searched is evaluated as the calculation
that the first level finds. -/
theorem Precedence.locate_best_member (scope : Scope) (candidate : String) :
    (∀ level : Precedence,
        (level.locate scope candidate = none ↔
          ∀ c ∈ level.members, c.locate scope candidate = none) ∧
        ∀ c split, level.locate scope candidate = some (c, split) →
          c ∈ level.members ∧ c.locate scope candidate = some split ∧
            ∀ c' ∈ level.members, c' ≠ c →
              (∀ split', c'.locate scope candidate = some split' →
                split'.position < split.position) ∧
              ∀ split', c'.Splits scope candidate split' → split'.position ≠ split.position) ∧
      ∀ c split, Searched (Text.trim candidate.toList) →
        Precedence.all.findSome? (fun level => level.locate scope candidate) = some (c, split) →
          scope.resolve candidate = c.evaluate scope candidate := by
  refine ⟨fun level => ⟨locate_eq_none_iff, fun c split h => ?_⟩, fun _ _ => resolve_of_levels⟩
  obtain ⟨h_mem, h_located⟩ := locate_member h
  refine ⟨h_mem, h_located, fun c' h_mem' h_ne => ⟨fun split' h' => ?_, fun split' h' => ?_⟩⟩
  · exact position_lt_of_ne h h_mem' h_ne (Calculation.locate_eq_some_iff.mp h').1
  · exact (position_lt_of_ne h h_mem' h_ne h').ne

/-- The last of two comparisons is the one that the level finds, and the value of the text is its
value. -/
theorem Precedence.locate_last_comparison :
    comparison.locate {} "true==false!=true" =
        some (.notEqual, ⟨11, .boolean false, .boolean true⟩) ∧
      Calculation.notEqual.locate {} "true==false!=true" =
        some ⟨11, .boolean false, .boolean true⟩ ∧
      Calculation.equal.locate {} "true==false!=true" =
        some ⟨4, .boolean true, .boolean true⟩ ∧
      4 < 11 ∧
      Scope.resolve {} "true==false!=true" =
        Calculation.notEqual.evaluate {} "true==false!=true" := by
  have h_level : comparison.locate {} "true==false!=true" =
      some (.notEqual, ⟨11, .boolean false, .boolean true⟩) := by
    rw [locate, locateWith_memo_eq]
    decide +kernel
  have h_equal : Calculation.equal.locate {} "true==false!=true" =
      some ⟨4, .boolean true, .boolean true⟩ := by
    rw [Calculation.locate, locateWith_memo_eq]
    decide +kernel
  have h_first : Precedence.all.findSome? (fun level => level.locate {} "true==false!=true") =
      some (.notEqual, ⟨11, .boolean false, .boolean true⟩) := by
    simp only [locate, locateWith_memo_eq]
    decide +kernel
  have h_search : Searched (Text.trim "true==false!=true".toList) := by
    refine ⟨?_, ?_, ?_, ?_⟩ <;> decide +kernel
  obtain ⟨h_best, h_resolve⟩ := locate_best_member {} "true==false!=true"
  obtain ⟨-, h_located, h_others⟩ := (h_best comparison).2 _ _ h_level
  obtain ⟨h_before, -⟩ := h_others .equal (by decide) (by decide)
  exact ⟨h_level, h_located, h_equal, h_before _ h_equal, h_resolve _ _ h_search h_first⟩

end LineScript
