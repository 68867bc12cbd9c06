import LineScript.Scan.Nesting
import Mathlib.Combinatorics.Enumerative.DyckWord

/-!
# Delimiters outside of quotes

`Nesting` passes over a closing parenthesis with none open, so what it ends with does not tell
whether the parentheses of a text match: `())` and `()` both leave nothing open. Whether they match
is said here without the walk, on the characters that stand outside of quotes. Read as steps up and
down, their parentheses form a Dyck word: there are as many of one kind as of the other, and at no
place more were closed than opened.

* `outside`: the characters outside of quotes;
* `WellDelimited`: quotes are closed, parentheses match, and no comma separates anything. It is
  closed under what expressions are put together with: adjoining texts, quotes and parentheses.
-/

namespace LineScript.Scan

/-- The characters that stand outside of quotes, without the quotes themselves. -/
def outside (quoted : Bool) : List Char → List Char
  | [] => []
  | c :: rest =>
    if c = '"' then outside (!quoted) rest
    else if quoted then outside quoted rest
    else c :: outside quoted rest

/-- A parenthesis as a step up or down. -/
def dyckStep? : Char → Option DyckStep
  | '(' => some .U
  | ')' => some .D
  | _ => none

/-- The parentheses of a text that stand outside of quotes. -/
def parentheses (s : List Char) : List DyckStep :=
  (outside false s).filterMap dyckStep?

/-- Everything that is opened is closed and nothing else is, and no comma stands outside of
quotes. -/
structure WellDelimited (s : List Char) : Prop where
  /-- Every quote that opens is closed. -/
  quotes : Even (s.count '"')
  /-- The parentheses match, and at no place more of them were closed than opened. -/
  balanced : ∃ w : DyckWord, w.toList = parentheses s
  /-- No comma stands outside of quotes. -/
  comma : ',' ∉ outside false s

/-! ### Outside of quotes -/

/-- After an even number of quotes, what was open before is open again. -/
theorem outside_append {s : List Char} (h : Even (s.count '"')) (quoted : Bool) (t : List Char) :
    outside quoted (s ++ t) = outside quoted s ++ outside quoted t := by
  -- after an odd number it is the other way round, and the induction goes through both
  have h_all : ∀ (s : List Char) (quoted : Bool),
      outside quoted (s ++ t) =
        outside quoted s ++ outside (quoted ^^ decide (Odd (s.count '"'))) t := by
    intro s
    induction s with
    | nil => intro quoted; simp [outside]
    | cons c s ih =>
      intro quoted
      rw [List.cons_append, outside, outside]
      by_cases hc : c = '"'
      · rw [if_pos hc, if_pos hc, ih, hc, List.count_cons_self]
        congr 2
        by_cases h_odd : Odd (s.count '"') <;> simp [h_odd, Nat.odd_add_one]
      · rw [if_neg hc, if_neg hc, List.count_cons_of_ne hc]
        cases quoted with
        | true => exact ih true
        | false =>
          rw [if_neg Bool.false_ne_true, if_neg Bool.false_ne_true, ih, List.cons_append]
  rw [h_all, decide_eq_false (Nat.not_odd_iff_even.mpr h), Bool.xor_false]

/-- Without quotes everything stands outside of them. -/
theorem outside_of_not_mem {s : List Char} (h : '"' ∉ s) : outside false s = s := by
  induction s with
  | nil => rfl
  | cons c s ih =>
    rw [List.mem_cons, not_or] at h
    rw [outside, if_neg (Ne.symm h.1), if_neg Bool.false_ne_true, ih h.2]

/-- Of a text in quotes nothing does. -/
theorem outside_quoted {s : List Char} (h : '"' ∉ s) :
    outside false ('"' :: (s ++ ['"'])) = [] := by
  -- the walk through the inside starts in quotes and comes to the closing one in quotes
  have h_inside : outside true (s ++ ['"']) = [] := by
    induction s with
    | nil => rfl
    | cons c s ih =>
      rw [List.mem_cons, not_or] at h
      rw [List.cons_append, outside, if_neg (Ne.symm h.1), if_pos rfl, ih h.2]
  rw [outside, if_pos rfl]
  exact h_inside

/-- Behind a text whose quotes are closed, the parentheses follow those of the text. -/
theorem parentheses_append {s : List Char} (h : Even (s.count '"')) (t : List Char) :
    parentheses (s ++ t) = parentheses s ++ parentheses t := by
  rw [parentheses, outside_append h, List.filterMap_append]
  rfl

/-! ### Texts put together -/

namespace WellDelimited

variable {s t : List Char}

/-- Texts one after the other. The quotes of the first are closed, so what is outside of quotes in
the second stays outside. -/
theorem append (hs : WellDelimited s) (ht : WellDelimited t) : WellDelimited (s ++ t) where
  quotes := by
    rw [List.count_append]
    exact hs.quotes.add ht.quotes
  balanced := by
    obtain ⟨w, hw⟩ := hs.balanced
    obtain ⟨w', hw'⟩ := ht.balanced
    -- one Dyck word after another is a Dyck word
    refine ⟨w + w', ?_⟩
    rw [parentheses_append hs.quotes, ← hw, ← hw']
    rfl
  comma := by
    rw [outside_append hs.quotes, List.mem_append, not_or]
    exact ⟨hs.comma, ht.comma⟩

/-- Characters that delimit nothing. -/
theorem of_forall (h : ∀ c ∈ s, c ∉ ['"', '(', ')', ',']) : WellDelimited s := by
  have h_quote : '"' ∉ s := fun h_mem => h _ h_mem (by decide)
  have h_step : ∀ c ∈ s, dyckStep? c = none := by
    intro c hc
    have h_c := h c hc
    unfold dyckStep?
    split
    · exact absurd (by decide) h_c
    · exact absurd (by decide) h_c
    · rfl
  refine ⟨?_, ⟨0, ?_⟩, ?_⟩
  · rw [List.count_eq_zero_of_not_mem h_quote]
    exact Even.zero
  · rw [parentheses, outside_of_not_mem h_quote, List.filterMap_eq_nil_iff.mpr h_step]
    rfl
  · rw [outside_of_not_mem h_quote]
    exact fun h_mem => h _ h_mem (by decide)

/-- A text in quotes, whatever stands in it. -/
theorem quoted (h : '"' ∉ s) : WellDelimited ('"' :: (s ++ ['"'])) where
  quotes := by
    rw [List.count_cons_self, List.count_append, List.count_eq_zero_of_not_mem h]
    exact ⟨1, rfl⟩
  balanced := by
    refine ⟨0, ?_⟩
    rw [parentheses, outside_quoted h]
    rfl
  comma := by
    rw [outside_quoted h]
    exact List.not_mem_nil

/-- A text in parentheses. -/
theorem group (h : WellDelimited s) : WellDelimited ('(' :: (s ++ [')'])) where
  quotes := by
    rw [List.count_cons_of_ne (by decide), List.count_append]
    exact h.quotes
  balanced := by
    obtain ⟨w, hw⟩ := h.balanced
    -- a step up and a step down around a Dyck word make another
    refine ⟨w.nest, ?_⟩
    have h_open : parentheses ('(' :: (s ++ [')'])) = .U :: parentheses (s ++ [')']) := rfl
    rw [h_open, parentheses_append h.quotes, ← hw]
    rfl
  comma := by
    have h_open : outside false ('(' :: (s ++ [')'])) = '(' :: outside false (s ++ [')']) := rfl
    rw [h_open, outside_append h.quotes, List.mem_cons, List.mem_append, not_or, not_or]
    exact ⟨by decide, h.comma, by decide⟩

end WellDelimited

end LineScript.Scan
