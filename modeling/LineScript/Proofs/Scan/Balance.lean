import LineScript.Proofs.Scan.Delimiters
import LineScript.Scan.Group

/-!
# Balanced texts

`group?` walks through a text from its first parenthesis and stops where that one is closed. Whether
the text is a group can be said of its inside alone, by counting: among the parentheses that stand
outside of quotes, no start of the inside closes more than it opens, and all of it closes as many as
it opens. The count has no floor, unlike the depth of a `Nesting`, so a parenthesis that closes
nothing is never forgotten.

* `height`: how many parentheses more are opened than closed;
* `Balanced`: the condition on the inside;
* `closesAtEnd_iff`: what the walk finds, from any place in the group. A `BalancedFrom` text starts
  with some parentheses open, and perhaps in quotes, and closes them all;
* `group?_eq_some_iff`: **a group is a balanced text in parentheses**.
-/

namespace LineScript.Scan

/-- The number of opening parentheses less that of closing ones, outside of quotes. -/
def height (quoted : Bool) (s : List Char) : Int :=
  (outside quoted s).count '(' - (outside quoted s).count ')'

/-- Quotes are closed, and parentheses outside of them are closed after they were opened. -/
structure Balanced (s : List Char) : Prop where
  /-- Every quote that opens is closed. -/
  quotes : Even (s.count '"')
  /-- At no place more parentheses were closed than opened. -/
  nonneg : ∀ left, left <+: s → 0 ≤ height false left
  /-- At the end all of them are closed. -/
  height_eq : height false s = 0

/-- Only finitely many starts of a text have to be tried. -/
instance (s : List Char) : Decidable (Balanced s) :=
  decidable_of_iff
    (Even (s.count '"') ∧ (∀ left ∈ s.inits, 0 ≤ height false left) ∧ height false s = 0)
    ⟨fun ⟨h_quotes, h_nonneg, h_eq⟩ =>
        ⟨h_quotes, fun left h => h_nonneg left ((List.mem_inits left s).mpr h), h_eq⟩,
      fun h => ⟨h.quotes, fun left h_left => h.nonneg left ((List.mem_inits left s).mp h_left),
        h.height_eq⟩⟩

/-! ### One character -/

/-- What a character adds to the height. -/
def weight (quoted : Bool) (c : Char) : Int :=
  if quoted then 0 else if c = '(' then 1 else if c = ')' then -1 else 0

/-- Only a quote opens or closes quotes. -/
theorem xor_beq_of_ne (quoted : Bool) {c : Char} (h : c ≠ '"') :
    (quoted ^^ (c == '"')) = quoted := by
  rw [beq_false_of_ne h, Bool.xor_false]

@[simp]
theorem height_nil (quoted : Bool) : height quoted [] = 0 := rfl

/-- The height of a text is counted from its front: the first character, and then the rest with
quotes open or closed as that character leaves them. -/
theorem height_cons (quoted : Bool) (c : Char) (s : List Char) :
    height quoted (c :: s) = weight quoted c + height (quoted ^^ (c == '"')) s := by
  unfold height weight
  rw [outside]
  -- a quote weighs nothing itself, and decides how everything behind it weighs
  by_cases h_quote : c = '"'
  · subst h_quote
    simp
  · rw [if_neg h_quote, xor_beq_of_ne quoted h_quote]
    cases quoted with
    | true => simp
    | false =>
      by_cases h_open : c = '('
      · subst h_open
        simp
        omega
      · by_cases h_close : c = ')'
        · subst h_close
          simp
          omega
        · simp [h_open, h_close]

/-! ### From any place in a group -/

/-- A text that may start in quotes, with some parentheses open, and closes everything. -/
structure BalancedFrom (quoted : Bool) (depth : Int) (s : List Char) : Prop where
  quotes : Even (s.count '"') ↔ quoted = false
  nonneg : ∀ left, left <+: s → 0 ≤ depth + height quoted left
  height_eq : depth + height quoted s = 0

/-- From the start of a group, with nothing open, this is the condition on its inside. -/
theorem balancedFrom_zero_iff {s : List Char} : BalancedFrom false 0 s ↔ Balanced s := by
  constructor
  · rintro ⟨h_quotes, h_nonneg, h_eq⟩
    simp only [Int.zero_add] at h_nonneg h_eq
    exact ⟨h_quotes.mpr rfl, h_nonneg, h_eq⟩
  · rintro ⟨h_quotes, h_nonneg, h_eq⟩
    refine ⟨iff_of_true h_quotes rfl, ?_, ?_⟩
    · simpa only [Int.zero_add] using h_nonneg
    · rw [h_eq, Int.zero_add]

/-- At the end of a text nothing may be open. -/
theorem balancedFrom_nil_iff {quoted : Bool} {depth : Int} :
    BalancedFrom quoted depth [] ↔ quoted = false ∧ depth = 0 := by
  constructor
  · intro h
    exact ⟨h.quotes.mp ⟨0, rfl⟩, by simpa using h.height_eq⟩
  · rintro ⟨rfl, rfl⟩
    exact balancedFrom_zero_iff.mpr ⟨⟨0, rfl⟩, by simp, rfl⟩

/-- Passing a character toggles on a quote and moves the depth by its weight. -/
theorem balancedFrom_cons_iff {quoted : Bool} {depth : Int} {c : Char} {s : List Char} :
    BalancedFrom quoted depth (c :: s) ↔
      0 ≤ depth ∧ BalancedFrom (quoted ^^ (c == '"')) (depth + weight quoted c) s := by
  -- the parity of the quotes that are left changes exactly when quotes open or close
  have h_parity : (Even ((c :: s).count '"') ↔ quoted = false) ↔
      (Even (s.count '"') ↔ (quoted ^^ (c == '"')) = false) := by
    by_cases h_quote : c = '"'
    · subst h_quote
      rw [List.count_cons_self, Nat.even_add_one]
      cases quoted <;> simp
    · rw [List.count_cons_of_ne h_quote, xor_beq_of_ne quoted h_quote]
  -- a start of the longer text is its first character in front of a start of the rest
  have h_height : ∀ t, depth + height quoted (c :: t) =
      depth + weight quoted c + height (quoted ^^ (c == '"')) t := by
    intro t
    rw [height_cons, Int.add_assoc]
  constructor
  · intro h
    -- the empty start shows that the depth here is not below zero
    have h_start := h.nonneg [] (List.nil_prefix)
    refine ⟨by simpa using h_start, h_parity.mp h.quotes, ?_, ?_⟩
    · intro left h_left
      rw [← h_height]
      exact h.nonneg (c :: left) (List.cons_prefix_cons.mpr ⟨rfl, h_left⟩)
    · rw [← h_height]
      exact h.height_eq
  · rintro ⟨h_depth, h⟩
    refine ⟨h_parity.mpr h.quotes, ?_, ?_⟩
    · intro left h_left
      cases left with
      | nil => simpa using h_depth
      | cons d left =>
        obtain ⟨rfl, h_rest⟩ := List.cons_prefix_cons.mp h_left
        rw [h_height]
        exact h.nonneg left h_rest
    · rw [h_height]
      exact h.height_eq

/-! ### Groups -/

/-- Unless it closes the last open parenthesis, a character takes a walk and a count alike. -/
theorem exists_next_eq {quoted : Bool} {depth : Nat} {c : Char}
    (h : ¬ (c = ')' ∧ quoted = false ∧ depth = 0)) :
    ∃ depth' : Nat, Nesting.next ⟨quoted, depth + 1⟩ c = ⟨quoted ^^ (c == '"'), depth' + 1⟩ ∧
      (depth' : Int) = depth + weight quoted c := by
  unfold Nesting.next weight
  by_cases h_quote : c = '"'
  · subst h_quote
    exact ⟨depth, by simp, by cases quoted <;> simp⟩
  -- in quotes both stay where they are
  cases quoted with
  | true => exact ⟨depth, by simp [h_quote], by simp⟩
  | false =>
    by_cases h_open : c = '('
    · subst h_open
      exact ⟨depth + 1, by simp, by simp⟩
    by_cases h_close : c = ')'
    · subst h_close
      -- there is one more parenthesis to close after this one
      obtain ⟨d, rfl⟩ : ∃ d, depth = d + 1 :=
        Nat.exists_eq_succ_of_ne_zero fun h_zero => h ⟨rfl, rfl, h_zero⟩
      exact ⟨d, by simp, by simp⟩
    · exact ⟨depth, by simp [h_quote, h_open, h_close], by simp [h_open, h_close]⟩

/-- **Where a walk ends.** The parenthesis that is open closes at the very end of a text exactly if
what stands before the end closes all the others, and not this one. -/
theorem closesAtEnd_iff {quoted : Bool} {depth : Nat} {s : List Char} :
    closesAtEnd ⟨quoted, depth + 1⟩ s ↔ ∃ e, s = e ++ [')'] ∧ BalancedFrom quoted depth e := by
  -- the walk carries quotes and depth along, so both are variable in the induction
  induction s generalizing quoted depth with
  | nil => simp [closesAtEnd]
  | cons c s ih =>
    rw [closesAtEnd]
    -- the walk stops at one kind of character only, a parenthesis outside of quotes that closes the
    -- last open one
    by_cases h_last : c = ')' ∧ quoted = false ∧ depth = 0
    · obtain ⟨rfl, rfl, rfl⟩ := h_last
      rw [if_pos (by simp [Nesting.next]), List.isEmpty_iff]
      constructor
      · rintro rfl
        exact ⟨[], rfl, balancedFrom_nil_iff.mpr ⟨rfl, rfl⟩⟩
      · rintro ⟨e, h_eq, h⟩
        cases e with
        | nil => simpa using h_eq
        | cons d e =>
          -- a count that passes this parenthesis is below zero
          obtain ⟨rfl, -⟩ := List.cons.inj h_eq
          have h_below := (balancedFrom_cons_iff.mp h).2.nonneg [] List.nil_prefix
          exact absurd h_below (by decide)
    · -- any other character takes walk and count to the same place, where the hypothesis of the
      -- induction applies
      obtain ⟨depth', h_next, h_depth⟩ := exists_next_eq h_last
      have h_goes_on : ¬ (c == ')' && !quoted && (Nesting.next ⟨quoted, depth + 1⟩ c).depth == 0) :=
        by rw [h_next]; simp
      rw [if_neg h_goes_on, h_next, ih, h_depth]
      constructor
      · rintro ⟨e, rfl, h⟩
        exact ⟨c :: e, rfl, balancedFrom_cons_iff.mpr ⟨Int.natCast_nonneg depth, h⟩⟩
      · rintro ⟨e, h_eq, h⟩
        cases e with
        | nil =>
          -- a text that ends here would have closed the parenthesis before
          obtain ⟨h_quoted, h_zero⟩ := balancedFrom_nil_iff.mp h
          obtain ⟨rfl, -⟩ := List.cons.inj h_eq
          exact absurd ⟨rfl, h_quoted, Int.natCast_eq_zero.mp h_zero⟩ h_last
        | cons d e =>
          obtain ⟨rfl, rfl⟩ := List.cons.inj h_eq
          exact ⟨e, rfl, (balancedFrom_cons_iff.mp h).2⟩

/-- **A group is a balanced text in parentheses.** -/
theorem group?_eq_some_iff {s inside : List Char} :
    group? s = some inside ↔ s = '(' :: (inside ++ [')']) ∧ Balanced inside := by
  -- the walk through a group starts after its first parenthesis, which is the one that is open
  have h_close : ∀ rest, closesAtEnd { depth := 1 } rest ↔
      ∃ e, rest = e ++ [')'] ∧ Balanced e := by
    intro rest
    rw [← Nat.zero_add 1, closesAtEnd_iff]
    simp only [Nat.cast_zero, balancedFrom_zero_iff]
  constructor
  · intro h
    unfold group? at h
    split at h
    · next rest =>
      split at h
      · next h_closes =>
        obtain ⟨e, rfl, h_balanced⟩ := (h_close rest).mp h_closes
        rw [List.dropLast_concat] at h
        obtain rfl := Option.some.inj h
        exact ⟨rfl, h_balanced⟩
      · exact absurd h (by simp)
    · exact absurd h (by simp)
  · rintro ⟨rfl, h⟩
    rw [group?, if_pos ((h_close _).mpr ⟨inside, rfl, h⟩), List.dropLast_concat]

end LineScript.Scan
