import LineScript.Proofs.Expression.Rows
import LineScript.Text.Split

/-!
# The names that a text mentions

A failed resolution reports an undefined variable by its name. The resolver comes across names in
the middle of a search through cuts that mostly lead nowhere, so which name it comes across first is
not plain from the search. It is plain from the text: what can be reported is a word of the text,
and a word never reaches across an operator, a parenthesis or a blank.

* `wordsFrom`: the longest runs of name and number characters outside of quotes, in order. The words
  of a text that is divided at any other character are those of its two parts
  (`wordsFrom_append_cons`);
* `unbound`: the words that are names without a value in a scope. Operators, blanks and parentheses
  add none (`unbound_operator`, `unbound_blanks`, `unbound_group`), and neither do literals
  (`unbound_of_literal?`);
* `StandsAlone`: what it means for a name to occur in a text, said without the walk. Every unbound
  word does (`of_mem_unbound`).
-/

namespace LineScript

open Resolve Scan
open Text (consFirst isBlank isIdentifier isWordChar)

variable {scope : Scope} {s : List Char} {c : Char}

/-! ### Words -/

/-- The pieces of a text between the characters that belong to no word, from a place with the given
nesting on. A piece may be empty, and nothing in quotes belongs to a word. -/
def wordsFrom (n : Nesting) : List Char → List (List Char)
  | [] => [[]]
  | c :: rest =>
    if n.quoted || !isRunChar c then [] :: wordsFrom (n.next c) rest
    else consFirst c (wordsFrom (n.next c) rest)

/-- A quote belongs to no word. -/
theorem ne_quote_of_isRunChar (h : isRunChar c) : c ≠ '"' := by
  rintro rfl
  exact absurd h (by decide)

/-- There is always a first piece, which may be empty. -/
theorem wordsFrom_ne_nil (n : Nesting) (s : List Char) : wordsFrom n s ≠ [] := by
  cases s with
  | nil => exact List.cons_ne_nil _ _
  | cons c rest =>
    rw [wordsFrom]
    split
    · exact List.cons_ne_nil _ _
    · cases wordsFrom (n.next c) rest <;> exact List.cons_ne_nil _ _

/-- A character that is put into the first of some pieces leaves the others alone. -/
theorem consFirst_append (c : Char) {pieces : List (List Char)} (h : pieces ≠ [])
    (more : List (List Char)) : consFirst c (pieces ++ more) = consFirst c pieces ++ more := by
  obtain ⟨piece, rest, rfl⟩ := List.exists_cons_of_ne_nil h
  rfl

/-- **Words do not reach across a character that belongs to none.** -/
theorem wordsFrom_append_cons (n : Nesting) (hc : isRunChar c = false) (s t : List Char) :
    wordsFrom n (s ++ c :: t) = wordsFrom n s ++ wordsFrom ((n.after s).next c) t := by
  -- the nesting moves on with each character before the one that divides
  induction s generalizing n with
  | nil => simp [wordsFrom, hc]
  | cons d s ih =>
    rw [List.cons_append, wordsFrom, wordsFrom, ih, Nesting.after_cons]
    split
    · rfl
    · exact consFirst_append d (wordsFrom_ne_nil _ _) _

/-- How many parentheses are open makes no difference to the words. -/
theorem wordsFrom_congr {n m : Nesting} (h : n.quoted = m.quoted) (s : List Char) :
    wordsFrom n s = wordsFrom m s := by
  induction s generalizing n m with
  | nil => rfl
  | cons c s ih =>
    have h_next : (n.next c).quoted = (m.next c).quoted := by
      by_cases hc : c = '"'
      · simp [Nesting.next, hc, h]
      · rw [quoted_next_of_ne n hc, quoted_next_of_ne m hc, h]
    rw [wordsFrom, wordsFrom, h, ih h_next]

/-- The first piece, outside of quotes, is the word that the text starts with. -/
theorem exists_wordsFrom_eq_cons {n : Nesting} (h : n.quoted = false) (s : List Char) :
    ∃ more, wordsFrom n s = s.takeWhile isRunChar :: more := by
  induction s generalizing n with
  | nil => exact ⟨[], rfl⟩
  | cons c s ih =>
    rw [wordsFrom, h, Bool.false_or, List.takeWhile_cons]
    -- the word goes on with `c` or ends before it
    by_cases hc : isRunChar c
    · obtain ⟨more, h_more⟩ :=
        ih ((quoted_next_of_ne n (ne_quote_of_isRunChar hc)).trans h)
      rw [if_neg (by simp [hc]), if_pos hc, h_more]
      exact ⟨more, rfl⟩
    · rw [if_pos (by simp [hc]), if_neg hc]
      exact ⟨_, rfl⟩

/-- A run of word characters is one word. -/
theorem wordsFrom_of_forall (h : ∀ c ∈ s, isRunChar c) : wordsFrom {} s = [s] := by
  have h_words : ∀ n : Nesting, n.quoted = false → wordsFrom n s = [s] := by
    induction s with
    | nil => exact fun _ _ => rfl
    | cons c s ih =>
      intro n h_quoted
      have hc := h c List.mem_cons_self
      have h_next := (quoted_next_of_ne n (ne_quote_of_isRunChar hc)).trans h_quoted
      rw [wordsFrom, if_neg (by simp [h_quoted, hc]),
        ih (fun d hd => h d (List.mem_cons_of_mem c hd)) _ h_next]
      rfl
  exact h_words {} rfl

/-! ### Names without a value -/

/-- The word is a name that has no value in the scope. -/
def isUnbound (scope : Scope) (word : List Char) : Bool :=
  isIdentifier word && (Value.booleanLiteral? word).isNone &&
    (scope.lookup (String.ofList word)).isNone

/-- The names without a value in a part of a text, in order. -/
def unboundFrom (scope : Scope) (n : Nesting) (s : List Char) : List String :=
  ((wordsFrom n s).filter (isUnbound scope)).map String.ofList

/-- The names without a value in a text, in order. -/
def unbound (scope : Scope) (s : List Char) : List String :=
  unboundFrom scope {} s

theorem unboundFrom_nil (n : Nesting) : unboundFrom scope n [] = [] := rfl

/-- No name reaches across a character that belongs to no word. -/
theorem unboundFrom_append_cons (scope : Scope) (n : Nesting) (hc : isRunChar c = false)
    (s t : List Char) :
    unboundFrom scope n (s ++ c :: t) =
      unboundFrom scope n s ++ unboundFrom scope ((n.after s).next c) t := by
  rw [unboundFrom, wordsFrom_append_cons n hc, List.filter_append, List.map_append]
  rfl

section NoWords

variable {u : List Char} (hu : ∀ c ∈ u, isRunChar c = false)

include hu

/-- What belongs to no word can be passed over. -/
theorem unboundFrom_append_left (n : Nesting) (t : List Char) :
    unboundFrom scope n (u ++ t) = unboundFrom scope (n.after u) t := by
  induction u generalizing n with
  | nil => rfl
  | cons c u ih =>
    have h_first := unboundFrom_append_cons scope n (hu c List.mem_cons_self) [] (u ++ t)
    rw [List.nil_append, unboundFrom_nil, List.nil_append, Nesting.after_nil] at h_first
    rw [List.cons_append, h_first, ih fun d hd => hu d (List.mem_cons_of_mem c hd)]
    rfl

/-- The names on both sides of characters that belong to no word. -/
theorem unboundFrom_append_append (scope : Scope) (h_ne : u ≠ []) (n : Nesting) (s t : List Char) :
    unboundFrom scope n (s ++ u ++ t) =
      unboundFrom scope n s ++ unboundFrom scope (n.after (s ++ u)) t := by
  obtain ⟨c, u, rfl⟩ := List.exists_cons_of_ne_nil h_ne
  have h_rest : ∀ d ∈ u, isRunChar d = false := fun d hd => hu d (List.mem_cons_of_mem c hd)
  rw [List.append_assoc, List.cons_append,
    unboundFrom_append_cons scope n (hu c List.mem_cons_self), unboundFrom_append_left h_rest,
    Nesting.after_append, Nesting.after_cons]

/-- What belongs to no word may also stand at the end. -/
theorem unboundFrom_append_right (n : Nesting) (s : List Char) :
    unboundFrom scope n (s ++ u) = unboundFrom scope n s := by
  by_cases h_nil : u = []
  · rw [h_nil, List.append_nil]
  · have h_append := unboundFrom_append_append hu scope h_nil n s []
    rwa [List.append_nil, unboundFrom_nil, List.append_nil] at h_append

end NoWords

/-! ### What adds no names -/

/-- Blanks and operators belong to no word. -/
theorem isRunChar_eq_false (h : isBlank c ∨ isOperatorChar c) : isRunChar c = false := by
  rcases h with h_blank | h_operator
  · rw [Bool.eq_false_iff]
    intro h_run
    exact Bool.false_ne_true ((isBlank_eq_false_of_isRunChar h_run).symm.trans h_blank)
  · exact (isOperatorChar_cases h_operator).1

/-- Blanks, operators and signs before a text add no names. -/
theorem unbound_append_left (scope : Scope) {u : List Char}
    (hu : ∀ c ∈ u, isBlank c ∨ isOperatorChar c) (s : List Char) :
    unbound scope (u ++ s) = unbound scope s := by
  have h_after : Nesting.after {} u = {} := (sealed_of_isBlank_or_isOperatorChar hu).after_eq 0
  rw [unbound, unboundFrom_append_left fun c hc => isRunChar_eq_false (hu c hc), h_after]
  rfl

/-- Blanks around a text add no names. -/
theorem unbound_blanks (scope : Scope) {front back : List Char} (h_front : ∀ c ∈ front, isBlank c)
    (h_back : ∀ c ∈ back, isBlank c) (s : List Char) :
    unbound scope (front ++ s ++ back) = unbound scope s := by
  rw [unbound, unboundFrom_append_right fun c hc => isRunChar_eq_false (.inl (h_back c hc))]
  exact unbound_append_left scope (fun c hc => .inl (h_front c hc)) s

/-- So trimming takes none away. -/
theorem unbound_trim (scope : Scope) (s : List Char) :
    unbound scope (Text.trim s) = unbound scope s := by
  obtain ⟨front, back, h_front, h_back, h_eq⟩ := Text.exists_blanks_trim s
  have h_blanks := unbound_blanks scope h_front h_back (Text.trim s)
  rw [← h_eq] at h_blanks
  exact h_blanks.symm

/-- A sign before a text adds none. -/
theorem unbound_symbol (scope : Scope) (u : Unary) (s : List Char) :
    unbound scope (u.symbol :: s) = unbound scope s :=
  unbound_append_left scope (u := [u.symbol])
    (List.forall_mem_singleton.mpr (.inr u.isOperatorChar_symbol)) s

/-- **The names of two texts with an operator between them**, if the first leaves nothing open. -/
theorem unbound_operator (scope : Scope) (o : Calculation) (h : Nesting.after {} s = {})
    (t : List Char) :
    unbound scope (s ++ o.operator ++ t) = unbound scope s ++ unbound scope t := by
  have h_ne : o.operator ≠ [] := by cases o <;> decide
  have h_run : ∀ d ∈ o.operator, isRunChar d = false := fun d hd =>
    isRunChar_eq_false (.inr (isOperatorChar_of_mem_operator hd))
  have h_after : Nesting.after {} o.operator = {} := by cases o <;> rfl
  rw [unbound, unboundFrom_append_append h_run scope h_ne, Nesting.after_append, h, h_after]
  rfl

/-- Parentheses around a text add no names, whether or not they belong together. -/
theorem unbound_group (scope : Scope) (s : List Char) :
    unbound scope ('(' :: (s ++ [')'])) = unbound scope s := by
  have h_open : ∀ d ∈ ['('], isRunChar d = false := List.forall_mem_singleton.mpr (by decide)
  have h_close : ∀ d ∈ [')'], isRunChar d = false := List.forall_mem_singleton.mpr (by decide)
  -- inside of the parentheses one more is open, which the words do not depend on
  have h_depth : wordsFrom (Nesting.after {} ['(']) s = wordsFrom {} s :=
    wordsFrom_congr (show (Nesting.after {} ['(']).quoted = Nesting.quoted {} from rfl) s
  rw [unbound, ← List.singleton_append, unboundFrom_append_left h_open,
    unboundFrom_append_right h_close, unboundFrom, h_depth]
  rfl

/-! ### Literals and names -/

/-- A run of word characters mentions itself or nothing. -/
theorem unbound_of_forall (h : ∀ c ∈ s, isRunChar c) :
    unbound scope s = if isUnbound scope s then [String.ofList s] else [] := by
  rw [unbound, unboundFrom, wordsFrom_of_forall h, List.filter_cons, List.filter_nil]
  split <;> rfl

/-- A name is such a run. -/
theorem unbound_of_isIdentifier (h : isIdentifier s) :
    unbound scope s = if isUnbound scope s then [String.ofList s] else [] :=
  unbound_of_forall fun _ hc => IsDirect.isRunChar_of_mem_isIdentifier h hc

/-- Word characters open and close nothing. -/
theorem sealed_of_isRunChar (h : ∀ c ∈ s, isRunChar c) : Sealed s := by
  refine .of_forall fun c hc => ?_
  have h_run := h c hc
  refine ⟨?_, ?_, ?_⟩ <;>
    (rintro rfl; exact absurd h_run (by decide))

/-- A word that starts like a number is no name. -/
theorem unbound_digits (scope : Scope) {digits t : List Char} (h_ne : digits ≠ [])
    (h_digits : ∀ c ∈ digits, Number.isMantissaChar c) (ht : ∀ c ∈ t, isRunChar c) :
    unbound scope (digits ++ t) = [] := by
  have h_run : ∀ c ∈ digits ++ t, isRunChar c := by
    intro c hc
    rcases List.mem_append.mp hc with hc | hc
    · exact isRunChar_of_isMantissaChar (h_digits c hc)
    · exact ht c hc
  obtain ⟨d, ds, rfl⟩ := List.exists_cons_of_ne_nil h_ne
  have h_name : isIdentifier (d :: ds ++ t) = false := by
    rw [List.cons_append, isIdentifier,
      isNameStart_eq_false_of_isMantissaChar (h_digits d List.mem_cons_self), Bool.false_and]
  rw [unbound_of_forall h_run, isUnbound, h_name]
  rfl

/-- The sign of a number adds no name. -/
theorem unbound_isSign {mark : List Char} (h : Number.IsSign mark) (t : List Char) :
    unbound scope (mark ++ t) = unbound scope t := by
  refine unbound_append_left scope (fun c hc => .inr ?_) t
  rcases h with rfl | rfl | rfl
  · exact absurd hc List.not_mem_nil
  · rw [List.mem_singleton.mp hc]
    decide
  · rw [List.mem_singleton.mp hc]
    decide

/-- A number mentions no name. The `e` of its exponent is not a word, since digits go before it. -/
theorem unbound_of_spelling (h : Number.Spelling s) : unbound scope s = [] := by
  cases h with
  | @plain mark digits h_mark h_ne h_digits =>
    have h_plain := unbound_digits scope h_ne h_digits (List.forall_mem_nil _)
    rwa [unbound_isSign h_mark, ← List.append_nil digits]
  | @scaled mark digits e sign exponent h_mark h_ne h_digits h_e h_sign h_ne' h_exponent =>
    have h_digit : ∀ c ∈ exponent, Number.isMantissaChar c := fun c hc =>
      Number.isMantissaChar_of_isDigit (h_exponent c hc)
    have h_run : isRunChar e := by rcases h_e with rfl | rfl <;> decide
    have h_front : unbound scope (digits ++ [e]) = [] :=
      unbound_digits scope h_ne h_digits (List.forall_mem_singleton.mpr h_run)
    have h_back : unbound scope (exponent ++ []) = [] :=
      unbound_digits scope h_ne' h_digit (List.forall_mem_nil _)
    have h_after : Nesting.after {} (digits ++ [e]) = {} := by
      refine (sealed_of_isRunChar fun c hc => ?_).after_eq 0
      rcases List.mem_append.mp hc with hc | hc
      · exact isRunChar_of_isMantissaChar (h_digits c hc)
      · exact List.mem_singleton.mp hc ▸ h_run
    -- a sign in the exponent divides the number into two words
    have h_divided : ∀ o : Calculation,
        unbound scope (digits ++ e :: (o.operator ++ exponent)) = [] := by
      intro o
      have h_sides := unbound_operator scope o h_after exponent
      rw [h_front, ← List.append_nil exponent, h_back] at h_sides
      simpa using h_sides
    rw [unbound_isSign h_mark]
    rcases h_sign with rfl | rfl | rfl
    · exact unbound_digits scope h_ne h_digits (List.forall_mem_cons.mpr
        ⟨h_run, fun c hc => isRunChar_of_isMantissaChar (h_digit c hc)⟩)
    · exact h_divided .addition
    · exact h_divided .subtraction

/-- Nothing in quotes is a word. -/
theorem wordsFrom_quoted (h : '"' ∉ s) (depth : Nat) :
    ∀ word ∈ wordsFrom ⟨true, depth⟩ s, word = [] := by
  induction s with
  | nil => simp [wordsFrom]
  | cons c s ih =>
    rw [List.mem_cons, not_or] at h
    have h_next : Nesting.next ⟨true, depth⟩ c = ⟨true, depth⟩ := by
      simp [Nesting.next, Ne.symm h.1]
    rw [wordsFrom, if_pos (by rfl), h_next]
    exact List.forall_mem_cons.mpr ⟨rfl, ih h.2⟩

/-- A quoted text mentions no name. -/
theorem unbound_quoted (h : '"' ∉ s) : unbound scope ('"' :: (s ++ ['"'])) = [] := by
  have h_quote : ∀ d ∈ ['"'], isRunChar d = false := List.forall_mem_singleton.mpr (by decide)
  have h_none : (wordsFrom ⟨true, 0⟩ s).filter (isUnbound scope) = [] := by
    refine List.filter_eq_nil_iff.mpr fun word h_word => ?_
    rw [wordsFrom_quoted h 0 word h_word]
    exact Bool.false_ne_true
  rw [unbound, ← List.singleton_append, unboundFrom_append_left h_quote,
    unboundFrom_append_right h_quote]
  change ((wordsFrom ⟨true, 0⟩ s).filter (isUnbound scope)).map String.ofList = []
  rw [h_none, List.map_nil]

/-- **A literal mentions no name.** -/
theorem unbound_of_literal? {v : Value} (h : literal? s = some v) : unbound scope s = [] := by
  unfold literal? at h
  split at h
  · next h_number =>
    exact unbound_of_spelling (Number.spelling_of_parse? (by rw [h_number]; rfl))
  · split at h
    · next inside h_quoted =>
      obtain ⟨rfl, h_inside⟩ := quoted?_eq_some h_quoted
      exact unbound_quoted h_inside
    · rw [unbound_of_isIdentifier (isIdentifier_of_booleanLiteral? h), isUnbound, h]
      simp

/-! ### Where a word stands -/

/-- The name stands in the text as a word of its own, outside of quotes: no character that a name
could go on with stands next to it. -/
def StandsAlone (name s : List Char) : Prop :=
  ∃ before after, s = before ++ name ++ after ∧ (Nesting.after {} before).quoted = false ∧
    ¬ before.getLast?.any isWordChar ∧ ¬ after.head?.any isWordChar

/-- Inside of quotes the first piece is empty. -/
theorem exists_wordsFrom_eq_nil_cons {n : Nesting} (h : n.quoted) (s : List Char) :
    ∃ more, wordsFrom n s = [] :: more := by
  cases s with
  | nil => exact ⟨[], rfl⟩
  | cons c s =>
    rw [wordsFrom, if_pos (by rw [h, Bool.true_or])]
    exact ⟨_, rfl⟩

/-- What is left behind a run does not go on with it. -/
theorem not_any_head?_dropWhile (s : List Char) :
    ¬ (s.dropWhile isRunChar).head?.any isRunChar := by
  have h_not := List.head?_dropWhile_not isRunChar s
  cases h_head : (s.dropWhile isRunChar).head? with
  | none => simp
  | some d => simpa [h_head] using h_not

/-- A word after the first one stands after a character that belongs to none. By induction on the
text: such a word is the first one after a character that was just passed, or a later one there. -/
theorem exists_of_mem_tail_wordsFrom {n : Nesting} {word : List Char} (h_ne : word ≠ [])
    (h : word ∈ (wordsFrom n s).tail) :
    ∃ l d r, s = l ++ d :: (word ++ r) ∧ isRunChar d = false ∧
      (n.after (l ++ [d])).quoted = false ∧ ¬ r.head?.any isRunChar := by
  induction s generalizing n with
  | nil => exact absurd h List.not_mem_nil
  | cons c s ih =>
    have h_later : word ∈ (wordsFrom (n.next c) s).tail → ∃ l d r, c :: s = l ++ d :: (word ++ r) ∧
        isRunChar d = false ∧ (n.after (l ++ [d])).quoted = false ∧ ¬ r.head?.any isRunChar := by
      intro h_tail
      obtain ⟨l, d, r, rfl, h_rest⟩ := ih h_tail
      exact ⟨c :: l, d, r, rfl, h_rest⟩
    rw [wordsFrom] at h
    split at h
    · next h_divides =>
      rw [List.tail_cons] at h
      cases h_next : (n.next c).quoted with
      | true =>
        -- inside quotes the first piece is empty
        obtain ⟨more, h_more⟩ := exists_wordsFrom_eq_nil_cons h_next s
        rw [h_more] at h h_later
        exact h_later ((List.mem_cons.mp h).resolve_left h_ne)
      | false =>
        obtain ⟨more, h_more⟩ := exists_wordsFrom_eq_cons h_next s
        rw [h_more] at h h_later
        rcases List.mem_cons.mp h with rfl | h
        · refine ⟨[], c, s.dropWhile isRunChar, ?_, ?_, h_next, not_any_head?_dropWhile s⟩
          · rw [List.nil_append, List.takeWhile_append_dropWhile]
          · -- a character that ends a quote is the quote
            by_cases hc : c = '"'
            · rw [hc]
              decide
            · rw [quoted_next_of_ne n hc] at h_next
              simpa [h_next] using h_divides
        · exact h_later h
    · -- `c` goes to the first piece, so the tail is that of the rest
      refine h_later ?_
      obtain ⟨piece, more, h_more⟩ := List.exists_cons_of_ne_nil (wordsFrom_ne_nil (n.next c) s)
      rw [h_more] at h ⊢
      exact h

/-- What cannot go on a run cannot go on a name. -/
theorem not_any_isWordChar {o : Option Char} (h : ¬ o.any isRunChar) : ¬ o.any isWordChar := by
  cases o with
  | none => exact h
  | some d =>
    intro h_word
    rw [Option.any_some] at h h_word
    exact h (by rw [isRunChar, h_word, Bool.true_or])

/-- **Every word stands alone in its text.** -/
theorem standsAlone_of_mem_wordsFrom {word : List Char} (h_ne : word ≠ [])
    (h : word ∈ wordsFrom {} s) : StandsAlone word s := by
  obtain ⟨more, h_more⟩ := exists_wordsFrom_eq_cons (n := {}) rfl s
  have h_tail : (wordsFrom {} s).tail = more := by rw [h_more, List.tail_cons]
  rw [h_more] at h
  -- the word the text starts with has nothing before it; any other stands after a divider
  rcases List.mem_cons.mp h with rfl | h
  · refine ⟨[], s.dropWhile isRunChar, ?_, rfl, by simp, ?_⟩
    · rw [List.nil_append, List.takeWhile_append_dropWhile]
    · exact not_any_isWordChar (not_any_head?_dropWhile s)
  · obtain ⟨l, d, r, rfl, h_d, h_quoted, h_r⟩ := exists_of_mem_tail_wordsFrom h_ne (h_tail ▸ h)
    refine ⟨l ++ [d], r, by simp, h_quoted, not_any_isWordChar ?_, not_any_isWordChar h_r⟩
    rw [List.getLast?_concat, Option.any_some, h_d]
    exact Bool.false_ne_true

/-- A name without a value that a text mentions stands alone in it. -/
theorem of_mem_unbound {name : String} (h : name ∈ unbound scope s) :
    isUnbound scope name.toList ∧ StandsAlone name.toList s := by
  obtain ⟨word, h_word, rfl⟩ := List.mem_map.mp h
  obtain ⟨h_mem, h_unbound⟩ := List.mem_filter.mp h_word
  rw [String.toList_ofList]
  refine ⟨h_unbound, standsAlone_of_mem_wordsFrom ?_ h_mem⟩
  rintro rfl
  exact absurd h_unbound Bool.false_ne_true

end LineScript
