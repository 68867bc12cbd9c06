import LineScript.Pattern.Depth
import LineScript.Pattern.Symbol

/-!
# Sets of characters in a pattern

A set is written in brackets: characters, ranges such as `a-z`, classes such as `\d` or
`[:alpha:]`, and other sets. A `^` at its start stands for all but those, dashes at its start are
characters, and so is a closing bracket if it is the very first. The operators `&&`, `--` and `~~`
take what stands before them and what stands after them as a set each.

A set in a pattern about bytes may not take in bytes beyond ASCII, so nothing in it stands for all
but something.

* `members?`: one member, or a range;
* `OpenSet`: a set of which some has been read, and `OpenSet.move?`: what its next part does to it;
* `set?`: a whole set, with `length_lt_of_set?`: reading it uses up some of the text.
-/

namespace LineScript.Pattern

/-! ### Members -/

/-- Reads a symbol inside a set. -/
def member? (m : Mode) : List Char → Option (Symbol × List Char)
  | [] => none
  | '\\' :: rest => Symbol.escape? m rest
  | c :: rest => some (.literal c, rest)

theorem length_lt_of_member? {m : Mode} {x : Symbol} {s rest : List Char}
    (h : member? m s = some (x, rest)) : rest.length < s.length := by
  rw [member?.eq_def] at h
  split at h
  · cases h
  · exact Nat.lt_succ_of_lt (Symbol.length_lt_of_escape? h)
  · rw [Option.some.injEq, Prod.mk.injEq] at h
    exact h.2 ▸ Nat.lt_succ_self _

/-- The two symbols are the ends of a range. -/
def isRange (first last : Symbol) : Bool :=
  match first.char?, last.char? with
  | some a, some b => a ≤ b
  | _, _ => false

/-- Reads a member of a set, or a range. A dash before a closing bracket or before another dash
makes no range. -/
def members? (m : Mode) (s : List Char) : Option (List Char) :=
  match member? m s with
  | none => none
  | some (first, rest) =>
    if !first.fitsSet m then none
    else match m.skip rest with
      | '-' :: beyond =>
        if m.glance beyond = some ']' || m.glance beyond = some '-' then some ('-' :: beyond)
        else match member? m (m.skip beyond) with
          | none => none
          | some (last, rest) => if last.fitsSet m && isRange first last then some rest else none
      | rest => some rest

theorem length_lt_of_members? {m : Mode} {s rest : List Char} (h : members? m s = some rest) :
    rest.length < s.length := by
  rw [members?] at h
  split at h
  · cases h
  · next first after hfirst =>
    have hafter := length_lt_of_member? hfirst
    have hskip := m.length_skip_le after
    split at h
    · cases h
    · split at h
      · next beyond hbeyond =>
        rw [hbeyond, List.length_cons] at hskip
        split at h
        · rw [Option.some.injEq] at h
          rw [← h, List.length_cons]
          omega
        · split at h
          · cases h
          · next last final hlast =>
            have hfinal := length_lt_of_member? hlast
            have hdash := m.length_skip_le beyond
            split at h
            · rw [Option.some.injEq] at h
              rw [← h]
              omega
            · cases h
      · rw [Option.some.injEq] at h
        rw [← h]
        omega

/-! ### Classes with a name -/

/-- The names of classes. -/
def classNames : List String :=
  ["alnum", "alpha", "ascii", "blank", "cntrl", "digit", "graph", "lower", "print", "punct",
    "space", "upper", "word", "xdigit"]

/-- A `^` in front, and what follows it. -/
def negation : List Char → Bool × List Char
  | '^' :: rest => (true, rest)
  | s => (false, s)

theorem length_negation_le (s : List Char) : (negation s).2.length ≤ s.length := by
  rw [negation.eq_def]
  split
  · exact Nat.le_succ _
  · exact Nat.le_refl _

/-- Reads a class with a name after its opening bracket: whether it stands for all but those, and
what follows it. -/
def namedClass? : List Char → Option (Bool × List Char)
  | ':' :: s =>
    let (negated, s) := negation s
    match s.dropWhile (· ≠ ':') with
    | _ :: ']' :: rest =>
      if classNames.contains (String.ofList (s.takeWhile (· ≠ ':'))) then some (negated, rest)
      else none
    | _ => none
  | _ => none

theorem length_le_of_namedClass? {negated : Bool} {s rest : List Char}
    (h : namedClass? s = some (negated, rest)) : rest.length ≤ s.length := by
  rw [namedClass?.eq_def] at h
  split at h
  · next s =>
    have hname := Text.length_dropWhile_le (· ≠ ':') (negation s).2
    have hnegation := length_negation_le s
    dsimp only at h
    split at h
    · next hs =>
      rw [hs, List.length_cons, List.length_cons] at hname
      split at h
      · rw [Option.some.injEq, Prod.mk.injEq] at h
        rw [← h.2, List.length_cons]
        omega
      · cases h
    · cases h
  · cases h

/-! ### Whole sets -/

/-- A set of which some has been read. -/
structure OpenSet where
  /-- The depth of what stands before the last operator, if there is one. -/
  left : Option Nat := none
  /-- The depths of the members after that, the last one first. -/
  members : List Nat := []
  /-- Nothing but dashes has been read. -/
  fresh : Bool := true
deriving Repr, DecidableEq

/-- What the next part of a set does. -/
inductive Move where
  /-- It goes on with the set. -/
  | stay (o : OpenSet)
  /-- It opens a set inside the set. -/
  | enter
  /-- It closes the set. -/
  | leave
deriving Repr, DecidableEq

namespace OpenSet

/-- How deep the set is nested so far. -/
def depth (o : OpenSet) : Nat :=
  match o.left with
  | none => depthOfAll o.members
  | some left => 1 + max left (depthOfAll o.members)

/-- The set with one more member. -/
def push (o : OpenSet) (depth : Nat) : OpenSet :=
  { o with members := depth :: o.members, fresh := false }

/-- The set after an operator. -/
def operate (o : OpenSet) : OpenSet :=
  { left := some o.depth, fresh := false }

/-- The character is a member here though it has a meaning elsewhere. -/
def takes (o : OpenSet) (c : Char) : Bool :=
  o.fresh && (c == '-' || (c == ']' && o.members.isEmpty))

/-- The character twice is an operator. -/
def isOperator (c : Char) : Bool :=
  c == '&' || c == '-' || c == '~'

/-- Reads what follows an opening bracket up to the first member. -/
def start? (m : Mode) (s : List Char) : Option (List Char) :=
  let (negated, rest) := negation (m.skip s)
  if negated && !m.unicode then none else some rest

theorem length_le_of_start? {m : Mode} {s rest : List Char} (h : start? m s = some rest) :
    rest.length ≤ s.length := by
  have hskip := m.length_skip_le s
  have hnegation := length_negation_le (m.skip s)
  rw [start?] at h
  dsimp only at h
  split at h
  · cases h
  · rw [Option.some.injEq] at h
    rw [← h]
    omega

/-- Reads the next part of a set: the given character and what comes after it. An opening bracket
that starts no class with a name opens a set. -/
def move? (m : Mode) (o : OpenSet) (c : Char) (s : List Char) : Option (Move × List Char) :=
  if o.takes c then some (.stay { o.push 0 with fresh := c == '-' }, s)
  else if c == ']' then some (.leave, s)
  else if c == '[' then
    match namedClass? s with
    | some (negated, rest) => if negated && !m.unicode then none else some (.stay (o.push 0), rest)
    | none => (start? m s).map (.enter, ·)
  else if isOperator c && s.head? = some c then some (.stay o.operate, s.tail)
  else (members? m (c :: s)).map (.stay (o.push 0), ·)

theorem length_le_of_move? {m : Mode} {o : OpenSet} {c : Char} {s rest : List Char} {next : Move}
    (h : move? m o c s = some (next, rest)) : rest.length ≤ s.length := by
  rw [move?] at h
  split at h
  · rw [Option.some.injEq, Prod.mk.injEq] at h
    exact h.2 ▸ Nat.le_refl _
  split at h
  · rw [Option.some.injEq, Prod.mk.injEq] at h
    exact h.2 ▸ Nat.le_refl _
  split at h
  · split at h
    · next hclass =>
      split at h
      · cases h
      · rw [Option.some.injEq, Prod.mk.injEq] at h
        exact h.2 ▸ length_le_of_namedClass? hclass
    · obtain ⟨after, hstart, heq⟩ := Option.map_eq_some_iff.mp h
      rw [Prod.mk.injEq] at heq
      exact heq.2 ▸ length_le_of_start? hstart
  split at h
  · rw [Option.some.injEq, Prod.mk.injEq] at h
    rw [← h.2, List.length_tail]
    exact Nat.sub_le _ _
  · obtain ⟨after, hmembers, heq⟩ := Option.map_eq_some_iff.mp h
    rw [Prod.mk.injEq] at heq
    exact heq.2 ▸ Nat.le_of_lt_succ (length_lt_of_members? hmembers)

/-- Each part of a set uses up some of the text. -/
theorem length_lt_of_move? {m : Mode} {o : OpenSet} {c : Char} {s after rest : List Char}
    {next : Move} (hs : m.skip s = c :: after) (h : move? m o c after = some (next, rest)) :
    rest.length < s.length := by
  have hskip := m.length_skip_le s
  rw [hs, List.length_cons] at hskip
  exact Nat.lt_of_le_of_lt (length_le_of_move? h) hskip

/-- Reads a set to its end, with the sets around it: its depth and what follows it. -/
def finish? (m : Mode) (o : OpenSet) (outer : List OpenSet) (s : List Char) :
    Option (Nat × List Char) :=
  match hs : m.skip s with
  | [] => none
  | c :: after =>
    match hmove : o.move? m c after with
    | none => none
    | some (.stay next, rest) =>
      have := length_lt_of_move? hs hmove
      finish? m next outer rest
    | some (.enter, rest) =>
      have := length_lt_of_move? hs hmove
      finish? m {} (o :: outer) rest
    | some (.leave, rest) =>
      have := length_lt_of_move? hs hmove
      match outer with
      | [] => some (1 + o.depth, rest)
      | around :: outer => finish? m (around.push (1 + o.depth)) outer rest
termination_by s.length

theorem length_lt_of_finish? {m : Mode} {o : OpenSet} {outer : List OpenSet} {depth : Nat}
    {s rest : List Char} (h : finish? m o outer s = some (depth, rest)) :
    rest.length < s.length := by
  fun_induction finish? m o outer s with
  | case1 => cases h
  | case2 => cases h
  | case3 o outer s c after hs next rest' hmove hlt ih => exact Nat.lt_trans (ih h) hlt
  | case4 o outer s c after hs rest' hmove hlt ih => exact Nat.lt_trans (ih h) hlt
  | case5 o s c after hs rest' hmove hlt =>
    rw [Option.some.injEq, Prod.mk.injEq] at h
    exact h.2 ▸ hlt
  | case6 o s c after hs rest' hmove hlt around outer ih => exact Nat.lt_trans (ih h) hlt

end OpenSet

/-- Reads a set after its opening bracket: its depth and what follows it. -/
def set? (m : Mode) (s : List Char) : Option (Nat × List Char) :=
  (OpenSet.start? m s).bind (OpenSet.finish? m {} [])

/-- Reading a set uses up some of the text. -/
theorem length_lt_of_set? {m : Mode} {depth : Nat} {s rest : List Char}
    (h : set? m s = some (depth, rest)) : rest.length < s.length := by
  obtain ⟨after, hstart, hfinish⟩ := Option.bind_eq_some_iff.mp h
  exact Nat.lt_of_lt_of_le (OpenSet.length_lt_of_finish? hfinish)
    (OpenSet.length_le_of_start? hstart)

end LineScript.Pattern
