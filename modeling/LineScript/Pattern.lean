import LineScript.Pattern.Depth
import LineScript.Pattern.Set
import LineScript.Pattern.Symbol
import LineScript.Text.Alphanumeric

/-!
# Patterns

A pattern describes texts: symbols and sets one after another, each perhaps repeated by `?`, `*` or
`+`, with `|` between branches and parentheses around groups. A group may have a name, as in
`(?<word>\w+)`, and flags, as in `(?i:yes|no)`.

Patterns stand in filters for log lines, inside braces. A counted repetition would have a closing
brace of its own, which already ends the pattern, so an opening brace cannot be read.

* `State.step?`: what the next part of a pattern does to what has been read;
* `depth?`: reads a pattern and gives its depth;
* `isReadable`: the text is a pattern that is not nested too deep.
-/

namespace LineScript.Pattern

/-- A part of a branch. -/
structure Piece where
  /-- How deep it is nested. -/
  depth : Nat
  /-- It may be repeated, which flags may not. -/
  repeatable : Bool := true
deriving Repr, DecidableEq

/-- A group, or a whole pattern, of which some has been read. -/
structure Group where
  /-- The depths of the branches that are whole. -/
  branches : List Nat := []
  /-- The pieces of the branch that is being read, the last one first. -/
  pieces : List Piece := []
deriving Repr, DecidableEq

namespace Group

/-- How deep the branch that is being read is nested. -/
def branch (g : Group) : Nat :=
  depthOfAll (g.pieces.map Piece.depth)

/-- How deep the group is nested inside. -/
def depth (g : Group) : Nat :=
  depthOfAll (g.branch :: g.branches)

/-- The group with one more piece. -/
def push (g : Group) (p : Piece) : Group :=
  { g with pieces := p :: g.pieces }

/-- The group with a new branch. -/
def alternate (g : Group) : Group :=
  { branches := g.branch :: g.branches }

/-- The group with its last piece repeated. -/
def repeatLast? (g : Group) : Option Group :=
  match g.pieces with
  | [] => none
  | p :: pieces =>
    if p.repeatable then some { g with pieces := ⟨1 + p.depth, true⟩ :: pieces } else none

end Group

/-- What has been read of a pattern. -/
structure State where
  /-- How the pattern is read from here on. -/
  mode : Mode := {}
  /-- The names of groups so far. -/
  names : List (List Char) := []
  /-- The group that is being read. -/
  group : Group := {}
  /-- The groups around it, the innermost first, each with the mode that comes back with it. -/
  outer : List (Mode × Group) := []
deriving Repr, DecidableEq

/-- The name of a group: it starts with a letter or an underscore. -/
def isGroupName : List Char → Bool
  | [] => false
  | c :: rest =>
    (c == '_' || Text.isAlphabetic c) &&
      rest.all fun c => "_.[]".contains c || Text.isAlphanumeric c

namespace State

/-- Goes on with one more piece. -/
def push (st : State) (p : Piece) : State :=
  { st with group := st.group.push p }

/-- Goes into a group that is read in the given mode. -/
def enter (st : State) (mode : Mode) : State :=
  { st with mode, group := {}, outer := (st.mode, st.group) :: st.outer }

/-- Goes back to the group around this one. -/
def leave? (st : State) : Option State :=
  match st.outer with
  | [] => none
  | (mode, around) :: outer =>
    some { st with mode, outer, group := around.push ⟨1 + st.group.depth, true⟩ }

/-- Goes into a group with a name. No two groups have one name. -/
def enterNamed? (st : State) (s : List Char) : Option (State × List Char) :=
  let name := s.takeWhile (· ≠ '>')
  match s.dropWhile (· ≠ '>') with
  | [] => none
  | _ :: rest =>
    if isGroupName name && !st.names.contains name then
      some ({ st with names := name :: st.names }.enter st.mode, rest)
    else none

/-- Reads flags, which are for a group of their own or for the rest of this one. -/
def flags? (st : State) (s : List Char) : Option (State × List Char) :=
  let inFlags := fun c => c ≠ ':' && c ≠ ')'
  let flags := s.takeWhile inFlags
  let mode := st.mode.withFlags flags
  match s.dropWhile inFlags with
  | [] => none
  | c :: rest =>
    if !areFlags flags then none
    else if c == ':' then some (st.enter mode, rest)
    else if flags.isEmpty then none
    else some ({ st.push ⟨0, false⟩ with mode }, rest)

/-- Reads what follows an opening parenthesis. -/
def opening? (st : State) : List Char → Option (State × List Char)
  | '?' :: 'P' :: '<' :: s => st.enterNamed? s
  | '?' :: '<' :: s => st.enterNamed? s
  | '?' :: s => st.flags? s
  | s => some (st.enter st.mode, s)

/-- Reads the next part of a pattern: the given character and what comes after it. A question mark
after a repetition belongs to it. -/
def step? (st : State) (c : Char) (s : List Char) : Option (State × List Char) :=
  match c with
  | '(' => st.opening? (st.mode.skip s)
  | ')' => st.leave?.map (·, s)
  | '|' => some ({ st with group := st.group.alternate }, s)
  | '[' => (set? st.mode s).map fun (depth, rest) => (st.push ⟨depth, true⟩, rest)
  | '?' | '*' | '+' =>
    st.group.repeatLast?.map fun group =>
      ({ st with group }, if s.head? = some '?' then s.tail else s)
  | '\x7b' => none
  | c =>
    (Symbol.read? st.mode c s).bind fun (x, rest) =>
      if x.fits st.mode then some (st.push ⟨0, true⟩, rest) else none

/-! ### Reading ends -/

theorem length_le_of_enterNamed? {st next : State} {s rest : List Char}
    (h : st.enterNamed? s = some (next, rest)) : rest.length ≤ s.length := by
  have hname := Text.length_dropWhile_le (· ≠ '>') s
  rw [enterNamed?] at h
  split at h
  · cases h
  · next hs =>
    rw [hs, List.length_cons] at hname
    split at h
    · rw [Option.some.injEq, Prod.mk.injEq] at h
      rw [← h.2]
      omega
    · cases h

theorem length_le_of_flags? {st next : State} {s rest : List Char}
    (h : st.flags? s = some (next, rest)) : rest.length ≤ s.length := by
  have hflags := Text.length_dropWhile_le (fun c => c ≠ ':' && c ≠ ')') s
  rw [flags?] at h
  dsimp only at h
  split at h
  · cases h
  · next hs =>
    rw [hs, List.length_cons] at hflags
    split at h
    · cases h
    split at h
    · rw [Option.some.injEq, Prod.mk.injEq] at h
      rw [← h.2]
      omega
    split at h
    · cases h
    · rw [Option.some.injEq, Prod.mk.injEq] at h
      rw [← h.2]
      omega

theorem length_le_of_opening? {st next : State} {s rest : List Char}
    (h : st.opening? s = some (next, rest)) : rest.length ≤ s.length := by
  rw [opening?.eq_def] at h
  split at h
  · have := length_le_of_enterNamed? h
    simp only [List.length_cons]
    omega
  · have := length_le_of_enterNamed? h
    simp only [List.length_cons]
    omega
  · exact Nat.le_succ_of_le (length_le_of_flags? h)
  · rw [Option.some.injEq, Prod.mk.injEq] at h
    exact h.2 ▸ Nat.le_refl _

theorem length_le_of_step? {st next : State} {c : Char} {s rest : List Char}
    (h : st.step? c s = some (next, rest)) : rest.length ≤ s.length := by
  have hrepeat : st.group.repeatLast?.map (fun group =>
      ({ st with group }, if s.head? = some '?' then s.tail else s)) = some (next, rest) →
        rest.length ≤ s.length := by
    intro hmap
    obtain ⟨group, -, heq⟩ := Option.map_eq_some_iff.mp hmap
    rw [Prod.mk.injEq] at heq
    rw [← heq.2]
    split
    · rw [List.length_tail]
      exact Nat.sub_le _ _
    · exact Nat.le_refl _
  rw [step?.eq_def] at h
  split at h
  · exact Nat.le_trans (length_le_of_opening? h) (st.mode.length_skip_le s)
  · obtain ⟨outside, -, heq⟩ := Option.map_eq_some_iff.mp h
    rw [Prod.mk.injEq] at heq
    exact heq.2 ▸ Nat.le_refl _
  · rw [Option.some.injEq, Prod.mk.injEq] at h
    exact h.2 ▸ Nat.le_refl _
  · obtain ⟨⟨depth, after⟩, hset, heq⟩ := Option.map_eq_some_iff.mp h
    rw [Prod.mk.injEq] at heq
    exact heq.2 ▸ Nat.le_of_lt (length_lt_of_set? hset)
  · exact hrepeat h
  · exact hrepeat h
  · exact hrepeat h
  · cases h
  · obtain ⟨⟨x, after⟩, hread, hfits⟩ := Option.bind_eq_some_iff.mp h
    dsimp only at hfits
    split at hfits
    · rw [Option.some.injEq, Prod.mk.injEq] at hfits
      exact hfits.2 ▸ Symbol.length_le_of_read? hread
    · cases hfits

/-- Each part of a pattern uses up some of the text. -/
theorem length_lt_of_step? {st next : State} {c : Char} {s after rest : List Char}
    (hs : st.mode.skip s = c :: after) (h : st.step? c after = some (next, rest)) :
    rest.length < s.length := by
  have hskip := st.mode.length_skip_le s
  rw [hs, List.length_cons] at hskip
  exact Nat.lt_of_le_of_lt (length_le_of_step? h) hskip

/-- Reads a pattern to its end and gives its depth. No group may be left open. -/
def finish? (st : State) (s : List Char) : Option Nat :=
  match hs : st.mode.skip s with
  | [] => if st.outer.isEmpty then some st.group.depth else none
  | c :: after =>
    match hstep : st.step? c after with
    | none => none
    | some (next, rest) =>
      have := length_lt_of_step? hs hstep
      next.finish? rest
termination_by s.length

end State

/-- Reads a pattern and gives its depth. -/
def depth? (s : List Char) : Option Nat :=
  State.finish? {} s

/-- The text is a pattern that is not nested too deep. -/
def isReadable (s : List Char) : Bool :=
  (depth? s).any (· ≤ maxDepth)

end LineScript.Pattern
