import LineScript.Pattern.Mode

/-!
# Symbols of a pattern

A symbol is the least part of a pattern: a character, or something that a backslash gives a meaning
to. What a symbol may be depends on whether the pattern is about characters or about bytes. A
pattern about bytes must not match a part of a character, so nothing in it may take in single bytes
beyond ASCII; and the edges of words are those of words in ASCII, so only a pattern about bytes can
speak of them.

* `Symbol.read?`, `Symbol.escape?`: the written form;
* `Symbol.fits`, `Symbol.fitsSet`: the symbol may stand in a pattern, or in a set of characters;
* `Symbol.length_lt_of_escape?`: reading a symbol uses up some of the text.
-/

namespace LineScript.Pattern

/-- The least part of a pattern. -/
inductive Symbol where
  /-- A character. -/
  | literal (c : Char)
  /-- A character given as two hexadecimal digits, which in a pattern about bytes is a byte. -/
  | byte (c : Char)
  /-- The digits, the blanks or the word characters, or all but those. -/
  | shorthand (others : Bool)
  /-- The characters of a general category of Unicode, or all but those. -/
  | category
  /-- Any character. -/
  | any
  /-- The start or the end of a line or of the text. -/
  | anchor
  /-- The start or the end of a word, or any place but those. -/
  | wordEdge
deriving Repr, DecidableEq

namespace Symbol

/-- The character that the symbol stands for. -/
def char? : Symbol → Option Char
  | literal c => some c
  | byte c => some c
  | _ => none

/-- The symbol may stand in a pattern that is read in this mode. -/
def fits (m : Mode) : Symbol → Bool
  | literal _ => true
  | byte c => m.unicode || c.toNat < 0x80
  | shorthand others => m.unicode || !others
  | category => m.unicode
  | any => m.unicode
  | anchor => true
  | wordEdge => !m.unicode

/-- The symbol may stand in a set of characters that is read in this mode. -/
def fitsSet (m : Mode) : Symbol → Bool
  | literal c => m.unicode || c.toNat < 0x80
  | byte c => m.unicode || c.toNat < 0x80
  | shorthand others => m.unicode || !others
  | category => m.unicode
  | any => false
  | anchor => false
  | wordEdge => false

end Symbol

/-! ### Characters by number -/

/-- The value of a hexadecimal digit. -/
def hexDigit? (c : Char) : Option Nat :=
  if c.isDigit then some (c.toNat - '0'.toNat)
  else if 'a' ≤ c && c ≤ 'f' then some (10 + (c.toNat - 'a'.toNat))
  else if 'A' ≤ c && c ≤ 'F' then some (10 + (c.toNat - 'A'.toNat))
  else none

/-- Reads so many hexadecimal digits as a number, after the digits of `value`. -/
def hexDigits? (m : Mode) : (count value : Nat) → List Char → Option (Nat × List Char)
  | 0, value, s => some (value, s)
  | count + 1, value, s =>
    match m.skip s with
    | [] => none
    | c :: rest => (hexDigit? c).bind fun digit => hexDigits? m count (16 * value + digit) rest

theorem length_le_of_hexDigits? {m : Mode} {count value number : Nat} {s rest : List Char}
    (h : hexDigits? m count value s = some (number, rest)) : rest.length ≤ s.length := by
  induction count generalizing value s with
  | zero =>
    rw [hexDigits?, Option.some.injEq, Prod.mk.injEq] at h
    exact h.2 ▸ Nat.le_refl _
  | succ count ih =>
    have hskip := m.length_skip_le s
    rw [hexDigits?] at h
    split at h
    · cases h
    · next hs =>
      obtain ⟨digit, -, hdigits⟩ := Option.bind_eq_some_iff.mp h
      have hrest := ih hdigits
      rw [hs, List.length_cons] at hskip
      omega

/-- Reads a character that is given as so many hexadecimal digits. -/
def hexChar? (m : Mode) (count : Nat) (s : List Char) : Option (Char × List Char) :=
  (hexDigits? m count 0 s).bind fun (number, rest) =>
    if number.isValidChar then some (Char.ofNat number, rest) else none

theorem length_le_of_hexChar? {m : Mode} {count : Nat} {c : Char} {s rest : List Char}
    (h : hexChar? m count s = some (c, rest)) : rest.length ≤ s.length := by
  obtain ⟨⟨number, after⟩, hdigits, hchar⟩ := Option.bind_eq_some_iff.mp h
  dsimp only at hchar
  split at hchar
  · rw [Option.some.injEq, Prod.mk.injEq] at hchar
    exact hchar.2 ▸ length_le_of_hexDigits? hdigits
  · cases hchar

/-! ### What follows a backslash -/

/-- The letters of general categories, of which each stands for a family of them. -/
def categoryLetters : List Char :=
  ['c', 'l', 'm', 'n', 'p', 's', 'z']

/-- The character that an escaped character stands for: a control character for some letters, and
for all of ASCII but letters and digits the character itself. -/
def escapedChar? : Char → Option Char
  | 'a' => some '\x07'
  | 'f' => some '\x0c'
  | 't' => some '\t'
  | 'n' => some '\n'
  | 'r' => some '\r'
  | 'v' => some '\x0b'
  | c => if c.toNat < 0x80 && !c.isAlphanum then some c else none

namespace Symbol

/-- Reads the letter of a category. -/
def category? : List Char → Option (Symbol × List Char)
  | [] => none
  | c :: rest => if categoryLetters.contains c.toLower then some (category, rest) else none

theorem length_lt_of_category? {x : Symbol} {s rest : List Char}
    (h : category? s = some (x, rest)) : rest.length < s.length := by
  cases s with
  | nil => cases h
  | cons c s =>
    rw [category?] at h
    split at h
    · rw [Option.some.injEq, Prod.mk.injEq] at h
      exact h.2 ▸ Nat.lt_succ_self _
    · cases h

/-- The symbol that a character after a backslash stands for by itself. -/
def ofEscaped? : Char → Option Symbol
  | 'd' | 's' | 'w' => some (shorthand false)
  | 'D' | 'S' | 'W' => some (shorthand true)
  | 'A' | 'z' => some anchor
  | 'b' | 'B' | '<' | '>' => some wordEdge
  | c => (escapedChar? c).map literal

/-- Reads what follows a backslash: the given character and what comes after it. -/
def escaped? (m : Mode) (c : Char) (s : List Char) : Option (Symbol × List Char) :=
  match c with
  | 'x' => (hexChar? m 2 s).map fun (c, rest) => (byte c, rest)
  | 'u' => (hexChar? m 4 s).map fun (c, rest) => (literal c, rest)
  | 'U' => (hexChar? m 8 s).map fun (c, rest) => (literal c, rest)
  | 'p' | 'P' => category? (m.skip s)
  | c => (ofEscaped? c).map (·, s)

theorem length_le_of_escaped? {m : Mode} {c : Char} {x : Symbol} {s rest : List Char}
    (h : escaped? m c s = some (x, rest)) : rest.length ≤ s.length := by
  have hhex : ∀ count (f : Char → Symbol),
      (hexChar? m count s).map (fun (c, rest) => (f c, rest)) = some (x, rest) →
        rest.length ≤ s.length := by
    intro count f hmap
    obtain ⟨⟨c, after⟩, hchar, heq⟩ := Option.map_eq_some_iff.mp hmap
    rw [Prod.mk.injEq] at heq
    exact heq.2 ▸ length_le_of_hexChar? hchar
  have hcategory : category? (m.skip s) = some (x, rest) → rest.length ≤ s.length :=
    fun hletter => Nat.le_trans (Nat.le_of_lt (length_lt_of_category? hletter)) (m.length_skip_le s)
  rw [escaped?.eq_def] at h
  split at h
  · exact hhex 2 byte h
  · exact hhex 4 literal h
  · exact hhex 8 literal h
  · exact hcategory h
  · exact hcategory h
  · obtain ⟨y, -, heq⟩ := Option.map_eq_some_iff.mp h
    rw [Prod.mk.injEq] at heq
    exact heq.2 ▸ Nat.le_refl _

/-- Reads what follows a backslash. -/
def escape? (m : Mode) : List Char → Option (Symbol × List Char)
  | [] => none
  | c :: rest => escaped? m c rest

/-- Reading an escaped character uses up some of the text. -/
theorem length_lt_of_escape? {m : Mode} {x : Symbol} {s rest : List Char}
    (h : escape? m s = some (x, rest)) : rest.length < s.length := by
  cases s with
  | nil => cases h
  | cons c s => exact Nat.lt_succ_of_le (length_le_of_escaped? h)

/-- Reads a symbol outside sets: the given character and what comes after it. -/
def read? (m : Mode) (c : Char) (s : List Char) : Option (Symbol × List Char) :=
  match c with
  | '\\' => escape? m s
  | '.' => some (any, s)
  | '^' | '$' => some (anchor, s)
  | c => some (literal c, s)

theorem length_le_of_read? {m : Mode} {c : Char} {x : Symbol} {s rest : List Char}
    (h : read? m c s = some (x, rest)) : rest.length ≤ s.length := by
  have hsame : ∀ y : Symbol, some (y, s) = some (x, rest) → rest.length ≤ s.length := by
    intro y heq
    rw [Option.some.injEq, Prod.mk.injEq] at heq
    exact heq.2 ▸ Nat.le_refl _
  rw [read?.eq_def] at h
  split at h
  · exact Nat.le_of_lt (length_lt_of_escape? h)
  all_goals exact hsame _ h

end Symbol

end LineScript.Pattern
