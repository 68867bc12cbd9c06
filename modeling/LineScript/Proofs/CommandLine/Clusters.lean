import LineScript.CommandLine.Arguments

/-!
# Letters behind one dash

Option letters may stand together behind one dash, and a value may stand in the argument of its
letter or in the next one. None of this matters: arguments mean the same if every letter gets an
argument of its own. The exception is a dash among the letters, which behind a dash of its own would
end the options.

* `Part`, `parts`: what each argument is read as, whether or not the letters are known. Every
  argument is exactly one part, so a value is nothing but a value;
* `separate`: the arguments with one letter behind each dash and every value apart. It follows the
  parts: values, the terminator and what is left over stay as they are;
* `readArguments_separateLetters`: separated letters are read as the letters together are, up to
  the first that is unknown;
* `readArguments_without`: an option's value has no effect on anything but that option;
* `DifferInValue`: two command lines differ in nothing but a value, in an argument of its own or
  behind the letter of its option;
* `parse_separated`: **separated arguments are read alike**, what is consumed as a value is not read
  as anything else, and a reading succeeds only with a single argument left over.
-/

namespace LineScript.CommandLine

/-! ### What an argument is read as -/

/-- What an argument is read as. -/
inductive Part where
  /-- Option letters behind a dash. -/
  | options (letters : List Char)
  /-- The value of an option that ended the argument before. -/
  | value (slot : Slot) (text : String)
  /-- The `--` that ends the options. -/
  | terminator
  /-- An argument that is left over, for the script. -/
  | leftOver (text : String)
deriving Repr, DecidableEq

/-- The option of a letter that takes a value. -/
def Slot.ofLetter? : Char → Option Slot
  | 'L' => some .root
  | 'p' => some .properties
  | _ => none

/-- The option among some letters whose value is to come in the next argument. -/
def awaitedBy : List Char → Option Slot
  | [] => none
  | letter :: rest =>
    match Slot.ofLetter? letter with
    | some slot => if rest.isEmpty then some slot else none
    | none => awaitedBy rest

/-- The parts of a command line, given the option whose value comes next. -/
def partsFrom : Option Slot → List String → List Part
  | _, [] => []
  | some slot, argument :: rest => .value slot argument :: partsFrom none rest
  | none, argument :: rest =>
    if argument = "--" then .terminator :: rest.map .leftOver
    else match argument.toList with
      | '-' :: letter :: letters =>
        .options (letter :: letters) :: partsFrom (awaitedBy (letter :: letters)) rest
      | _ => .leftOver argument :: partsFrom none rest

/-- The parts of a command line. -/
def parts (arguments : List String) : List Part :=
  partsFrom none arguments

/-- The text that the part leaves over. -/
def Part.leftOver? : Part → Option String
  | .leftOver text => some text
  | _ => none

/-- The arguments that are left over for the script. -/
def leftOver (arguments : List String) : List String :=
  (parts arguments).filterMap Part.leftOver?

/-! ### Separate arguments -/

/-- An argument for each letter, and one for the value that follows the first letter that takes
one. -/
def separateLetters : List Char → List String
  | [] => []
  | letter :: rest =>
    if (Slot.ofLetter? letter).isSome && !rest.isEmpty then
      [String.ofList ['-', letter], String.ofList rest]
    else String.ofList ['-', letter] :: separateLetters rest

/-- The arguments that the part is written with if its letters are separated. -/
def Part.separated : Part → List String
  | .options letters => separateLetters letters
  | .value _ text => [text]
  | .terminator => ["--"]
  | .leftOver text => [text]

/-- The arguments with a dash for each letter and every value in an argument of its own. -/
def separate (arguments : List String) : List String :=
  (parts arguments).flatMap Part.separated

/-- The letters that are read as options: those up to the first that takes a value. -/
def optionLetters : List Char → List Char
  | [] => []
  | letter :: rest =>
    if (Slot.ofLetter? letter).isSome then [letter] else letter :: optionLetters rest

/-- No option letter of the part is a dash. -/
def Part.isDashless : Part → Bool
  | .options letters => !(optionLetters letters).contains '-'
  | _ => true

/-! ### Reading letters one by one -/

variable {o o' : Options} {awaited : Option Slot} {positional arguments : List String}

/-- Letters that can be read leave open what the last one of them awaits. -/
theorem awaited_of_readLetters {letters : List Char}
    (h : readLetters o letters = .ok (o', awaited)) : awaited = awaitedBy letters := by
  -- a value is awaited if none follows the letter in the same argument
  have h_value : ∀ {o : Options} {rest : List Char} {slot : Slot},
      o.takeValue rest slot = (o', awaited) →
        awaited = if rest.isEmpty then some slot else none := by
    intro o rest slot h_take
    unfold Options.takeValue at h_take
    split at h_take <;> cases h_take <;> simp_all
  fun_induction readLetters o letters with
  | case1 o =>
    cases h
    rfl
  | case2 o rest ih => exact ih h
  | case3 o rest ih => exact ih h
  | case4 o rest ih => exact ih h
  | case5 o rest => exact h_value (Except.ok.inj h)
  | case6 o rest => exact h_value (Except.ok.inj h)
  | case7 o letter rest => cases h

/-- Letters behind a dash are read, and then what follows them. -/
theorem readArguments_options {argument : String} {letter : Char} {letters : List Char}
    (h_ne : argument ≠ "--") (h : argument.toList = '-' :: letter :: letters)
    (more : List String) :
    readArguments o none positional (argument :: more) =
      match readLetters o (letter :: letters) with
      | .ok (o, awaited) => readArguments o awaited positional more
      | .error e => .error e := by
  rw [readArguments, if_neg h_ne, h]
  rfl

/-- An argument that starts no option is put with those left over. -/
theorem readArguments_leftOver {argument : String} (h_ne : argument ≠ "--")
    (h : ∀ letter letters, argument.toList ≠ '-' :: letter :: letters) (more : List String) :
    readArguments o none positional (argument :: more) =
      readArguments o none (positional ++ [argument]) more := by
  rw [readArguments, if_neg h_ne]
  split
  · next letter letters h_eq => exact absurd h_eq (h letter letters)
  · rfl

/-- **Separated letters are read as the letters together are.** What is read afterwards, or the
first letter that is unknown, is the same. -/
theorem readArguments_separateLetters {letters : List Char} (h : '-' ∉ optionLetters letters)
    (more : List String) :
    readArguments o none positional (separateLetters letters ++ more) =
      match readLetters o letters with
      | .ok (o, awaited) => readArguments o awaited positional more
      | .error e => .error e := by
  fun_induction readLetters o letters with
  | case1 o => rfl
  | case2 o rest ih => exact ih (List.not_mem_of_not_mem_cons h)
  | case3 o rest ih => exact ih (List.not_mem_of_not_mem_cons h)
  | case4 o rest ih => exact ih (List.not_mem_of_not_mem_cons h)
  | case5 o rest =>
    -- a value in the same argument becomes an argument, and one that is to come is still to come
    cases rest <;> rfl
  | case6 o rest => cases rest <;> rfl
  | case7 o letter rest h_d h_x h_s h_L h_p =>
    -- the letter is met first in either writing, so what stands behind it does not matter
    have h_slot : Slot.ofLetter? letter = none := by
      unfold Slot.ofLetter?
      split <;> simp_all
    have h_separate : separateLetters (letter :: rest) =
        String.ofList ['-', letter] :: separateLetters rest := by
      rw [separateLetters, h_slot]
      rfl
    have h_ne : String.ofList ['-', letter] ≠ "--" := by
      intro h_eq
      obtain rfl : letter = '-' := by simpa using congrArg String.toList h_eq
      exact h List.mem_cons_self
    have h_read : ∀ rest, readLetters o (letter :: rest) = .error (.unknownOption letter) := by
      intro rest
      rw [readLetters]
      all_goals assumption
    rw [h_separate, List.cons_append, readArguments_options h_ne String.toList_ofList, h_read]

/-! ### Reading all arguments -/

/-- **Separated arguments are read as the arguments they come from.** -/
theorem readArguments_separated (h : ∀ part ∈ partsFrom awaited arguments, part.isDashless) :
    readArguments o awaited positional ((partsFrom awaited arguments).flatMap Part.separated) =
      readArguments o awaited positional arguments := by
  -- the induction follows the parts, so in each case it is known how the argument is read
  fun_induction partsFrom awaited arguments generalizing o positional with
  | case1 awaited => rfl
  | case2 slot argument rest ih =>
    exact ih fun part h_part => h part (List.mem_cons_of_mem _ h_part)
  | case3 rest =>
    -- behind the terminator every argument stays as it is
    have h_rest : (rest.map Part.leftOver).flatMap Part.separated = rest := by
      rw [List.flatMap_map]
      exact List.flatMap_singleton' rest
    rw [List.flatMap_cons, h_rest]
    rfl
  | case4 argument rest h_ne letter letters h_argument ih =>
    have h_dash : '-' ∉ optionLetters (letter :: letters) := by
      simpa [Part.isDashless] using h _ List.mem_cons_self
    rw [List.flatMap_cons, readArguments_options h_ne h_argument]
    change readArguments o none positional (separateLetters (letter :: letters) ++ _) = _
    -- the letters are read alike, and then what follows them, with the same value awaited
    rw [readArguments_separateLetters h_dash]
    cases h_read : readLetters o (letter :: letters) with
    | error e => rfl
    | ok found =>
      obtain ⟨o', awaited⟩ := found
      obtain rfl := awaited_of_readLetters h_read
      exact ih fun part h_part => h part (List.mem_cons_of_mem _ h_part)
  | case5 argument rest h_ne h_other ih =>
    rw [List.flatMap_cons]
    change readArguments o none positional (argument :: _) = _
    rw [readArguments_leftOver h_ne h_other, readArguments_leftOver h_ne h_other]
    exact ih fun part h_part => h part (List.mem_cons_of_mem _ h_part)

/-- What is left over of the arguments is put behind what was left over before. -/
theorem positional_of_readArguments {found : Options × List String}
    (h : readArguments o awaited positional arguments = .ok found) :
    found.2 = positional ++ (partsFrom awaited arguments).filterMap Part.leftOver? := by
  fun_induction partsFrom awaited arguments generalizing o positional with
  | case1 awaited =>
    cases awaited with
    | some slot => cases h
    | none =>
      cases h
      exact (List.append_nil _).symm
  | case2 slot argument rest ih => exact ih h
  | case3 rest =>
    have h_rest : (rest.map Part.leftOver).filterMap Part.leftOver? = rest := by
      rw [List.filterMap_map]
      exact List.filterMap_some
    obtain rfl := Except.ok.inj h
    rw [List.filterMap_cons_none rfl, h_rest]
  | case4 argument rest h_ne letter letters h_argument ih =>
    rw [readArguments_options h_ne h_argument] at h
    cases h_read : readLetters o (letter :: letters) with
    | error e =>
      rw [h_read] at h
      cases h
    | ok read =>
      obtain ⟨o', awaited⟩ := read
      obtain rfl := awaited_of_readLetters h_read
      rw [h_read] at h
      rw [List.filterMap_cons_none rfl]
      exact ih h
  | case5 argument rest h_ne h_other ih =>
    rw [readArguments_leftOver h_ne h_other] at h
    rw [ih h, List.append_assoc]
    rfl

/-! ### A value stays a value -/

/-- The options, with the value of one of them taken away. -/
def Options.without (o : Options) : Slot → Options
  | .root => { o with root := none }
  | .properties => { o with properties := none }

/-- What was read, with the value of one option forgotten. -/
def Slot.forget {α : Type} (slot : Slot) (read : Options × α) : Options × α :=
  (read.1.without slot, read.2)

/-- The arguments, with the value of one option taken away. -/
def Arguments.without (a : Arguments) (slot : Slot) : Arguments :=
  { a with toOptions := a.toOptions.without slot }

variable {slot : Slot}

/-- There is nothing to take away a second time. -/
@[simp]
theorem Options.without_without (o : Options) (slot : Slot) :
    (o.without slot).without slot = o.without slot := by
  cases slot <;> rfl

/-- The value of an option is all that filling it changes. -/
theorem Options.without_fill (o : Options) (value : String) (slot : Slot) :
    (o.fill value slot).without slot = o.without slot := by
  cases slot <;> rfl

/-- Filling any option keeps options alike that differ in one value only. -/
theorem Options.without_fill_congr (h : o.without slot = o'.without slot) (value : String)
    (other : Slot) : (o.fill value other).without slot = (o'.fill value other).without slot := by
  -- the option that is filled is the one that is forgotten, or another one
  have h_fill : ∀ o : Options,
      ((o.without slot).fill value other).without slot = (o.fill value other).without slot := by
    intro o
    cases slot <;> cases other <;> rfl
  rw [← h_fill, h, h_fill]

/-- So does taking a value from the rest of an argument. -/
theorem Options.without_takeValue (o : Options) (rest : List Char) (other : Slot) :
    slot.forget ((o.without slot).takeValue rest other) =
      slot.forget (o.takeValue rest other) := by
  unfold takeValue Slot.forget
  split
  · rw [without_without]
  · rw [without_fill_congr (o.without_without slot)]

/-- Letters do not look at the value of an option. -/
theorem readLetters_without (o : Options) (letters : List Char) :
    (readLetters (o.without slot) letters).map slot.forget =
      (readLetters o letters).map slot.forget := by
  fun_induction readLetters o letters with
  | case1 o => exact congrArg (fun o => Except.ok (o, none)) (o.without_without slot)
  | case2 o rest ih =>
    rw [← ih]
    cases slot <;> rfl
  | case3 o rest ih =>
    rw [← ih]
    cases slot <;> rfl
  | case4 o rest ih =>
    rw [← ih]
    cases slot <;> rfl
  | case5 o rest => exact congrArg Except.ok (o.without_takeValue rest .root)
  | case6 o rest => exact congrArg Except.ok (o.without_takeValue rest .properties)
  | case7 o letter rest h_d h_x h_s h_L h_p =>
    rw [readLetters]
    all_goals assumption

/-- Options that differ in one value only are read on alike: the same letters are unknown, the same
value is awaited, and again only that value differs. -/
theorem readLetters_cases (h : o.without slot = o'.without slot) (letters : List Char) :
    (∃ e, readLetters o letters = .error e ∧ readLetters o' letters = .error e) ∨
      ∃ p p' awaited, readLetters o letters = .ok (p, awaited) ∧
        readLetters o' letters = .ok (p', awaited) ∧ p.without slot = p'.without slot := by
  have h_map : (readLetters o letters).map slot.forget =
      (readLetters o' letters).map slot.forget := by
    rw [← readLetters_without o, h, readLetters_without o']
  cases h_o : readLetters o letters with
  | error e =>
    cases h_o' : readLetters o' letters with
    | error e' =>
      rw [h_o, h_o'] at h_map
      cases h_map
      exact .inl ⟨e, rfl, rfl⟩
    | ok r' => simp [h_o, h_o', Except.map] at h_map
  | ok r =>
    cases h_o' : readLetters o' letters with
    | error e' => simp [h_o, h_o', Except.map] at h_map
    | ok r' =>
      rw [h_o, h_o'] at h_map
      obtain ⟨h_without, h_awaited⟩ := Prod.mk.inj (Except.ok.inj h_map)
      obtain ⟨p, awaited⟩ := r
      obtain ⟨p', awaited'⟩ := r'
      obtain rfl : awaited = awaited' := h_awaited
      exact .inr ⟨p, p', awaited, rfl, rfl, h_without⟩

/-- **The value of an option has no effect on anything but that option.** -/
theorem readArguments_without (h : o.without slot = o'.without slot) :
    (readArguments o awaited positional arguments).map slot.forget =
      (readArguments o' awaited positional arguments).map slot.forget := by
  -- the parts say how each argument is read, which does not depend on the values read before
  fun_induction partsFrom awaited arguments generalizing o o' positional with
  | case1 awaited =>
    cases awaited with
    | some other => rfl
    | none => exact congrArg (fun o => Except.ok (o, positional)) h
  | case2 other argument rest ih => exact ih (Options.without_fill_congr h argument other)
  | case3 rest => exact congrArg (fun o => Except.ok (o, positional ++ rest)) h
  | case4 argument rest h_ne letter letters h_argument ih =>
    rw [readArguments_options h_ne h_argument, readArguments_options h_ne h_argument]
    rcases readLetters_cases h (letter :: letters) with
      ⟨e, h_o, h_o'⟩ | ⟨p, p', awaited, h_o, h_o', h_p⟩
    · rw [h_o, h_o']
    · rw [h_o, h_o']
      obtain rfl := awaited_of_readLetters h_o
      exact ih h_p
  | case5 argument rest h_ne h_other ih =>
    rw [readArguments_leftOver h_ne h_other, readArguments_leftOver h_ne h_other]
    exact ih h

/-- Options behind a dash, with a value that follows the letter of the last one. -/
def attachedTo (letters : List Char) (letter : Char) (value : List Char) : String :=
  String.ofList ('-' :: (letters ++ letter :: value))

section Attached

variable {letters value : List Char} {letter : Char}
  (h_letters : ∀ c ∈ letters, Slot.ofLetter? c = none)
  (h_letter : Slot.ofLetter? letter = some slot) (h_value : value ≠ [])

include h_letters h_letter h_value

/-- A value that follows the letter of its option is taken whole, after the letters before it. -/
theorem readLetters_attached :
    readLetters o (letters ++ letter :: value) =
      (readLetters o letters).map fun r => (r.1.fill (String.ofList value) slot, none) := by
  fun_induction readLetters o letters with
  | case1 o =>
    have h_take : o.takeValue value slot = (o.fill (String.ofList value) slot, none) :=
      if_neg (by rwa [List.isEmpty_iff])
    unfold Slot.ofLetter? at h_letter
    split at h_letter
    · cases h_letter
      exact congrArg Except.ok h_take
    · cases h_letter
      exact congrArg Except.ok h_take
    · cases h_letter
  | case2 o rest ih => exact ih fun c h_c => h_letters c (List.mem_cons_of_mem _ h_c)
  | case3 o rest ih => exact ih fun c h_c => h_letters c (List.mem_cons_of_mem _ h_c)
  | case4 o rest ih => exact ih fun c h_c => h_letters c (List.mem_cons_of_mem _ h_c)
  | case5 o rest => cases h_letters 'L' List.mem_cons_self
  | case6 o rest => cases h_letters 'p' List.mem_cons_self
  | case7 o unknown rest h_d h_x h_s h_L h_p =>
    rw [List.cons_append, readLetters]
    · rfl
    all_goals assumption

/-- Letters with a value attached are read as an argument of options, whatever the value is. -/
theorem readArguments_attached (more : List String) :
    readArguments o none positional (attachedTo letters letter value :: more) =
      match readLetters o letters with
      | .ok (o, _) => readArguments (o.fill (String.ofList value) slot) none positional more
      | .error e => .error e := by
  have h_text : (attachedTo letters letter value).toList = '-' :: (letters ++ letter :: value) :=
    String.toList_ofList
  have h_ne : attachedTo letters letter value ≠ "--" := by
    intro h_eq
    -- the letter of the option would be a dash
    have h_mem : letter ∈ ['-'] := by
      have h_tail : letters ++ letter :: value = ['-'] := by
        simpa [h_text] using congrArg String.toList h_eq
      simp [← h_tail]
    rw [List.mem_singleton.mp h_mem] at h_letter
    cases h_letter
  -- there is at least the letter of the option behind the dash, so this is an argument of letters
  obtain ⟨first, tail, h_cons⟩ :=
    List.exists_cons_of_ne_nil (List.append_ne_nil_of_right_ne_nil letters
      (List.cons_ne_nil letter value))
  -- the letters before it are read first, and the value is taken with its own letter
  rw [readArguments_options h_ne (h_text.trans (congrArg _ h_cons)), ← h_cons,
    readLetters_attached h_letters h_letter h_value]
  cases readLetters o letters with
  | error e => rfl
  | ok read => rfl

end Attached

/-- Two command lines that differ in one argument only, and not in one that is left over, are read
alike if they are from that argument on. -/
theorem readArguments_exchange {front tail tail' : List String} {part : Part}
    (h_part : part.leftOver? = none)
    (h : (partsFrom awaited (front ++ tail))[front.length]? = some part)
    (h_tail : ∀ {o awaited positional}, (partsFrom awaited tail)[0]? = some part →
      (readArguments o awaited positional tail).map slot.forget =
        (readArguments o awaited positional tail').map slot.forget) :
    (readArguments o awaited positional (front ++ tail)).map slot.forget =
      (readArguments o awaited positional (front ++ tail')).map slot.forget := by
  -- the arguments in front are the same in both, so they are read alike one by one
  induction front generalizing o awaited positional with
  | nil => exact h_tail h
  | cons argument front ih =>
    cases awaited with
    -- an argument that is awaited is consumed without being looked at
    | some slot' => exact ih h
    | none =>
      rw [List.cons_append, partsFrom] at h
      split at h
      · -- behind the terminator everything is left over
        rw [List.length_cons, List.getElem?_cons_succ, List.getElem?_map,
          Option.map_eq_some_iff] at h
        obtain ⟨text, -, rfl⟩ := h
        cases h_part
      · next h_ne =>
        split at h
        · next letter letters h_argument =>
          rw [List.cons_append, List.cons_append, readArguments_options h_ne h_argument,
            readArguments_options h_ne h_argument]
          cases h_read : readLetters o (letter :: letters) with
          | error e => rfl
          | ok read =>
            obtain ⟨o', awaited⟩ := read
            obtain rfl := awaited_of_readLetters h_read
            exact ih h
        · next h_other =>
          rw [List.cons_append, List.cons_append, readArguments_leftOver h_ne h_other,
            readArguments_leftOver h_ne h_other]
          exact ih h

/-- The two command lines differ in nothing but what is consumed as the value of one option. -/
inductive DifferInValue (slot : Slot) : List String → List String → Prop
  /-- The value is an argument of its own. -/
  | apart {front rest : List String} {value : String}
      (h : (parts (front ++ value :: rest))[front.length]? = some (.value slot value))
      (other : String) : DifferInValue slot (front ++ value :: rest) (front ++ other :: rest)
  /-- The value follows the letter of the option in the same argument. -/
  | attached {front rest : List String} {letters value other : List Char} {letter : Char}
      (h_letters : ∀ c ∈ letters, Slot.ofLetter? c = none)
      (h_letter : Slot.ofLetter? letter = some slot) (h_value : value ≠ []) (h_other : other ≠ [])
      (h : (parts (front ++ attachedTo letters letter value :: rest))[front.length]? =
        some (.options (letters ++ letter :: value))) :
      DifferInValue slot (front ++ attachedTo letters letter value :: rest)
        (front ++ attachedTo letters letter other :: rest)

/-- Only an argument that is awaited is read as a value. -/
theorem awaited_of_value {value : String} {rest : List String}
    (h : (partsFrom awaited (value :: rest))[0]? = some (.value slot value)) :
    awaited = some slot := by
  cases awaited with
  | some slot' =>
    rw [partsFrom] at h
    cases h
    rfl
  | none =>
    rw [partsFrom] at h
    split at h
    · cases h
    · split at h <;> cases h

/-- And one that is awaited is not read as letters. -/
theorem awaited_of_options {argument : String} {letters : List Char} {rest : List String}
    (h : (partsFrom awaited (argument :: rest))[0]? = some (.options letters)) :
    awaited = none := by
  cases awaited with
  | some slot' => cases h
  | none => rfl

/-- **Whatever stands in the place of a value, the other options and what is left over stay the
same.** -/
theorem readArguments_of_differInValue {others : List String}
    (h : DifferInValue slot arguments others) :
    (readArguments o none positional arguments).map slot.forget =
      (readArguments o none positional others).map slot.forget := by
  cases h with
  | @apart front rest value h other =>
    refine readArguments_exchange rfl h ?_
    intro o awaited positional h_part
    -- the value is an argument of its own: it fills the option that awaits it
    obtain rfl := awaited_of_value h_part
    have h_fill : (o.fill value slot).without slot = (o.fill other slot).without slot := by
      rw [Options.without_fill, Options.without_fill]
    exact readArguments_without h_fill
  | @attached front rest letters value other letter h_letters h_letter h_value h_other h =>
    refine readArguments_exchange rfl h ?_
    intro o awaited positional h_part
    -- the value follows its letter: the letters before it are read alike in both
    obtain rfl := awaited_of_options h_part
    rw [readArguments_attached h_letters h_letter h_value,
      readArguments_attached h_letters h_letter h_other]
    cases readLetters o letters with
    | error e => rfl
    | ok read =>
      refine readArguments_without ?_
      rw [Options.without_fill, Options.without_fill]

/-! ### Reading a command's arguments -/

/-- A command that is accepted has read its options and exactly one argument besides. -/
theorem readArguments_of_parse {a : Arguments} (h : Arguments.parse arguments = .ok a) :
    readArguments {} none [] arguments = .ok (a.toOptions, [a.script]) := by
  unfold Arguments.parse at h
  split at h
  · cases h
  · cases h
  · next h_read =>
    cases h
    exact h_read
  · cases h

/-- Readings that differ in one value only have outcomes that differ in that value only. -/
theorem parse_without_congr {others : List String}
    (h : (readArguments {} none [] arguments).map slot.forget =
      (readArguments {} none [] others).map slot.forget) :
    (Arguments.parse arguments).map (·.without slot) =
      (Arguments.parse others).map (·.without slot) := by
  unfold Arguments.parse
  cases h_read : readArguments {} none [] arguments with
  | error e =>
    cases h_others : readArguments {} none [] others with
    | error e' =>
      rw [h_read, h_others] at h
      cases h
      rfl
    | ok r' => simp [h_read, h_others, Except.map] at h
  | ok r =>
    cases h_others : readArguments {} none [] others with
    | error e' => simp [h_read, h_others, Except.map] at h
    | ok r' =>
      obtain ⟨o, positional⟩ := r
      obtain ⟨o', positional'⟩ := r'
      rw [h_read, h_others] at h
      obtain ⟨h_options, h_positional⟩ := Prod.mk.inj (Except.ok.inj h)
      obtain rfl : positional = positional' := h_positional
      -- how many arguments are left over is the same in both, and decides between the complaints
      match positional with
      | [] => rfl
      | [script] =>
        exact congrArg (fun options => Except.ok (Arguments.mk options script)) h_options
      | _ :: _ :: _ => rfl

/-- **Clustered and separated options mean the same.** As long as no option letter is a dash, the
arguments with a dash for each letter and every value apart come to the same options and the same
script, or to the same complaint. What is consumed as the value of an option is not read as anything
else: any other text in its place, be it a letter behind a dash, `--` or a name, leaves all but that
option as it is. And a command is accepted only with a single argument left over, its script. -/
theorem parse_separated :
    (∀ arguments : List String, (∀ part ∈ parts arguments, part.isDashless) →
      Arguments.parse (separate arguments) = Arguments.parse arguments) ∧
    (∀ (arguments others : List String) (slot : Slot), DifferInValue slot arguments others →
      (Arguments.parse arguments).map (·.without slot) =
        (Arguments.parse others).map (·.without slot)) ∧
    ∀ (arguments : List String) (a : Arguments), Arguments.parse arguments = .ok a →
      leftOver arguments = [a.script] := by
  refine ⟨?_, ?_, ?_⟩
  · intro arguments h
    rw [Arguments.parse, Arguments.parse, separate, parts, readArguments_separated h]
  · intro arguments others slot h
    exact parse_without_congr (readArguments_of_differInValue h)
  · intro arguments a h
    exact (positional_of_readArguments (readArguments_of_parse h)).symm

/-- A value that looks like a cluster stays a value, and it does not matter what it looks like,
whether it stands in an argument of its own or behind its letter. -/
theorem parse_separated_lookalike :
    (∀ part ∈ parts ["-dxL", "--", "-sprules", "main"], part.isDashless) ∧
      Arguments.parse ["-d", "-x", "-L", "--", "-s", "-p", "rules", "main"] =
        Arguments.parse ["-dxL", "--", "-sprules", "main"] ∧
      (Arguments.parse ["-dxL", "--", "-sprules", "main"]).map (·.without .root) =
        (Arguments.parse ["-dxL", "-q", "-sprules", "main"]).map (·.without .root) ∧
      (Arguments.parse ["-dxL", "--", "-sprules", "main"]).map (·.without .properties) =
        (Arguments.parse ["-dxL", "--", "-sp-L", "main"]).map (·.without .properties) ∧
      leftOver ["-dxL", "--", "-sprules", "main"] = ["main"] := by
  obtain ⟨h_separate, h_value, h_script⟩ := parse_separated
  have h_dashless : ∀ part ∈ parts ["-dxL", "--", "-sprules", "main"], part.isDashless := by decide
  have h_apart : DifferInValue .root (["-dxL"] ++ "--" :: ["-sprules", "main"])
      (["-dxL"] ++ "-q" :: ["-sprules", "main"]) := .apart (by decide) "-q"
  have h_attached : DifferInValue .properties
      (["-dxL", "--"] ++ attachedTo ['s'] 'p' "rules".toList :: ["main"])
      (["-dxL", "--"] ++ attachedTo ['s'] 'p' "-L".toList :: ["main"]) :=
    .attached (by simp [Slot.ofLetter?]) rfl (by decide) (by decide) (by decide)
  have h_ok : Arguments.parse ["-dxL", "--", "-sprules", "main"] =
      .ok { root := some "--", properties := some "rules", debug := true, abortOnError := true,
            step := true, script := "main" } := rfl
  exact ⟨h_dashless, h_separate _ h_dashless, h_value _ _ _ h_apart, h_value _ _ _ h_attached,
    h_script _ _ h_ok⟩

end LineScript.CommandLine
