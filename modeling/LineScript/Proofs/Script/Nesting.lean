import LineScript.Proofs.Script.Blocks

/-!
# Which scripts are well nested

`Script.parse` reads blocks inside blocks, and hands what ended a block to whoever asked for it.
Whether a script is accepted can be said without blocks: go through its lines once and keep the
`if`s that are open, the innermost first, each with its line and whether its `else` was met. This
module gives that walk and shows that reading a script comes to the same.

* `OpenIf`, `pass`: one line of the walk. An assignment sign decides first what a line is, then its
  leading word;
* `audit`: the whole walk. It stops at the first line that is refused, and at the end of the source
  no `if` may be open;
* `audit_eq_read`: **what a walk comes to from any stack of open `if`s**. Reading a block brings the
  walk to the line that ended the block with the stack it started from, so what happens there
  depends on the stack alone;
* `exists_badLine_of_parse`: nothing is refused but for a line that cannot be read;
* `parse_eq_audit`: the two agree on every source, errors included.
-/

namespace LineScript.Script

/-- An `if` whose `end` is still to come. -/
structure OpenIf where
  /-- The line that it stands on. -/
  line : Nat
  /-- Its `else` was met. -/
  elseSeen : Bool
deriving Repr, DecidableEq

/-- Meets a bare `else`, which belongs to the innermost open `if`. -/
def meetElse (line : Nat) : List OpenIf → Except Error (List OpenIf)
  | [] => .error (.badLine line .strayElse)
  | ⟨ifLine, true⟩ :: _ => .error (.badLine line (.secondElse ifLine))
  | ⟨ifLine, false⟩ :: outer => .ok (⟨ifLine, true⟩ :: outer)

/-- Meets a bare `end`, which closes the innermost open `if`. -/
def meetEnd (line : Nat) : List OpenIf → Except Error (List OpenIf)
  | [] => .error (.badLine line .strayEnd)
  | _ :: outer => .ok outer

/-- Goes past one line with some `if`s open, the innermost first: the stack after it, or why the
line is refused. -/
def pass (stack : List OpenIf) (l : Line) : Except Error (List OpenIf) :=
  match assignment? l.text with
  -- an assignment sign decides before any keyword does
  | some (name, _) =>
    if name = "true".toList ∨ name = "false".toList then
      .error (.badLine l.number (.assignsLiteral (String.ofList name)))
    else .ok stack
  | none =>
    let word := (Text.leadingWord l.text).1
    let rest := Text.trim (Text.leadingWord l.text).2
    if word = "if".toList then
      if rest = [] then .error (.badLine l.number .missingCondition)
      else .ok (⟨l.number, false⟩ :: stack)
    else if word = "else".toList ∧ rest = [] then meetElse l.number stack
    else if word = "end".toList ∧ rest = [] then meetEnd l.number stack
    else .ok stack

/-- At the end of the source no `if` may be open. -/
def finish : List OpenIf → Except Error Unit
  | [] => .ok ()
  | innermost :: _ => .error (.badLine innermost.line .unclosedIf)

/-- Goes through lines with some `if`s already open. -/
def audit (stack : List OpenIf) (ls : List Line) : Except Error Unit :=
  ls.foldlM pass stack >>= finish

/-! ### One line -/

/-- The walk goes past the first line and on from the stack that this line leaves. -/
theorem audit_cons (stack : List OpenIf) (l : Line) (rest : List Line) :
    audit stack (l :: rest) = pass stack l >>= fun stack => audit stack rest := by
  unfold audit
  rw [List.foldlM_cons, bind_assoc]

/-- A line is passed by what it is. -/
theorem pass_eq_of_form (stack : List OpenIf) (l : Line) :
    pass stack l =
      match form l.text with
      | .assignment name _ =>
        if isLiteralName name then
          .error (.badLine l.number (.assignsLiteral (String.ofList name)))
        else .ok stack
      | .alternative => meetElse l.number stack
      | .closing => meetEnd l.number stack
      | .command => .ok stack
      | .opening condition =>
        if condition.isEmpty then .error (.badLine l.number .missingCondition)
        else .ok (⟨l.number, false⟩ :: stack) := by
  unfold pass form
  cases assignment? l.text with
  | some parts => simp [isLiteralName]
  | none =>
    -- an opening line may have a condition, so `if` is told by its word alone; the other two
    -- keywords have to stand by themselves
    simp only [keywordForm, Bool.and_eq_true, decide_eq_true_eq, List.isEmpty_iff]
    by_cases h_if : (Text.leadingWord l.text).1 = "if".toList
    · rw [if_pos h_if, if_pos h_if]
    rw [if_neg h_if, if_neg h_if]
    by_cases h_else : (Text.leadingWord l.text).1 = "else".toList ∧
        Text.trim (Text.leadingWord l.text).2 = []
    · rw [if_pos h_else, if_pos h_else]
    rw [if_neg h_else, if_neg h_else]
    by_cases h_end : (Text.leadingWord l.text).1 = "end".toList ∧
        Text.trim (Text.leadingWord l.text).2 = []
    · rw [if_pos h_end, if_pos h_end]
    · rw [if_neg h_end, if_neg h_end]

/-! ### Blocks -/

/-- What becomes of the walk after a block that was read: it meets the line that ended the block,
with the stack from before the block, and goes on from there. -/
def resume (stack : List OpenIf) (r : Reading) : Except Error Unit :=
  match r.ending with
  | .source => finish stack
  | .alternative line => meetElse line stack >>= fun stack => audit stack r.rest
  | .closing line => meetEnd line stack >>= fun stack => audit stack r.rest

/-- A statement that stands before a block has no part in how the block ends. -/
theorem map_cons_bind_resume (x : Except Error Reading) (s : Statement) (stack : List OpenIf) :
    x.map (.cons s) >>= resume stack = x >>= resume stack := by
  cases x <;> rfl

section Shorter

variable {n : Nat}
  (h_shorter : ∀ ls : List Line, ls.length ≤ n →
    ∀ stack, audit stack ls = read ls >>= resume stack)

include h_shorter

/-- The blocks of an `if` bring the walk back to the stack from before the `if`. -/
theorem resume_readBranch {first : Reading} (h : first.rest.length ≤ n) (line : Nat)
    (condition : List Char) (stack : List OpenIf) :
    resume (⟨line, false⟩ :: stack) first =
      readBranch line condition first >>= resume stack := by
  obtain ⟨statements, ending, rest⟩ := first
  cases ending with
  -- neither the walk nor the reading can close the `if` any more
  | source => rfl
  | closing closed =>
    -- the `end` takes the `if` off the stack
    change audit stack rest = (read rest).map (.cons _) >>= resume stack
    rw [map_cons_bind_resume, h_shorter rest h]
  | alternative met =>
    -- the `else` stays with the `if` until the second block has ended
    change audit (⟨line, true⟩ :: stack) rest = (read rest >>= _) >>= resume stack
    rw [h_shorter rest h, bind_assoc]
    -- how the second block ended decides, and only an `end` brings the walk back to the old stack
    cases h_read : read rest with
    | error e => rfl
    | ok second =>
      have h_second : second.rest.length ≤ n := Nat.le_trans (length_rest_le h_read) h
      obtain ⟨others, ending, last⟩ := second
      cases ending with
      | source => rfl
      | alternative again => rfl
      | closing closed =>
        change audit stack last = (read last).map (.cons _) >>= resume stack
        rw [map_cons_bind_resume, h_shorter last h_second]

end Shorter

/-- **A walk follows the blocks.** By induction on the number of lines, for all stacks at once: the
blocks of an `if` are walked with the `if` on the stack. -/
theorem audit_eq_read (stack : List OpenIf) (ls : List Line) :
    audit stack ls = read ls >>= resume stack := by
  induction h_length : ls.length using Nat.strongRecOn generalizing ls stack with
  | ind n ih =>
    cases ls with
    | nil => rw [read_nil]; rfl
    | cons l rest =>
      rw [List.length_cons] at h_length
      have h_shorter : ∀ ls : List Line, ls.length ≤ rest.length →
          ∀ stack, audit stack ls = read ls >>= resume stack :=
        fun ls h_ls stack => ih ls.length (by omega) stack ls rfl
      -- both sides now ask what the first line is, so the cases are those of its form
      rw [audit_cons, pass_eq_of_form, read_cons]
      cases form l.text with
      | assignment name expression =>
        dsimp only
        split
        · rfl
        · rw [map_cons_bind_resume]
          exact h_shorter rest (Nat.le_refl _) stack
      | alternative => rfl
      | closing => rfl
      | command =>
        rw [map_cons_bind_resume]
        exact h_shorter rest (Nat.le_refl _) stack
      | opening condition =>
        dsimp only
        split
        · rfl
        · -- the block of the `if` is walked with one more `if` on the stack, which is why the stack
          -- is not fixed in the induction
          change audit (⟨l.number, false⟩ :: stack) rest = (read rest >>= _) >>= resume stack
          rw [h_shorter rest (Nat.le_refl _), bind_assoc]
          cases h_read : read rest with
          | error e => rfl
          | ok first => exact resume_readBranch h_shorter (length_rest_le h_read) _ _ _

/-! ### What is refused -/

/-- A line is only refused for what it says or for where it stands. -/
theorem exists_badLine_of_pass {stack : List OpenIf} {l : Line} {e : Error}
    (h : pass stack l = .error e) : ∃ line fault, e = .badLine line fault := by
  rw [pass_eq_of_form] at h
  cases h_form : form l.text with
  | assignment name expression =>
    simp only [h_form] at h
    split at h <;> cases h
    exact ⟨_, _, rfl⟩
  | alternative =>
    simp only [h_form] at h
    unfold meetElse at h
    split at h <;> cases h <;> exact ⟨_, _, rfl⟩
  | closing =>
    simp only [h_form] at h
    unfold meetEnd at h
    split at h <;> cases h
    exact ⟨_, _, rfl⟩
  | command =>
    rw [h_form] at h
    cases h
  | opening condition =>
    simp only [h_form] at h
    split at h <;> cases h
    exact ⟨_, _, rfl⟩

/-- So a walk only fails at a line, where the line of an `if` that is never closed counts too. -/
theorem exists_badLine_of_audit {stack : List OpenIf} {ls : List Line} {e : Error}
    (h : audit stack ls = .error e) : ∃ line fault, e = .badLine line fault := by
  induction ls generalizing stack with
  -- no line is left, so the fault is that of the innermost `if` that is still open
  | nil =>
    cases stack with
    | nil => cases h
    | cons innermost outer =>
      cases h
      exact ⟨_, _, rfl⟩
  | cons l rest ih =>
    rw [audit_cons] at h
    cases h_pass : pass stack l with
    | error e' =>
      rw [h_pass] at h
      cases h
      exact exists_badLine_of_pass h_pass
    | ok stack' =>
      rw [h_pass] at h
      exact ih h

/-- A script that cannot be read has a line that cannot be read. -/
theorem exists_badLine_of_parse {source : String} {e : Error} (h : parse source = .error e) :
    ∃ line fault, e = .badLine line fault := by
  rw [parse, ofLines_eq_read] at h
  cases h_read : read (lines source.toList) with
  | error e' =>
    -- blocks fail where the walk does
    have h_audit : audit [] (lines source.toList) = .error e' := by
      rw [audit_eq_read, h_read]
      rfl
    rw [h_read] at h
    cases h
    exact exists_badLine_of_audit h_audit
  | ok r =>
    rw [h_read] at h
    -- the lines were read, but the outermost block ended before the source did
    obtain ⟨statements, ending, rest⟩ := r
    cases ending with
    | source => cases h
    | alternative line =>
      cases h
      exact ⟨_, _, rfl⟩
    | closing line =>
      cases h
      exact ⟨_, _, rfl⟩

/-- **Reading a script accepts exactly what the walk over its lines accepts, and fails as it does.**
-/
theorem parse_eq_audit (source : String) :
    (parse source).map (fun _ => ()) = audit [] (lines source.toList) := by
  rw [parse, ofLines_eq_read, audit_eq_read]
  cases read (lines source.toList) with
  | error e => rfl
  | ok r =>
    obtain ⟨statements, ending, rest⟩ := r
    cases ending <;> rfl

end LineScript.Script
