import LineScript.Proofs.Resolve.Simulation

/-!
# Resolution terminates

Resolution is a recursion on texts: a layer hands the inside of a group, the sides of its cuts and
what follows a sign to further layers, and these do the same. As a definition it has a budget of
layers. This module shows that the budget is no more than a device, by looking at the calls that are
made.

* `resolveLogged`: the resolver with a log. Each call is put down together with the calls on whose
  behalf it is made, so the log holds the call stack at every moment at which it grows;
* `Descends`: logging changes nothing but the log, and in every call stack each text is strictly
  shorter, once trimmed, than the one that it was called for. So a stack is never higher than the
  text at its bottom is long, plus one (`IsDescent.length_le`). `resolveLogged_simulates` is the
  induction behind it, and it holds for every budget;
* `isResolver_iff`: without a budget the recursion has exactly one solution, which is `resolved`;
* `Determines`: the answers to what is asked of an expression can be read off a resolver;
* `resolution_terminates`: the calls that resolving, locating and evaluating make all descend, and
  **every budget above the length of the expression determines the answers**.
-/

namespace LineScript.Resolve

open Scan (group?)

variable {σ α : Type}

/-! ### Calls -/

/-- The trimmed texts that are being resolved at some moment, the innermost first. Each of them is
resolved on behalf of the next one. -/
abbrev CallStack := List (List Char)

/-- Keeps what another notebook keeps, and a log of calls beside it. -/
def Notebook.logged (book : Notebook σ) : Notebook (σ × List CallStack) where
  start := (book.start, [])
  remembered text notes := book.remembered text notes.1
  record text outcome notes := (book.record text outcome notes.1, notes.2)
  missing notes := book.missing notes.1
  note step notes := (book.note step notes.1, notes.2)

/-- Puts down a call stack. -/
def logCall (stack : CallStack) : StateM (σ × List CallStack) Unit :=
  modify fun notes => (notes.1, notes.2 ++ [stack])

/-- The value of a text, found with at most so many nested layers, with a log of all calls. The call
itself is put down first, on top of those on whose behalf it is made. -/
def resolveLogged (book : Notebook σ) (scope : Scope) :
    Nat → CallStack → List Char → StateM (σ × List CallStack) (Except Error Value)
  | 0, callers, text => do
    logCall (Text.trim text :: callers)
    return .error (.unresolvable "")
  | budget + 1, callers, text => do
    logCall (Text.trim text :: callers)
    attempt scope (fun step => modify (book.logged.note step))
      (operandWith book.logged (resolveLogged book scope budget (Text.trim text :: callers)))
      (resolveLogged book scope budget (Text.trim text :: callers)) (Text.trim text)

/-- The operands of a trimmed text that is searched on its own, with a log of all calls made for
them. -/
def operandLogged (book : Notebook σ) (scope : Scope) (budget : Nat) (text : List Char) :
    Operand (σ × List CallStack) :=
  operandWith book.logged (resolveLogged book scope budget [text])

/-- The stack stands on `root`, and every text in it is shorter than the one below. -/
structure IsDescent (root : List Char) (stack : CallStack) : Prop where
  /-- Each text is shorter than the one that it was called for. -/
  isChain : stack.IsChain fun callee caller => callee.length < caller.length
  /-- The first call is the one for `root`. -/
  getLast? : stack.getLast? = some root

namespace IsDescent

variable {root : List Char} {stack : CallStack}

/-- A first call stands on its own text. -/
theorem bottom (root : List Char) : IsDescent root [root] where
  isChain := .singleton root
  getLast? := rfl

/-- A call on a shorter text keeps the descent. -/
theorem call {callee caller : List Char} {callers : CallStack}
    (h : IsDescent root (caller :: callers)) (h_length : callee.length < caller.length) :
    IsDescent root (callee :: caller :: callers) where
  isChain := List.isChain_cons_cons.mpr ⟨h_length, h.isChain⟩
  getLast? := by rw [List.getLast?_cons_cons, h.getLast?]

/-- Lengths fall by at least one from text to text, and the last one is not negative. -/
theorem length_le (h : IsDescent root stack) : stack.length ≤ root.length + 1 := by
  -- the text on top takes its own length off what is left for the others
  have h_top : ∀ top : List Char, stack.head? = some top →
      stack.length + top.length ≤ root.length + 1 := by
    obtain ⟨h_chain, h_last⟩ := h
    -- the stronger statement is the one that goes through by induction: every call has to leave
    -- room
    induction stack with
    | nil => exact absurd h_last (by simp)
    | cons callee callers ih =>
      rintro top h_head
      obtain rfl : callee = top := by simpa using h_head
      cases callers with
      | nil =>
        obtain rfl : callee = root := by simpa using h_last
        rw [List.length_singleton]
        omega
      | cons caller callers =>
        obtain ⟨h_length, h_chain⟩ := List.isChain_cons_cons.mp h_chain
        rw [List.getLast?_cons_cons] at h_last
        have h_rest := ih h_chain h_last caller rfl
        rw [List.length_cons]
        omega
  cases stack with
  | nil => exact Nat.zero_le _
  | cons top rest =>
    have h_length := h_top top rfl
    omega

end IsDescent

/-- Notes with a log beside plain notes: they are the same, and every call descends from `root`. -/
def Logs (root : List Char) (notes : σ × List CallStack) (plain : σ) : Prop :=
  notes.1 = plain ∧ ∀ stack ∈ notes.2, IsDescent root stack

section Logging

variable {book : Notebook σ} {scope : Scope} {root : List Char}

/-- A call stack may be put down at any time, if it descends. -/
theorem Simulates.logCall_bind {stack : CallStack} {x : StateM (σ × List CallStack) α}
    {y : StateM σ α} (h_stack : IsDescent root stack) (h : Simulates (Logs root) x y) :
    Simulates (Logs root) (logCall stack >>= fun _ => x) y := by
  intro notes plain h_notes
  refine h (notes.1, notes.2 ++ [stack]) plain ⟨h_notes.1, ?_⟩
  intro other h_other
  rcases List.mem_append.mp h_other with h_earlier | h_new
  · exact h_notes.2 other h_earlier
  · rw [List.mem_singleton.mp h_new]
    exact h_stack

/-- A note of the resolver goes to its own notebook and not to the log. -/
theorem Simulates.note_logged (step : Step) :
    Simulates (Logs root) (modify (book.logged.note step) : StateM (σ × List CallStack) Unit)
      (modify (book.note step)) := by
  intro notes plain h_notes
  exact ⟨rfl, congrArg (book.note step) h_notes.1, h_notes.2⟩

/-- An operand is simulated if resolving its text is. The log plays no part in what is remembered
of it. -/
theorem Simulates.operandWith_logged {candidate : String}
    {logged : List Char → StateM (σ × List CallStack) (Except Error Value)}
    {plain : List Char → StateM σ (Except Error Value)}
    (h : Simulates (Logs root) (logged (Text.trimmed candidate).toList)
      (plain (Text.trimmed candidate).toList)) :
    Simulates (Logs root) (operandWith book.logged logged candidate)
      (operandWith book plain candidate) := by
  rintro notes _ ⟨rfl, h_log⟩
  cases h_known : book.remembered (Text.trimmed candidate) notes.1 with
  | some known =>
    have h_logged : book.logged.remembered (Text.trimmed candidate) notes = some known := h_known
    rw [run_operandWith_of_some h_known, run_operandWith_of_some h_logged]
    exact ⟨rfl, rfl, h_log⟩
  | none =>
    have h_logged : book.logged.remembered (Text.trimmed candidate) notes = none := h_known
    obtain ⟨h_outcome, h_notes, h_calls⟩ := h notes notes.1 ⟨rfl, h_log⟩
    rw [run_operandWith_of_none h_known, run_operandWith_of_none h_logged, ← h_outcome, ← h_notes]
    exact ⟨rfl, rfl, h_calls⟩

/-- **Whatever the budget, every call descends.** By induction on the budget: what a layer hands on
is shorter than its own text, and trimming does not lengthen it. -/
theorem resolveLogged_simulates {callers : CallStack} (budget : Nat) {text : List Char}
    (h : IsDescent root (Text.trim text :: callers)) :
    Simulates (Logs root) (resolveLogged book scope budget callers text)
      (resolveWithin book scope budget text) := by
  induction budget generalizing callers text with
  -- no layer is left, but the call has been made and is put down all the same
  | zero => exact .logCall_bind h (.pure _)
  | succ budget ih =>
    have h_call : ∀ t : List Char, t.length < (Text.trim text).length →
        Simulates (Logs root) (resolveLogged book scope budget (Text.trim text :: callers) t)
          (resolveWithin book scope budget t) := by
      intro t h_t
      exact ih (h.call (Nat.lt_of_le_of_lt (Text.length_trim_le t) h_t))
    refine .logCall_bind h (Simulates.attempt ?_ Simulates.note_logged ?_)
    · intro candidate h_candidate
      refine .operandWith_logged (h_call _ ?_)
      rw [Text.toList_trimmed]
      exact Nat.lt_of_le_of_lt (Text.length_trim_le _) h_candidate
    · intro inside h_inside
      exact h_call inside (length_lt_of_group? h_inside)

/-- The calls for an operand stand on the text that is searched. -/
theorem operandLogged_simulates (budget : Nat) {candidate : String}
    (h : candidate.toList.length < root.length) :
    Simulates (Logs root) (operandLogged book scope budget root candidate)
      (operandWith book (resolveWithin book scope budget) candidate) := by
  refine .operandWith_logged (resolveLogged_simulates budget ((IsDescent.bottom root).call ?_))
  rw [Text.toList_trimmed, Text.trim_trim]
  exact Nat.lt_of_le_of_lt (Text.length_trim_le _) h

end Logging

/-- Logging the calls of a computation changes nothing but the log, and all calls in it descend from
`root`. -/
structure Descends (book : Notebook σ) (root : List Char) (logged : StateM (σ × List CallStack) α)
    (plain : StateM σ α) : Prop where
  /-- The answer is the same. -/
  answer_eq : (logged.run book.logged.start).1 = (plain.run book.start).1
  /-- So are the notes. -/
  notes_eq : (logged.run book.logged.start).2.1 = (plain.run book.start).2
  /-- Each text is shorter than the one that it was called for. -/
  isDescent : ∀ stack ∈ (logged.run book.logged.start).2.2, IsDescent root stack
  /-- No more texts are being resolved at a time than `root` has characters, and one. -/
  length_le : ∀ stack ∈ (logged.run book.logged.start).2.2, stack.length ≤ root.length + 1

/-- What `Logs` relates is the same but for the log, and both start with nothing noted. -/
theorem Descends.of_simulates (book : Notebook σ) {root : List Char}
    {logged : StateM (σ × List CallStack) α} {plain : StateM σ α}
    (h : Simulates (Logs root) logged plain) : Descends book root logged plain := by
  have h_start : Logs root book.logged.start book.start := ⟨rfl, List.forall_mem_nil _⟩
  obtain ⟨h_answer, h_notes, h_calls⟩ := h _ _ h_start
  exact ⟨h_answer, h_notes, h_calls, fun stack h => (h_calls stack h).length_le⟩

/-! ### The recursion without a budget -/

/-- The function resolves every text by one layer, and operands and insides by itself. -/
def IsResolver (book : Notebook σ) (scope : Scope)
    (resolve : List Char → StateM σ (Except Error Value)) : Prop :=
  ∀ text, resolve text =
    attempt scope (fun step => modify (book.note step)) (operandWith book resolve) resolve
      (Text.trim text)

/-- **The recursion has exactly one solution.** -/
theorem isResolver_iff (book : Notebook σ) (scope : Scope)
    (resolve : List Char → StateM σ (Except Error Value)) :
    IsResolver book scope resolve ↔ resolve = resolved book scope := by
  constructor
  · intro h
    funext text
    induction h_length : (Text.trim text).length using Nat.strong_induction_on
      generalizing text with
    | _ n ih =>
      -- by induction on the length of the trimmed text, as for the budget
      have h_shorter : ∀ t : List Char, t.length < (Text.trim text).length →
          resolve t = resolved book scope t := by
        intro t h_t
        have h_trim := Text.length_trim_le t
        exact ih _ (by omega) t rfl
      rw [h text, resolved_eq_attempt]
      refine simulates_eq_iff.mp (Simulates.attempt ?_ (fun _ => simulates_eq_iff.mpr rfl) ?_)
      · intro candidate h_candidate
        have h_trim := Text.length_trim_le candidate.toList
        refine simulates_eq_iff.mpr (operandWith_congr (h_shorter _ ?_))
        rw [Text.toList_trimmed]
        omega
      · intro inside h_inside
        exact simulates_eq_iff.mpr (h_shorter inside (length_lt_of_group? h_inside))
  · rintro rfl text
    exact resolved_eq_attempt book scope text

/-! ### The answers -/

/-- The answer to a whole resolution, given its outcome and what was noted. -/
def finalAnswer (book : Notebook σ) (found : Except Error Value × σ) : Except Error Value :=
  match found.1, book.missing found.2 with
  | .error (.unresolvable _), some name => .error (.undefinedVariable name)
  | outcome, _ => outcome

/-- What is asked of an expression has the answers that come out if its texts are resolved in the
given way. -/
structure Determines (scope : Scope) (expression : String)
    (resolve : List Char → StateM Memo (Except Error Value)) : Prop where
  /-- Resolving the expression. -/
  resolve_eq : scope.resolve expression =
    finalAnswer .memo ((resolve expression.toList).run Notebook.memo.start)
  /-- Locating a calculation in it. -/
  locate_eq (c : Calculation) : c.locate scope expression =
    ((locateAmong (operandWith .memo resolve) [c] (Text.trim expression.toList)).run
      Notebook.memo.start).1.map Prod.snd
  /-- Detecting a calculation in it. -/
  detect_eq (c : Calculation) : c.detect scope expression =
    ((locateAmong (operandWith .memo resolve) [c] (Text.trim expression.toList)).run
      Notebook.memo.start).1.isSome
  /-- Evaluating a calculation in it. -/
  evaluate_eq (c : Calculation) : c.evaluate scope expression =
    ((evaluation (operandWith .memo resolve) c (Text.trim expression.toList)).run
      Notebook.memo.start).1
  /-- Locating a split at a level of precedence. -/
  locate_level_eq (level : Precedence) : level.locate scope expression =
    ((locateAmong (operandWith .memo resolve) level.members (Text.trim expression.toList)).run
      Notebook.memo.start).1

/-- Texts longer than the expression do not come up. -/
theorem Determines.of_forall {scope : Scope} {expression : String}
    {resolve : List Char → StateM Memo (Except Error Value)}
    (h : ∀ text : List Char, text.length ≤ expression.toList.length →
      resolve text = resolved .memo scope text) : Determines scope expression resolve := by
  -- operands are shorter than the expression, so `resolve` agrees with the resolver on them
  have h_operand : ∀ candidate : String,
      candidate.toList.length < (Text.trim expression.toList).length →
      Simulates Eq (operandFor .memo scope (Text.trim expression.toList) candidate)
        (operandWith .memo resolve candidate) := by
    intro candidate h_candidate
    have h_trim := Text.length_trim_le expression.toList
    have h_trim' := Text.length_trim_le candidate.toList
    rw [operandFor_eq h_candidate]
    refine simulates_eq_iff.mpr (operandWith_congr (h _ ?_).symm)
    rw [Text.toList_trimmed]
    omega
  have h_locate (members : List Calculation) : locateWith .memo scope members expression.toList =
      ((locateAmong (operandWith .memo resolve) members (Text.trim expression.toList)).run
        Notebook.memo.start).1 :=
    (Simulates.locateAmong h_operand members _ _ rfl).1
  refine ⟨?_, ?_, ?_, ?_, ?_⟩
  · rw [h _ (Nat.le_refl _)]
    rfl
  · intro c
    rw [Calculation.locate, h_locate]
  · intro c
    rw [Calculation.detect, Calculation.locate, h_locate, Option.isSome_map]
  · intro c
    rw [Calculation.evaluate, evaluateWith_eq_evaluation]
    exact (Simulates.evaluation h_operand c _ _ rfl).1
  · intro level
    exact h_locate level.members

/-- Every call that is made for a text descends from it: to resolve it, to locate a split in it, and
to evaluate it. -/
structure CallsDescend (book : Notebook σ) (scope : Scope) (budget : Nat) (text : List Char) :
    Prop where
  /-- To resolve it. -/
  resolve : Descends book (Text.trim text) (resolveLogged book scope budget [] text)
    (resolveWithin book scope budget text)
  /-- To locate a split in it. -/
  locate (members : List Calculation) : Descends book (Text.trim text)
    (locateAmong (operandLogged book scope budget (Text.trim text)) members (Text.trim text))
    (locateAmong (operandWith book (resolveWithin book scope budget)) members (Text.trim text))
  /-- To evaluate a calculation in it. -/
  evaluate (c : Calculation) : Descends book (Text.trim text)
    (evaluation (operandLogged book scope budget (Text.trim text)) c (Text.trim text))
    (evaluation (operandWith book (resolveWithin book scope budget)) c (Text.trim text))

/-- The three ways of asking about a text. -/
theorem callsDescend (book : Notebook σ) (scope : Scope) (budget : Nat) (text : List Char) :
    CallsDescend book scope budget text where
  resolve := .of_simulates book (resolveLogged_simulates budget (.bottom _))
  locate members := .of_simulates book
    (Simulates.locateAmong (fun _ => operandLogged_simulates budget) members)
  evaluate c := .of_simulates book
    (Simulates.evaluation (fun _ => operandLogged_simulates budget) c)

/-- **Resolution terminates.** Whatever the budget, and whichever notes are kept, each call that is
made to resolve an expression, to locate a split in it or to evaluate it is on a text that is
strictly shorter, once trimmed, than the one that it is made for; so no more calls are open at a
time than the expression has characters, and one. The recursion without a budget has one solution
and no other. It determines every answer, and so does every budget above the length of the
expression. -/
theorem resolution_terminates (book : Notebook σ) (scope : Scope) (expression : String) :
    (∀ budget : Nat, CallsDescend book scope budget expression.toList) ∧
    (∀ resolve : List Char → StateM σ (Except Error Value),
      IsResolver book scope resolve ↔ resolve = resolved book scope) ∧
    (∀ resolve, IsResolver .memo scope resolve → Determines scope expression resolve) ∧
    ∀ budget : Nat, expression.length < budget →
      Determines scope expression (resolveWithin .memo scope budget) := by
  refine ⟨fun budget => callsDescend book scope budget _, isResolver_iff book scope, ?_, ?_⟩
  · intro resolve h
    refine .of_forall fun text _ => ?_
    rw [(isResolver_iff .memo scope resolve).mp h]
  · intro budget h_budget
    refine .of_forall fun text h_text => resolveWithin_eq_resolved ?_
    rw [String.length_toList] at h_text
    omega

/-- A sign before a group: three calls, one on behalf of the other. -/
theorem resolution_terminates_signed_group :
    ["true".toList, "(true)".toList, "!(true)".toList] ∈
        ((resolveLogged .plain {} 9 [] " !(true)".toList).run Notebook.plain.logged.start).2.2 ∧
      IsDescent "!(true)".toList ["true".toList, "(true)".toList, "!(true)".toList] ∧
      3 ≤ "!(true)".toList.length + 1 ∧
      IsResolver .memo {} (resolved .memo {}) ∧
      Determines {} " !(true)" (resolved .memo {}) ∧
      " !(true)".length < 9 ∧ Determines {} " !(true)" (resolveWithin .memo {} 9) := by
  obtain ⟨h_calls, -, h_resolver, h_budget⟩ := resolution_terminates .plain {} " !(true)"
  have h_stack : ["true".toList, "(true)".toList, "!(true)".toList] ∈
      ((resolveLogged .plain {} 9 [] " !(true)".toList).run Notebook.plain.logged.start).2.2 := by
    decide +kernel
  have h_resolved : IsResolver .memo {} (resolved .memo {}) := resolved_eq_attempt .memo {}
  exact ⟨h_stack, (h_calls 9).resolve.isDescent _ h_stack,
    (h_calls 9).resolve.length_le _ h_stack, h_resolved, h_resolver _ h_resolved, by decide,
    h_budget 9 (by decide)⟩

end LineScript.Resolve
