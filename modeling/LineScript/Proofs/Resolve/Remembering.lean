import LineScript.Proofs.Resolve.Simulation

/-!
# Remembering operands changes no answer

`Notebook.memo` keeps the outcome of every operand that was tried, `Notebook.plain` does not. An
operand whose outcome is remembered is not resolved again, so nothing is noted for it: an undefined
variable that stands in it is not met a second time. That this never shows rests on two facts.

* The plain resolver treats its only note, the first undefined variable, as a slot that is filled
  once (`run_resolved_plain`). Its answer does not depend on the slot, and a text that would fill
  the empty slot with a name leaves a filled slot alone.
* When an outcome is remembered, the operand has just been resolved, so the slot holds whatever that
  could add to it. Every remembered outcome is `Settled`: asking the plain resolver for the operand
  gives that outcome and leaves the slot as it is. A slot that is filled later keeps it so
  (`Settled.mono`).

`Mirrors` puts both into a relation between the notes of the two resolvers, and the relation is a
simulation (`resolved_memo_simulates`). The answers of resolution, of location and of evaluation are
therefore the same with the table and without it.
-/

namespace LineScript.Resolve

open Scan (group?)

variable {scope : Scope}

/-! ### The plain resolver and its slot -/

/-- Without a table nothing is remembered. -/
theorem remembered_plain (operand : String) (slot : Option String) :
    Notebook.plain.remembered operand slot = none := rfl

/-- All that the plain resolver records is an undefined variable, and only into an empty slot. -/
theorem record_plain (operand : String) (found : Except Error Value) (slot : Option String) :
    Notebook.plain.record operand found slot = slot.or (undefinedName? found) := rfl

/-- Filling the slot beforehand changes nothing but the slot. -/
theorem resolveWithin_plain_simulates (scope : Scope) (slot : Option String) (budget : Nat)
    (text : List Char) :
    Simulates (fun filled empty => filled = slot.or empty) (resolveWithin .plain scope budget text)
      (resolveWithin .plain scope budget text) := by
  induction budget generalizing text with
  | zero => exact .pure _
  | succ budget ih =>
    refine Simulates.attempt ?_ ?_ ?_
    · -- an operand adds what its text adds, and then its own undefined variable
      intro candidate _ filled empty h
      obtain ⟨h_outcome, h_slot⟩ := ih (Text.trimmed candidate).toList filled empty h
      rw [run_operandWith_of_none (remembered_plain _ _),
        run_operandWith_of_none (remembered_plain _ _)]
      refine ⟨congrArg Except.toOption h_outcome, ?_⟩
      rw [record_plain, record_plain, h_outcome, h_slot, Option.or_assoc]
    · intro _ filled empty h
      exact ⟨rfl, h⟩
    · intro inside _
      exact ih inside

/-- The outcome of a text. -/
def outcome (scope : Scope) (text : List Char) : Except Error Value :=
  ((resolved .plain scope text).run none).1

/-- The first undefined variable that is met while a text is resolved. -/
def firstMissing (scope : Scope) (text : List Char) : Option String :=
  ((resolved .plain scope text).run none).2

/-- **The plain resolver fills its slot once.** The outcome does not depend on the slot, and the
slot is filled only if it is empty. -/
theorem run_resolved_plain (scope : Scope) (text : List Char) (slot : Option String) :
    (resolved .plain scope text).run slot =
      (outcome scope text, slot.or (firstMissing scope text)) := by
  -- started from an empty slot, the same run shows what the text alone would put there
  obtain ⟨h_outcome, h_slot⟩ := resolveWithin_plain_simulates scope slot (budgetFor text) text
    slot none (by simp)
  exact Prod.ext h_outcome h_slot

/-- What asking for an operand answers, and what it adds to the slot. -/
theorem run_operandWith_plain (scope : Scope) (candidate : String) (slot : Option String) :
    (operandWith .plain (resolved .plain scope) candidate).run slot =
      ((outcome scope (Text.trim candidate.toList)).toOption,
        (slot.or (firstMissing scope (Text.trim candidate.toList))).or
          (undefinedName? (outcome scope (Text.trim candidate.toList)))) := by
  rw [run_operandWith_of_none (remembered_plain _ _), run_resolved_plain, Text.toList_trimmed,
    record_plain]

/-- The table goes by trimmed operands; to the plain resolver blanks make no difference. -/
theorem run_operandWith_plain_trimmed (scope : Scope) (candidate : String) (slot : Option String) :
    (operandWith .plain (resolved .plain scope) (Text.trimmed candidate)).run slot =
      (operandWith .plain (resolved .plain scope) candidate).run slot := by
  rw [run_operandWith_plain, run_operandWith_plain, Text.toList_trimmed, Text.trim_trim]

/-! ### Settled outcomes -/

/-- Asking for the operand again would give this outcome and leave the slot as it is. -/
def Settled (scope : Scope) (slot : Option String) (operand : String) (known : Option Value) :
    Prop :=
  (operandWith .plain (resolved .plain scope) operand).run slot = (known, slot)

/-- An outcome that is settled stays so when the slot is filled. -/
theorem Settled.mono {slot : Option String} {operand : String} {known : Option Value}
    (h : Settled scope slot operand known) (name : Option String) :
    Settled scope (slot.or name) operand known := by
  unfold Settled at h ⊢
  rw [run_operandWith_plain, Prod.mk.injEq] at h ⊢
  obtain ⟨h_known, h_slot⟩ := h
  refine ⟨h_known, ?_⟩
  -- a filled slot keeps its name; an empty one was left empty, so there is no name to add
  cases slot with
  | some filled => simp only [Option.some_or]
  | none =>
    rw [Option.none_or, Option.or_eq_none_iff] at h_slot
    rw [h_slot.1, h_slot.2, Option.or_none, Option.or_none]

/-- An operand that was just asked for is settled: the slot has what it could add. -/
theorem settled_of_run (scope : Scope) (slot : Option String) (operand : String) :
    Settled scope ((operandWith .plain (resolved .plain scope) operand).run slot).2 operand
      ((operandWith .plain (resolved .plain scope) operand).run slot).1 := by
  unfold Settled
  simp only [run_operandWith_plain]
  generalize firstMissing scope (Text.trim operand.toList) = met
  generalize undefinedName? (outcome scope (Text.trim operand.toList)) = own
  -- the slot after the first run is the first name of three, and the second run adds two of them
  cases slot <;> cases met <;> cases own <;> rfl

/-! ### The two resolvers side by side -/

/-- The notes of the resolver that remembers, beside the slot of the one that does not: the slots
agree, and every remembered outcome is settled. -/
structure Mirrors (scope : Scope) (notes : Memo) (slot : Option String) : Prop where
  /-- Both have met the same undefined variable first. -/
  missing_eq : notes.missing = slot
  /-- Nothing that is remembered could be found out differently now. -/
  settled : ∀ operand known, notes.known[operand]? = some known → Settled scope slot operand known

/-- At the start both resolvers have noted nothing. -/
theorem Mirrors.start (scope : Scope) : Mirrors scope {} none where
  missing_eq := rfl
  settled operand known h := by simp at h

/-- Recording the outcome of an operand keeps the notes alike, if the operand is settled then. -/
theorem Mirrors.record {notes : Memo} {slot : Option String} {operand : String}
    {found : Except Error Value} (h : Mirrors scope notes slot)
    (h_settled : Settled scope (Notebook.plain.record operand found slot) operand
      found.toOption) :
    Mirrors scope (Notebook.memo.record operand found notes)
      (Notebook.plain.record operand found slot) where
  missing_eq := by
    rw [record_plain, ← h.missing_eq]
    rfl
  settled other known h_other := by
    change (notes.known.insert operand found.toOption)[other]? = some known at h_other
    rw [Std.HashMap.getElem?_insert] at h_other
    split at h_other
    · -- the operand that was just recorded
      next h_eq =>
      rw [← eq_of_beq h_eq, ← Option.some.inj h_other]
      exact h_settled
    · -- an older one, under a slot that may be filled by now
      exact (h.settled other known h_other).mono _

/-- An operand is simulated if resolving its text is. If its outcome is remembered, that outcome is
settled, and otherwise it is recorded just after the slot took what it could add. -/
theorem operandWith_memo_simulates {candidate : String}
    (h : Simulates (Mirrors scope) (resolved .memo scope (Text.trimmed candidate).toList)
      (resolved .plain scope (Text.trimmed candidate).toList)) :
    Simulates (Mirrors scope) (operandWith .memo (resolved .memo scope) candidate)
      (operandWith .plain (resolved .plain scope) candidate) := by
  intro notes slot h_mirrors
  cases h_known : Notebook.memo.remembered (Text.trimmed candidate) notes with
  | some known =>
    -- the plain resolver asks again, and that changes nothing
    have h_settled : Settled scope slot (Text.trimmed candidate) known :=
      h_mirrors.settled _ _ h_known
    rw [Settled, run_operandWith_plain_trimmed] at h_settled
    rw [run_operandWith_of_some h_known, h_settled]
    exact ⟨rfl, h_mirrors⟩
  | none =>
    -- both resolve the operand, and it is settled once they have
    obtain ⟨h_outcome, h_notes⟩ := h notes slot h_mirrors
    have h_settled := settled_of_run scope slot (Text.trimmed candidate)
    rw [run_operandWith_plain_trimmed,
      run_operandWith_of_none (remembered_plain _ _)] at h_settled
    dsimp only at h_settled
    rw [run_operandWith_of_none h_known, run_operandWith_of_none (remembered_plain _ _), h_outcome]
    refine ⟨rfl, ?_⟩
    dsimp only
    exact h_notes.record h_settled

/-- **The resolver that remembers is simulated by the plain one.** By induction on the length of the
text: an outcome that is remembered is settled, and any other operand is shorter than the text. -/
theorem resolved_memo_simulates (scope : Scope) (text : List Char) :
    Simulates (Mirrors scope) (resolved .memo scope text) (resolved .plain scope text) := by
  induction h_length : text.length using Nat.strong_induction_on generalizing text with
  | _ n ih =>
    have h_trim := Text.length_trim_le text
    rw [resolved_eq_attempt, resolved_eq_attempt]
    refine Simulates.attempt ?_ ?_ ?_
    · intro candidate h_candidate
      -- an operand is shorter than the text, trimmed or not
      refine operandWith_memo_simulates (ih _ ?_ _ rfl)
      have h_shorter := Text.length_trim_le candidate.toList
      rw [Text.toList_trimmed]
      omega
    · intro _ notes slot h
      exact ⟨rfl, h⟩
    · intro inside h_inside
      have h_shorter := length_lt_of_group? h_inside
      exact ih _ (by omega) _ rfl

/-! ### The answers -/

/-- The result of a whole resolution, read off its outcome and the first undefined variable. -/
theorem resolveWith_eq {σ : Type} (book : Notebook σ) (scope : Scope) (text : List Char) :
    resolveWith book scope text =
      match ((resolved book scope text).run book.start).1,
        book.missing ((resolved book scope text).run book.start).2 with
      | Except.error (.unresolvable _), some name => Except.error (.undefinedVariable name)
      | outcome, _ => outcome := by
  unfold resolveWith resolved
  generalize (resolveWithin book scope (budgetFor text) text).run book.start = found
  rfl

/-- The answer of a whole resolution depends on the outcome and on the first undefined variable, and
the two resolvers agree on both. -/
theorem resolveWith_memo_eq (scope : Scope) (text : List Char) :
    resolveWith .memo scope text = resolveWith .plain scope text := by
  obtain ⟨h_outcome, h_notes⟩ := resolved_memo_simulates scope text {} none (.start scope)
  have h_missing : Notebook.memo.missing ((resolved .memo scope text).run Notebook.memo.start).2 =
      Notebook.plain.missing ((resolved .plain scope text).run Notebook.plain.start).2 :=
    h_notes.missing_eq
  have h_start : ((resolved .memo scope text).run Notebook.memo.start).1 =
      ((resolved .plain scope text).run Notebook.plain.start).1 := h_outcome
  rw [resolveWith_eq, resolveWith_eq, h_start, h_missing]

/-- An operand of a text that is searched on its own is simulated too. -/
theorem operandFor_memo_simulates (scope : Scope) (text : List Char) (candidate : String)
    (h : candidate.toList.length < text.length) :
    Simulates (Mirrors scope) (operandFor .memo scope text candidate)
      (operandFor .plain scope text candidate) := by
  rw [operandFor_eq h, operandFor_eq h]
  exact operandWith_memo_simulates (resolved_memo_simulates scope _)

/-- Locating a split gives the same with the table and without it. -/
theorem locateWith_memo_eq (scope : Scope) (members : List Calculation) (text : List Char) :
    locateWith .memo scope members text = locateWith .plain scope members text := by
  have h_search := Simulates.locateAmong
    (operandFor_memo_simulates scope (Text.trim text)) members
  exact (h_search {} none (.start scope)).1

/-- The result of one calculation is the same. -/
theorem evaluateWith_memo_eq (scope : Scope) (c : Calculation) (text : List Char) :
    evaluateWith .memo scope c text = evaluateWith .plain scope c text := by
  have h_searches := Simulates.evaluation (operandFor_memo_simulates scope (Text.trim text)) c
  rw [evaluateWith_eq_evaluation, evaluateWith_eq_evaluation]
  exact (h_searches {} none (.start scope)).1

/-- **The table of operands never changes an answer.** Resolving an expression, locating or
evaluating a calculation and locating a split at a level of precedence give exactly what the same
searches give without the table: the same value or the same error, with the same text or name. -/
theorem answers_without_table (scope : Scope) (expression : String) :
    scope.resolve expression = resolveWith .plain scope expression.toList ∧
      (∀ c : Calculation, c.locate scope expression =
        (locateWith .plain scope [c] expression.toList).map Prod.snd) ∧
      (∀ c : Calculation, c.evaluate scope expression =
        evaluateWith .plain scope c expression.toList) ∧
      ∀ level : Precedence, level.locate scope expression =
        locateWith .plain scope level.members expression.toList := by
  refine ⟨resolveWith_memo_eq scope _, fun c => ?_, fun c => evaluateWith_memo_eq scope c _,
    fun level => locateWith_memo_eq scope level.members _⟩
  rw [Calculation.locate, locateWith_memo_eq]

end LineScript.Resolve
