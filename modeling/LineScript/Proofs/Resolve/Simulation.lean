import LineScript.Proofs.Scan.Cuts
import LineScript.Proofs.Text.Trimming
import LineScript.Resolve

/-!
# Simulations between resolvers

The layer of resolution `attempt` never looks at the notes that are kept while it works: it only
hands candidates to `operand` and insides of groups to `inner`, and all of these are shorter than
the text of the layer. So two resolvers that agree on shorter texts agree on this one, whatever
notes each of them keeps, as long as the notes stay in a relation `R`.

* `Simulates R x y`: from notes in relation, `x` and `y` give the same answer and leave notes in
  relation;
* `Simulates.attempt`: the layer is simulated if its operands and insides are. So are the searches
  of an evaluation (`Simulates.evaluation`);
* `resolveWithin_congr`: more layers than a text has characters make no difference (the case of `R`
  being equality);
* `resolved_eq_attempt`: resolution as the recursion it is, without a budget.
-/

namespace LineScript.Resolve

open Scan (Cut cuts group?)

variable {σ τ α β : Type}

/-- The two searches of an evaluation: for operands that fit, and then for any operands. They share
their notes, so the second one starts from what the first one left. -/
def evaluation (operand : Operand σ) (c : Calculation) (text : List Char) :
    StateM σ (Except Error Value) := do
  match ← locateAmong operand [c] text with
  | some (_, split) => return c.apply split.left split.right
  | none =>
    match ← firstSides operand (fun _ left right => some (left, right)) (cutsAmong [c] text) with
    | some (left, right) => return c.apply left right
    | none => return .error (.unresolvable (String.ofList text))

/-- Evaluating is running the two searches from an empty notebook. -/
theorem evaluateWith_eq_evaluation (book : Notebook σ) (scope : Scope) (c : Calculation)
    (text : List Char) :
    evaluateWith book scope c text =
      ((evaluation (operandFor book scope (Text.trim text)) c (Text.trim text)).run
        book.start).1 := rfl

/-- From related notes the two computations give the same answer and leave related notes. -/
def Simulates (R : σ → τ → Prop) (x : StateM σ α) (y : StateM τ α) : Prop :=
  ∀ s t, R s t → (x.run s).1 = (y.run t).1 ∧ R (x.run s).2 (y.run t).2

namespace Simulates

variable {R : σ → τ → Prop}

/-- An answer that is given without looking at the notes. -/
theorem pure (a : α) : Simulates R (Pure.pure a : StateM σ α) (Pure.pure a) :=
  fun _ _ h => ⟨rfl, h⟩

/-- Computations in sequence: the notes stay related through the first, and it hands on one answer.
-/
theorem bind {x : StateM σ α} {y : StateM τ α} {f : α → StateM σ β} {g : α → StateM τ β}
    (hxy : Simulates R x y) (hfg : ∀ a, Simulates R (f a) (g a)) :
    Simulates R (x >>= f) (y >>= g) := by
  intro s t h
  -- the second part starts from what the first one answers and notes
  obtain ⟨h_val, h_notes⟩ := hxy s t h
  have h_next := hfg (x.run s).1 (x.run s).2 (y.run t).2 h_notes
  change ((f (x.run s).1).run (x.run s).2).1 = ((g (y.run t).1).run (y.run t).2).1 ∧
    R ((f (x.run s).1).run (x.run s).2).2 ((g (y.run t).1).run (y.run t).2).2
  rw [← h_val]
  exact h_next

/-! ### One layer -/

/-- Going through cuts is simulated if the sides of each of them are. -/
theorem firstSides {operand : Operand σ} {operand' : Operand τ}
    {choose : Cut → Value → Value → Option α} (cs : List Cut)
    (h : ∀ cut ∈ cs, Simulates R (operand cut.before) (operand' cut.before) ∧
      Simulates R (operand cut.after) (operand' cut.after)) :
    Simulates R (Resolve.firstSides operand choose cs)
      (Resolve.firstSides operand' choose cs) := by
  induction cs with
  | nil => exact .pure none
  | cons cut rest ih =>
    obtain ⟨h_before, h_after⟩ := h cut List.mem_cons_self
    have h_rest := ih fun c hc => h c (List.mem_cons_of_mem _ hc)
    rw [Resolve.firstSides, Resolve.firstSides]
    -- the right side is asked for only if the left one has a value
    refine h_before.bind fun left => ?_
    cases left with
    | none => exact h_rest
    | some left =>
      refine h_after.bind fun right => ?_
      cases right with
      | none => exact h_rest
      | some right =>
        cases h_choice : choose cut left right with
        | none => simpa only [h_choice] using h_rest
        | some found => simpa only [h_choice] using Simulates.pure (some found)

section Shorter

variable {operand : Operand σ} {operand' : Operand τ} {text : List Char}
  (h_operand : ∀ candidate : String, candidate.toList.length < text.length →
    Simulates R (operand candidate) (operand' candidate))

include h_operand

/-- The sides of every cut are shorter than the text, so searching a text at the operators of some
calculations is simulated. -/
theorem firstSides_cutsAmong {choose : Cut → Value → Value → Option α}
    (members : List Calculation) :
    Simulates R (Resolve.firstSides operand choose (cutsAmong members text))
      (Resolve.firstSides operand' choose (cutsAmong members text)) :=
  firstSides _ fun _ h_cut =>
    ⟨h_operand _ (Scan.length_before_lt h_cut), h_operand _ (Scan.length_after_lt h_cut)⟩

/-- Locating a calculation is simulated if its operands are. -/
theorem locateAmong (members : List Calculation) :
    Simulates R (Resolve.locateAmong operand members text)
      (Resolve.locateAmong operand' members text) :=
  firstSides_cutsAmong h_operand members

/-- So is going through the levels. -/
theorem locateLevel (levels : List Precedence) :
    Simulates R (Resolve.locateLevel operand text levels)
      (Resolve.locateLevel operand' text levels) := by
  induction levels with
  | nil => exact .pure none
  | cons level rest ih =>
    refine (locateAmong h_operand level.members).bind fun found => ?_
    cases found with
    -- the notes of a level without a split are handed on to the next level
    | none => exact ih
    | some found => exact .pure (some found)

/-- So are the two searches of an evaluation. -/
theorem evaluation (c : Calculation) :
    Simulates R (Resolve.evaluation operand c text) (Resolve.evaluation operand' c text) := by
  refine (locateAmong h_operand [c]).bind fun found => ?_
  cases found with
  | some found => exact .pure _
  | none =>
    refine (firstSides_cutsAmong h_operand [c]).bind fun sides => ?_
    cases sides with
    | some sides => exact .pure _
    | none => exact .pure _

/-- So is looking at a sign: what follows it is shorter than the text. -/
theorem signed : Simulates R (Resolve.signed operand text) (Resolve.signed operand' text) := by
  unfold Resolve.signed
  split
  · refine (h_operand _ (by simp)).bind fun value => ?_
    cases value <;> exact .pure _
  · refine (h_operand _ (by simp)).bind fun value => ?_
    cases value <;> exact .pure _
  · exact .pure _

/-- **One layer is simulated** if its operands and the insides of its groups are. -/
theorem attempt {scope : Scope} {note : Step → StateM σ Unit} {note' : Step → StateM τ Unit}
    {inner : List Char → StateM σ (Except Error Value)}
    {inner' : List Char → StateM τ (Except Error Value)}
    (h_note : ∀ step, Simulates R (note step) (note' step))
    (h_inner : ∀ inside, group? text = some inside → Simulates R (inner inside) (inner' inside)) :
    Simulates R (Resolve.attempt scope note operand inner text)
      (Resolve.attempt scope note' operand' inner' text) := by
  refine (h_note _).bind fun _ => ?_
  -- whether the text is a literal, a name or a group is a matter of the text alone
  cases literal? text with
  | some v => exact .pure _
  | none =>
    dsimp only
    split
    · exact .pure _
    · cases h_group : group? text with
      | some inside => exact h_inner inside h_group
      | none =>
        refine (locateLevel h_operand _).bind fun found => ?_
        cases found with
        | none => exact signed h_operand
        | some found => exact (h_note _).bind fun _ => .pure _

end Shorter

end Simulates

/-! ### Resolution without a budget -/

variable {book : Notebook σ} {scope : Scope}

/-- With equality for `R`, to be simulated is to be the same computation. -/
theorem simulates_eq_iff {x y : StateM σ α} : Simulates Eq x y ↔ x = y := by
  constructor
  · intro h
    funext s
    obtain ⟨h_val, h_notes⟩ := h s s rfl
    exact Prod.ext h_val h_notes
  · rintro rfl s t rfl
    exact ⟨rfl, rfl⟩

/-- What a candidate operand does to the notes: if its outcome is noted nothing, and otherwise what
resolving it does, and then the outcome is noted. -/
theorem run_operandWith (resolve : List Char → StateM σ (Except Error Value)) (candidate : String)
    (notes : σ) :
    (operandWith book resolve candidate).run notes =
      match book.remembered (Text.trimmed candidate) notes with
      | some known => (known, notes)
      | none =>
        let found := (resolve (Text.trimmed candidate).toList).run notes
        (found.1.toOption, book.record (Text.trimmed candidate) found.1 found.2) := by
  change ((match book.remembered (Text.trimmed candidate) notes with
    | some known => (pure known : StateM σ (Option Value))
    | none => do
      let outcome ← resolve (Text.trimmed candidate).toList
      modify (book.record (Text.trimmed candidate) outcome)
      return outcome.toOption) : StateM σ (Option Value)).run notes = _
  cases book.remembered (Text.trimmed candidate) notes <;> rfl

/-- An operand whose outcome is not noted is resolved. -/
theorem run_operandWith_of_none {resolve : List Char → StateM σ (Except Error Value)}
    {candidate : String} {notes : σ}
    (h : book.remembered (Text.trimmed candidate) notes = none) :
    (operandWith book resolve candidate).run notes =
      ((((resolve (Text.trimmed candidate).toList).run notes).1).toOption,
        book.record (Text.trimmed candidate) ((resolve (Text.trimmed candidate).toList).run notes).1
          ((resolve (Text.trimmed candidate).toList).run notes).2) := by
  rw [run_operandWith, h]

/-- An operand whose outcome is noted is not, and nothing else is noted. -/
theorem run_operandWith_of_some {resolve : List Char → StateM σ (Except Error Value)}
    {candidate : String} {notes : σ} {known : Option Value}
    (h : book.remembered (Text.trimmed candidate) notes = some known) :
    (operandWith book resolve candidate).run notes = (known, notes) := by
  rw [run_operandWith, h]

/-- Of the resolver only what it does with the trimmed candidate counts. -/
theorem operandWith_congr {resolve resolve' : List Char → StateM σ (Except Error Value)}
    {candidate : String}
    (h : resolve (Text.trimmed candidate).toList = resolve' (Text.trimmed candidate).toList) :
    operandWith book resolve candidate = operandWith book resolve' candidate := by
  funext notes
  exact (run_operandWith resolve candidate notes).trans
    (by rw [h]; exact (run_operandWith resolve' candidate notes).symm)

/-- The inside of a group is shorter by its two parentheses. -/
theorem length_lt_of_group? {text inside : List Char} (h : group? text = some inside) :
    inside.length < text.length := by
  unfold group? at h
  split at h
  · next rest =>
    split at h
    · rw [← Option.some.inj h, List.length_dropLast, List.length_cons]
      omega
    · exact absurd h (by simp)
  · exact absurd h (by simp)

/-- **Layers to spare make no difference.** Every layer works on texts that are strictly shorter
once trimmed, so a budget above the length of the trimmed text is as good as any greater one. -/
theorem resolveWithin_congr {budget budget' : Nat} {text : List Char}
    (h : (Text.trim text).length < budget) (h' : (Text.trim text).length < budget') :
    resolveWithin book scope budget text = resolveWithin book scope budget' text := by
  induction budget generalizing budget' text with
  | zero => exact absurd h (Nat.not_lt_zero _)
  | succ b ih =>
    obtain ⟨b', rfl⟩ : ∃ b', budget' = b' + 1 := Nat.exists_eq_succ_of_ne_zero (by omega)
    have h_shorter : ∀ t : List Char, t.length < (Text.trim text).length →
        resolveWithin book scope b t = resolveWithin book scope b' t := by
      intro t ht
      have h_trim := Text.length_trim_le t
      exact ih (by omega) (by omega)
    -- agreeing on all notes is a simulation too, and the layers above agree by induction
    refine simulates_eq_iff.mp ?_
    refine Simulates.attempt ?_ (fun _ => simulates_eq_iff.mpr rfl) ?_
    · intro candidate h_candidate
      have h_trim := Text.length_trim_le candidate.toList
      refine simulates_eq_iff.mpr (operandWith_congr (h_shorter _ ?_))
      rw [Text.toList_trimmed]
      omega
    · intro inside h_inside
      exact simulates_eq_iff.mpr (h_shorter inside (length_lt_of_group? h_inside))

/-- The value of a text, found with as many layers as it takes. -/
def resolved (book : Notebook σ) (scope : Scope) (text : List Char) :
    StateM σ (Except Error Value) :=
  resolveWithin book scope (budgetFor text) text

/-- A budget above the length of the text is enough. -/
theorem resolveWithin_eq_resolved {budget : Nat} {text : List Char} (h : text.length < budget) :
    resolveWithin book scope budget text = resolved book scope text := by
  have h_trim := Text.length_trim_le text
  exact resolveWithin_congr (by omega) (by rw [budgetFor]; omega)

/-- And so it is for an operand. -/
theorem operandWith_resolveWithin {budget : Nat} {candidate : String}
    (h : candidate.toList.length < budget) :
    operandWith book (resolveWithin book scope budget) candidate =
      operandWith book (resolved book scope) candidate := by
  have h_trim := Text.length_trim_le candidate.toList
  refine operandWith_congr (resolveWithin_eq_resolved ?_)
  rw [Text.toList_trimmed]
  omega

/-- **Resolution as a recursion.** A text is resolved by one layer whose operands and insides are
resolved in the same way. -/
theorem resolved_eq_attempt (book : Notebook σ) (scope : Scope) (text : List Char) :
    resolved book scope text =
      attempt scope (fun step => modify (book.note step)) (operandWith book (resolved book scope))
        (resolved book scope) (Text.trim text) := by
  have h_trim := Text.length_trim_le text
  refine simulates_eq_iff.mp (Simulates.attempt ?_ (fun _ => simulates_eq_iff.mpr rfl) ?_)
  · intro candidate h_candidate
    exact simulates_eq_iff.mpr (operandWith_resolveWithin (by omega))
  · intro inside h_inside
    have h_inside := length_lt_of_group? h_inside
    exact simulates_eq_iff.mpr (resolveWithin_eq_resolved (by omega))

/-- The same recursion for one candidate operand of a text that is searched on its own. -/
theorem operandFor_eq {text : List Char} {candidate : String}
    (h : candidate.toList.length < text.length) :
    operandFor book scope text candidate = operandWith book (resolved book scope) candidate :=
  operandWith_resolveWithin (by rw [budgetFor]; omega)

end LineScript.Resolve
