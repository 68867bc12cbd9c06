import LineScript.Action
import LineScript.Proofs.Scope.Frames

/-!
# Scopes as stacks of maps

A frame is an ordered table, but a script never learns the order: it only asks for the values of
names. Two scopes are *alike* if they have as many frames, and each frame gives every name the value
that its counterpart gives it. The names may have come into the two frames in different orders.

* `Scope.Alike.assign`, `Scope.Alike.push`, `Scope.Alike.pop`: what a run does to alike scopes
  leaves them alike;
* `Scope.Alike.resolve_eq`: **every expression has the same value in alike scopes, or fails for the
  same reason**. One layer of the search reads a scope in a single place (`variableValue`), so this
  is an induction on the layers and needs nothing of what a layer does;
* `Scope.Alike.parse_eq`: so every command is the same action.
-/

namespace LineScript

/-- The two tables give every name the same entry, or none. -/
def Table.Agrees {α : Type} (t t' : Table α) : Prop :=
  ∀ name, t.find? name = t'.find? name

namespace Table.Agrees

variable {α : Type} {t t' : Table α}

theorem refl (t : Table α) : t.Agrees t :=
  fun _ => rfl

theorem contains_eq (h : t.Agrees t') (name : String) : t.contains name = t'.contains name :=
  congrArg Option.isSome (h name)

/-- Tables that agree still do after the same entry came in. -/
theorem insert (h : t.Agrees t') (name : String) (a : α) :
    (t.insert name a).Agrees (t'.insert name a) := by
  intro other
  rw [find?_insert, find?_insert, h other]

end Table.Agrees

namespace Scope

/-- The two scopes are the same stack of maps. -/
def Alike (s s' : Scope) : Prop :=
  List.Forall₂ Table.Agrees s.frames s'.frames

/-- Scopes of one frame each. -/
theorem Alike.of_agrees {f f' : Frame} (h : f.Agrees f') :
    Alike { current := f } { current := f' } :=
  .cons h .nil

/-! ### Stacks of frames -/

/-- Frame by frame, a name is found at the same depth, with the same value. -/
theorem lookupIn_eq {frames frames' : List Frame} (h : List.Forall₂ Table.Agrees frames frames')
    (name : String) : lookupIn frames name = lookupIn frames' name := by
  induction h with
  | nil => rfl
  | cons h_frame _ ih => rw [lookupIn_cons, lookupIn_cons, h_frame name, ih]

/-- Rebinding reaches the frame at the same depth in both stacks, or none in either. -/
theorem rebind?_rel {frames frames' : List Frame} (h : List.Forall₂ Table.Agrees frames frames')
    (name : String) (v : Value) :
    Option.Rel (List.Forall₂ Table.Agrees) (rebind? name v frames) (rebind? name v frames') := by
  induction h with
  | nil => exact .none
  | @cons f f' rest rest' h_frame h_rest ih =>
    rw [rebind?, rebind?, h_frame.contains_eq name]
    split
    · exact .some (.cons (h_frame.insert name v) h_rest)
    · -- the frame has no such name, so it stays, and a frame further out may be rebound
      generalize rebind? name v rest = rebound at ih ⊢
      generalize rebind? name v rest' = rebound' at ih ⊢
      cases ih with
      | none => exact .none
      | some h_found => exact .some (.cons h_frame h_found)

namespace Alike

variable {s s' : Scope}

/-! ### What a run does to a scope -/

theorem current (h : s.Alike s') : s.current.Agrees s'.current :=
  (List.forall₂_cons.mp h).1

theorem enclosing (h : s.Alike s') : List.Forall₂ Table.Agrees s.enclosing s'.enclosing :=
  (List.forall₂_cons.mp h).2

/-- A branch that is entered begins with an empty frame in both. -/
theorem push (h : s.Alike s') : s.push.Alike s'.push :=
  .cons (.refl ∅) h

/-- Leaving a branch takes one frame off both, or none if it is the last. -/
theorem pop (h : s.Alike s') : s.pop.Alike s'.pop := by
  obtain ⟨f, enclosing⟩ := s
  obtain ⟨f', enclosing'⟩ := s'
  cases h.enclosing with
  | nil => exact h
  | cons h_frame h_rest => exact .cons h_frame h_rest

/-- **An assignment keeps scopes alike.** Where the name is new, it goes to the innermost frame of
both. -/
theorem assign (h : s.Alike s') (name : String) (v : Value) :
    (s.assign name v).Alike (s'.assign name v) := by
  have h_rel := rebind?_rel h name v
  unfold Alike
  rw [frames_assign, frames_assign]
  generalize rebind? name v s.frames = rebound at h_rel ⊢
  generalize rebind? name v s'.frames = rebound' at h_rel ⊢
  cases h_rel with
  | some h_rebound => exact h_rebound
  | none => exact .cons (h.current.insert name v) h.enclosing

/-! ### What a scope tells -/

/-- A name has the same value in alike scopes, or none. -/
theorem lookup_eq (h : s.Alike s') (name : String) : s.lookup name = s'.lookup name :=
  lookupIn_eq h name

/-- What the search asks a scope is answered alike. -/
theorem variableValue_eq (h : s.Alike s') : Resolve.variableValue s = Resolve.variableValue s' := by
  funext name
  unfold Resolve.variableValue
  rw [h.lookup_eq name]

/-- The search has the same outcome at every depth. -/
theorem resolveWithin_eq {σ : Type} (h : s.Alike s') (book : Resolve.Notebook σ) (budget : Nat) :
    Resolve.resolveWithin book s budget = Resolve.resolveWithin book s' budget := by
  induction budget with
  | zero => rfl
  | succ budget ih =>
    funext text
    unfold Resolve.resolveWithin Resolve.attempt
    -- a layer is given by the layer below and by the values of variables, and both are the same
    rw [ih, h.variableValue_eq]

/-- **Every expression has the same value in alike scopes, or fails for the same reason.** -/
theorem resolve_eq (h : s.Alike s') : s.resolve = s'.resolve := by
  funext expression
  unfold Scope.resolve Resolve.resolveWith
  rw [h.resolveWithin_eq]

/-- Every command is the same action in alike scopes, or fails for the same reason. -/
theorem parse_eq (h : s.Alike s') (text : String) : Action.parse text s = Action.parse text s' := by
  unfold Action.parse
  rw [h.resolve_eq]

end Alike

end Scope

end LineScript
