import LineScript.Scope
import Mathlib.Data.List.Forall2

/-!
# What an assignment does to the frames of a scope

`Scope.assign` writes to the first frame that has the name, and to the innermost frame if none has.
Whatever is shown about scopes in a run is shown about their lists of frames, so this module says
what an assignment does to such a list. Most of it depends on the names in the frames alone, and
rebinding a name does not change those (`map_names_rebind?`).

* `rebind?_append`: rebinding in the first frame that has the name, seen from a place in between;
* `frames_assign`: an assignment rebinds its name, or adds it to the innermost frame;
* `Grows`, `grows_assign`: the frames may have got new names, but none is gone;
* `Unshadowed`, `Unshadowed.assign`: no name is bound in two frames, and an assignment keeps it so;
* `frames_assign_of_boundIn`, `frames_assign_of_not_boundIn`: an assignment seen from a place
  further in. **A name that is bound further out is rebound there, and any other name stays
inside.** -/

namespace LineScript

namespace Table

variable {α : Type}

/-- An entry that comes in adds its name behind the others, unless it was there. -/
theorem names_insert (t : Table α) (name : String) (a : α) :
    (t.insert name a).names = if name ∈ t.names then t.names else t.names ++ [name] :=
  keys_put name a t.entries

/-- A name has an entry exactly if it is one of the names. -/
theorem isSome_find?_iff (t : Table α) (name : String) :
    (t.find? name).isSome ↔ name ∈ t.names := by
  obtain ⟨entries, h_distinct⟩ := t
  change (pick name entries).isSome ↔ name ∈ entries.map Prod.fst
  clear h_distinct
  induction entries with
  | nil => simp [pick]
  | cons e rest ih =>
    obtain ⟨key, a⟩ := e
    by_cases h : key = name
    · simp [pick, h]
    · simp [pick, h, ih, Ne.symm h]

theorem find?_eq_none_iff (t : Table α) (name : String) : t.find? name = none ↔ name ∉ t.names := by
  rw [← t.isSome_find?_iff, Option.not_isSome_iff_eq_none]

theorem contains_iff (t : Table α) (name : String) : t.contains name ↔ name ∈ t.names :=
  t.isSome_find?_iff name

end Table

namespace Scope

/-- The value of a name in the first frame that has it. -/
def lookupIn (frames : List Frame) (name : String) : Option Value :=
  frames.findSome? (·.find? name)

/-- Some frame has the name. -/
def BoundIn (frames : List Frame) (name : String) : Prop :=
  ∃ f ∈ frames, name ∈ f.names

/-- A scope is asked frame by frame, from the innermost outward. -/
theorem lookup_eq_lookupIn (s : Scope) (name : String) : s.lookup name = lookupIn s.frames name :=
  rfl

/-- The first frame decides if it has the name. -/
theorem lookupIn_cons (f : Frame) (frames : List Frame) (name : String) :
    lookupIn (f :: frames) name = (f.find? name).or (lookupIn frames name) := by
  rw [lookupIn, List.findSome?_cons]
  cases f.find? name <;> rfl

/-- A name has a value exactly if some frame has it. -/
theorem isSome_lookupIn_iff (frames : List Frame) (name : String) :
    (lookupIn frames name).isSome ↔ BoundIn frames name := by
  simp [lookupIn, BoundIn, List.findSome?_isSome_iff, Table.isSome_find?_iff]

/-- Whether a name is bound depends on the names in the frames alone. -/
theorem boundIn_iff (frames : List Frame) (name : String) :
    BoundIn frames name ↔ ∃ names ∈ frames.map Table.names, name ∈ names := by
  constructor
  · rintro ⟨f, h_f, h_name⟩
    exact ⟨f.names, List.mem_map_of_mem h_f, h_name⟩
  · rintro ⟨names, h_names, h_name⟩
    obtain ⟨f, h_f, rfl⟩ := List.mem_map.mp h_names
    exact ⟨f, h_f, h_name⟩

theorem boundIn_cons (f : Frame) (frames : List Frame) (name : String) :
    BoundIn (f :: frames) name ↔ name ∈ f.names ∨ BoundIn frames name := by
  simp [BoundIn]

/-! ### Leaving -/

/-- One frame in front of another scope: leaving gives back that scope. -/
theorem pop_eq_of_frames {s outside : Scope} {f : Frame} (h : s.frames = f :: outside.frames) :
    s.pop = outside := by
  obtain ⟨-, h_enclosing⟩ := List.cons.inj h
  unfold pop pop?
  rw [h_enclosing]
  rfl

/-- Leaving takes a frame off the front, or none. -/
theorem frames_pop_suffix (s : Scope) : s.pop.frames <:+ s.frames := by
  obtain ⟨current, enclosing⟩ := s
  cases enclosing with
  | nil => exact List.suffix_rfl
  | cons frame rest => exact List.suffix_cons current (frame :: rest)

/-! ### Rebinding -/

section Rebind

variable {name : String} {v : Value} {frames frames' : List Frame}

/-- A first frame that has the name gets the value. -/
theorem rebind?_cons_of_mem {f : Frame} (h : name ∈ f.names) :
    rebind? name v (f :: frames) = some (f.insert name v :: frames) :=
  if_pos ((f.contains_iff name).mpr h)

/-- A first frame that does not have the name stays as it is. -/
theorem rebind?_cons_of_not_mem {f : Frame} (h : name ∉ f.names) :
    rebind? name v (f :: frames) = (rebind? name v frames).map (f :: ·) :=
  if_neg fun h_here => h ((f.contains_iff name).mp h_here)

/-- Rebinding fails exactly if no frame has the name. -/
theorem rebind?_eq_none_iff : rebind? name v frames = none ↔ ¬ BoundIn frames name := by
  induction frames with
  | nil => simp [rebind?, BoundIn]
  | cons f rest ih =>
    by_cases h : name ∈ f.names
    · simp [rebind?_cons_of_mem h, boundIn_cons, h]
    · simp [rebind?_cons_of_not_mem h, boundIn_cons, h, ih]

/-- A name that is bound further in is rebound there. -/
theorem rebind?_append (inner outside : List Frame) :
    rebind? name v (inner ++ outside) =
      ((rebind? name v inner).map (· ++ outside)).or
        ((rebind? name v outside).map (inner ++ ·)) := by
  induction inner with
  | nil =>
    rw [List.nil_append]
    cases h : rebind? name v outside <;> simp [rebind?]
  | cons f inner ih =>
    by_cases h : name ∈ f.names
    · simp [rebind?_cons_of_mem h]
    · rw [List.cons_append, rebind?_cons_of_not_mem h, rebind?_cons_of_not_mem h, ih]
      cases rebind? name v inner <;> cases rebind? name v outside <;> rfl

/-- **Rebinding a name changes no names.** -/
theorem map_names_rebind? (h : rebind? name v frames = some frames') :
    frames'.map Table.names = frames.map Table.names := by
  induction frames generalizing frames' with
  | nil => cases h
  | cons f rest ih =>
    by_cases h_here : name ∈ f.names
    · rw [rebind?_cons_of_mem h_here] at h
      cases h
      rw [List.map_cons, List.map_cons, Table.names_insert, if_pos h_here]
    · rw [rebind?_cons_of_not_mem h_here] at h
      obtain ⟨rest', h_rest, rfl⟩ := Option.map_eq_some_iff.mp h
      rw [List.map_cons, List.map_cons, ih h_rest]

/-- After rebinding, the name has the new value and every other name the value it had. -/
theorem lookupIn_rebind? (h : rebind? name v frames = some frames') (other : String) :
    lookupIn frames' other = if other = name then some v else lookupIn frames other := by
  induction frames generalizing frames' with
  | nil => cases h
  | cons f rest ih =>
    by_cases h_here : name ∈ f.names
    · rw [rebind?_cons_of_mem h_here] at h
      cases h
      rw [lookupIn_cons, lookupIn_cons, Table.find?_insert]
      split <;> rfl
    · rw [rebind?_cons_of_not_mem h_here] at h
      obtain ⟨rest', h_rest, rfl⟩ := Option.map_eq_some_iff.mp h
      rw [lookupIn_cons, lookupIn_cons, ih h_rest]
      -- the first frame does not have the name, so it cannot hide the new value
      by_cases h_name : other = name
      · rw [if_pos h_name, if_pos h_name, h_name, (f.find?_eq_none_iff name).mpr h_here]
        rfl
      · rw [if_neg h_name, if_neg h_name]

end Rebind

/-! ### Assigning -/

/-- **An assignment rebinds its name, or adds it to the innermost frame.** -/
theorem frames_assign (s : Scope) (name : String) (v : Value) :
    (s.assign name v).frames =
      (rebind? name v s.frames).getD (s.current.insert name v :: s.enclosing) := by
  change _ = (rebind? name v (s.current :: s.enclosing)).getD _
  -- `assign` looks at the innermost frame first, and so does `rebind?`
  rw [assign, rebind?]
  split
  · rfl
  · cases rebind? name v s.enclosing <;> rfl

/-- A name that is bound is rebound by an assignment. -/
theorem rebind?_eq_assign {s : Scope} {name : String} (v : Value)
    (h : BoundIn s.frames name) : rebind? name v s.frames = some (s.assign name v).frames := by
  rw [frames_assign]
  cases h_rebind : rebind? name v s.frames with
  | none => exact absurd h (rebind?_eq_none_iff.mp h_rebind)
  | some frames => rfl

/-- A name that is bound nowhere goes to the innermost frame. -/
theorem frames_assign_of_new {s : Scope} {name : String} (v : Value)
    (h : ¬ BoundIn s.frames name) : (s.assign name v).frames = (s.bind name v).frames := by
  rw [frames_assign, rebind?_eq_none_iff.mpr h]
  rfl

/-- After an assignment the name has its new value, and every other name the value it had. -/
theorem lookup_assign (s : Scope) (name : String) (v : Value) (other : String) :
    (s.assign name v).lookup other = if other = name then some v else s.lookup other := by
  by_cases h : BoundIn s.frames name
  · exact lookupIn_rebind? (rebind?_eq_assign v h) other
  · rw [lookup_eq_lookupIn, frames_assign_of_new v h]
    change lookupIn (s.current.insert name v :: s.enclosing) other =
      if other = name then some v else lookupIn (s.current :: s.enclosing) other
    rw [lookupIn_cons, lookupIn_cons, Table.find?_insert]
    split <;> rfl

/-- An assignment to a name that is bound changes no names. -/
theorem map_names_assign {s : Scope} {name : String} (v : Value) (h : BoundIn s.frames name) :
    (s.assign name v).frames.map Table.names = s.frames.map Table.names :=
  map_names_rebind? (rebind?_eq_assign v h)

theorem isBound_iff (s : Scope) (name : String) : s.isBound name ↔ BoundIn s.frames name :=
  isSome_lookupIn_iff s.frames name

/-! ### Frames that grow -/

/-- Frame by frame, the names of the first list are still there, in their order, and those that came
in later stand behind them. -/
def Grows (frames frames' : List Frame) : Prop :=
  List.Forall₂ (· <+: ·) (frames.map Table.names) (frames'.map Table.names)

/-- The same names, frame by frame. -/
theorem Grows.of_map_names_eq {frames frames' : List Frame}
    (h : frames'.map Table.names = frames.map Table.names) : Grows frames frames' := by
  rw [Grows, h, List.forall₂_same]
  exact fun names _ => List.prefix_rfl

theorem Grows.refl (frames : List Frame) : Grows frames frames :=
  .of_map_names_eq rfl

theorem Grows.trans {first second third : List Frame} (h : Grows first second)
    (h' : Grows second third) : Grows first third := by
  rw [Grows, List.forall₂_iff_get] at *
  obtain ⟨h_length, h_get⟩ := h
  obtain ⟨h_length', h_get'⟩ := h'
  refine ⟨h_length.trans h_length', fun i h_first h_third => ?_⟩
  exact (h_get i h_first (h_length ▸ h_first)).trans (h_get' i (h_length ▸ h_first) h_third)

/-- If all frames have grown, so have those further out. -/
theorem Grows.drop {frames frames' : List Frame} (h : Grows frames frames') (n : Nat) :
    Grows (frames.drop n) (frames'.drop n) := by
  rw [Grows, List.map_drop, List.map_drop]
  exact List.forall₂_drop n h

/-- No frame came in, and none is gone. -/
theorem Grows.length_eq {frames frames' : List Frame} (h : Grows frames frames') :
    frames.length = frames'.length := by
  have h_length := List.Forall₂.length_eq h
  rwa [List.length_map, List.length_map] at h_length

/-- Writing a variable in the innermost frame loses no name. -/
theorem grows_bind (s : Scope) (name : String) (v : Value) :
    Grows s.frames (s.bind name v).frames := by
  refine List.Forall₂.cons ?_ (Grows.refl s.enclosing)
  rw [bind, Table.names_insert]
  split
  · exact List.prefix_rfl
  · exact List.prefix_append _ _

/-- Neither does an assignment. -/
theorem grows_assign (s : Scope) (name : String) (v : Value) :
    Grows s.frames (s.assign name v).frames := by
  by_cases h : BoundIn s.frames name
  · exact .of_map_names_eq (map_names_assign v h)
  · rw [frames_assign_of_new v h]
    exact grows_bind s name v

/-! ### Frames that share no names -/

/-- No name is bound in two frames. -/
def Unshadowed (s : Scope) : Prop :=
  (s.frames.map Table.names).Pairwise List.Disjoint

/-- An empty frame shares no name with any other. -/
theorem Unshadowed.push {s : Scope} (h : s.Unshadowed) : s.push.Unshadowed :=
  List.Pairwise.cons (fun _ _ _ h_mem => absurd h_mem List.not_mem_nil) h

/-- Nothing is shadowed among the outer frames if nothing is among all. -/
theorem Unshadowed.of_suffix {s s' : Scope} (h : s.Unshadowed) (h_suffix : s'.frames <:+ s.frames) :
    s'.Unshadowed :=
  List.Pairwise.sublist (h_suffix.sublist.map Table.names) h

/-- A name that is bound further out is not bound inside. -/
theorem Unshadowed.not_boundIn {s : Scope} (h : s.Unshadowed) {inner outside : List Frame}
    (h_frames : s.frames = inner ++ outside) {name : String} (h_name : BoundIn outside name) :
    ¬ BoundIn inner name := by
  rintro ⟨f, h_f, h_inner⟩
  obtain ⟨g, h_g, h_outside⟩ := h_name
  rw [Unshadowed, h_frames, List.map_append, List.pairwise_append] at h
  exact h.2.2 _ (List.mem_map_of_mem h_f) _ (List.mem_map_of_mem h_g) h_inner h_outside

/-- **An assignment keeps every name to one frame.** -/
theorem Unshadowed.assign {s : Scope} (h : s.Unshadowed) (name : String) (v : Value) :
    (s.assign name v).Unshadowed := by
  by_cases h_bound : BoundIn s.frames name
  · rw [Unshadowed, map_names_assign v h_bound]
    exact h
  · -- the innermost frame gets the name, which no other frame has
    obtain ⟨h_current, h_enclosing⟩ := List.pairwise_cons.mp h
    rw [Unshadowed, frames_assign_of_new v h_bound]
    refine List.Pairwise.cons ?_ h_enclosing
    intro names h_names other h_other h_mem
    have h_here : name ∉ s.current.names :=
      fun h_name => h_bound ⟨s.current, List.mem_cons_self, h_name⟩
    rw [bind, Table.names_insert, if_neg h_here, List.mem_append, List.mem_singleton] at h_other
    rcases h_other with h_old | rfl
    · exact h_current names h_names h_old h_mem
    · refine h_bound ((boundIn_iff s.frames other).mpr ⟨names, ?_, h_mem⟩)
      exact List.mem_cons_of_mem _ h_names

/-! ### Assigning further in -/

section Inside

variable {s : Scope} {name : String} {inner : List Frame} {outside : Scope}
  (h_frames : s.frames = inner ++ outside.frames)

include h_frames

/-- A name that is bound further out, and not inside, is rebound there. -/
theorem frames_assign_of_boundIn (v : Value) (h_inner : ¬ BoundIn inner name)
    (h_outside : BoundIn outside.frames name) :
    (s.assign name v).frames = inner ++ (outside.assign name v).frames := by
  rw [frames_assign, h_frames, rebind?_append, rebind?_eq_none_iff.mpr h_inner,
    rebind?_eq_assign v h_outside]
  rfl

/-- A name that is not bound further out stays inside. -/
theorem frames_assign_of_not_boundIn (v : Value) (h_inner : inner ≠ [])
    (h_outside : ¬ BoundIn outside.frames name) :
    ∃ inner', (s.assign name v).frames = inner' ++ outside.frames ∧
      inner'.length = inner.length := by
  have h_rebind : rebind? name v s.frames = (rebind? name v inner).map (· ++ outside.frames) := by
    rw [h_frames, rebind?_append, rebind?_eq_none_iff.mpr h_outside]
    exact Option.or_none
  cases h : rebind? name v inner with
  | some inner' =>
    refine ⟨inner', ?_, ?_⟩
    · rw [frames_assign, h_rebind, h]
      rfl
    · simpa using congrArg List.length (map_names_rebind? h)
  | none =>
    -- the name is new, so the innermost frame gets it, and that frame is inside
    obtain ⟨f, inner, rfl⟩ := List.exists_cons_of_ne_nil h_inner
    obtain ⟨h_current, h_enclosing⟩ := List.cons.inj h_frames
    refine ⟨f.insert name v :: inner, ?_, rfl⟩
    rw [frames_assign, h_rebind, h, h_current, h_enclosing]
    rfl

end Inside

end Scope

end LineScript
