/-!
# Ordered tables

A table maps names to entries and remembers the order in which names first came in. Giving a new
entry to a known name replaces the old entry where it stands. Frames of variables, globals,
properties and command handlers are all kept in tables.

No name occurs twice; the type carries the proof.
-/

namespace LineScript

/-- Names with their entries, in order of first insertion. -/
structure Table (α : Type) where
  /-- The pairs in order. -/
  entries : List (String × α)
  /-- No name occurs twice. -/
  distinct : (entries.map Prod.fst).Nodup

namespace Table

variable {α : Type}

/-- The table without entries. -/
def empty : Table α :=
  ⟨[], List.nodup_nil⟩

instance : EmptyCollection (Table α) :=
  ⟨empty⟩

instance : Inhabited (Table α) :=
  ⟨empty⟩

/-- Replaces the entry of a name where it stands, or adds the name at the end. -/
def put (name : String) (a : α) : List (String × α) → List (String × α)
  | [] => [(name, a)]
  | (key, b) :: rest => if key = name then (key, a) :: rest else (key, b) :: put name a rest

/-- The entry of a name among pairs. -/
def pick (name : String) : List (String × α) → Option α
  | [] => none
  | (key, a) :: rest => if key = name then some a else pick name rest

/-- Names keep their places, and a new one comes last. -/
theorem keys_put (name : String) (a : α) (es : List (String × α)) :
    (put name a es).map Prod.fst =
      if name ∈ es.map Prod.fst then es.map Prod.fst else es.map Prod.fst ++ [name] := by
  induction es with
  | nil => simp [put]
  | cons e rest ih =>
    obtain ⟨key, b⟩ := e
    by_cases h : key = name
    · simp [put, h]
    · by_cases hm : name ∈ rest.map Prod.fst <;> simp_all [put, eq_comm]

theorem nodup_keys_put {name : String} {a : α} {es : List (String × α)}
    (h : (es.map Prod.fst).Nodup) : ((put name a es).map Prod.fst).Nodup := by
  rw [keys_put]
  split
  · exact h
  · next hn =>
    rw [List.nodup_append]
    exact ⟨h, by simp, by rintro x hx y hy rfl; simp_all⟩

/-- The names in order. -/
def names (t : Table α) : List String :=
  t.entries.map Prod.fst

/-- The entry of a name. -/
def find? (t : Table α) (name : String) : Option α :=
  pick name t.entries

/-- The name has an entry. -/
def contains (t : Table α) (name : String) : Bool :=
  (t.find? name).isSome

/-- Gives a name an entry, in the place of its old one if it had one. -/
def insert (t : Table α) (name : String) (a : α) : Table α :=
  ⟨put name a t.entries, nodup_keys_put t.distinct⟩

/-- The number of names. -/
def size (t : Table α) : Nat :=
  t.entries.length

/-- The table that holds the given pairs, inserted in order. -/
def ofList (pairs : List (String × α)) : Table α :=
  pairs.foldl (fun t p => t.insert p.1 p.2) empty

theorem pick_put (name other : String) (a : α) (es : List (String × α)) :
    pick other (put name a es) = if other = name then some a else pick other es := by
  induction es with
  | nil => simp [put, pick, eq_comm]
  | cons e rest ih =>
    obtain ⟨key, b⟩ := e
    by_cases hk : key = name <;> by_cases ho : key = other <;> simp_all [put, pick, eq_comm]

/-- What is found after an insertion: the new entry under its name, and all else as before. -/
theorem find?_insert (t : Table α) (name other : String) (a : α) :
    (t.insert name a).find? other = if other = name then some a else t.find? other :=
  pick_put name other a t.entries

@[simp]
theorem find?_empty (name : String) : (empty : Table α).find? name = none := rfl

end Table

end LineScript
