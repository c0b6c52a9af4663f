import DurableStore.Wire.Value

/-!
# The keyspace

A keyspace maps keys to cells.  A cell normally holds a value; an empty cell
makes its key present without giving it a value.  The entries are kept in
ascending order of keys, each key once, so that keyspaces with the same cells
are equal.

Main results:

- `Keyspace.lookup_put` and `Keyspace.lookup_erase`: what the two operations
  that change a keyspace do to the cell of each key.
-/

namespace DurableStore

/-- A cell of the keyspace. -/
abbrev Cell := Option Value

/-- An entry of the keyspace. -/
abbrev Entry := Bytes × Cell

namespace Entry

/-- The cell of a key. -/
def find? (key : Bytes) : List Entry → Option Cell
  | [] => none
  | entry :: rest => if key = entry.1 then some entry.2 else find? key rest

/-- Put a cell into ascending entries. -/
def put (key : Bytes) (cell : Cell) : List Entry → List Entry
  | [] => [(key, cell)]
  | entry :: rest =>
      if key < entry.1 then (key, cell) :: entry :: rest
      else if key = entry.1 then (key, cell) :: rest
      else entry :: put key cell rest

/-- Remove the entry of a key. -/
def erase (key : Bytes) (entries : List Entry) : List Entry :=
  entries.filter fun entry => entry.1 != key

/-- Whether entries are in strictly ascending order of keys. -/
def Ascending (entries : List Entry) : Prop :=
  entries.Pairwise fun entry later => entry.1 < later.1

theorem find_put (key : Bytes) (cell : Cell) (other : Bytes) (entries : List Entry) :
    find? other (put key cell entries) =
      if other = key then some cell else find? other entries := by
  induction entries with
  | nil => rfl
  | cons first rest ih =>
      unfold put
      split
      · rfl
      · split
        · rename_i same
          subst same
          by_cases found : other = first.1 <;> simp [find?, found]
        · rename_i different
          simp only [find?, ih]
          by_cases found : other = first.1
          · have apart : other ≠ key := fun same => different (same ▸ found)
            simp [found, Ne.symm different]
          · simp [found]

theorem find_erase (key other : Bytes) (entries : List Entry) :
    find? other (erase key entries) = if other = key then none else find? other entries := by
  induction entries with
  | nil => simp [erase, find?]
  | cons first rest ih =>
      unfold erase at ih ⊢
      by_cases removed : first.1 = key
      · rw [List.filter_cons_of_neg (by simp [removed]), ih]
        by_cases same : other = key <;> simp [find?, same, removed]
      · rw [List.filter_cons_of_pos (by simp [removed])]
        simp only [find?, ih]
        by_cases found : other = first.1
        · simp [found, removed]
        · simp [found]

theorem mem_put {key : Bytes} {cell : Cell} {entries : List Entry} {entry : Entry}
    (member : entry ∈ put key cell entries) : entry = (key, cell) ∨ entry ∈ entries := by
  induction entries with
  | nil => simpa [put] using member
  | cons first rest ih =>
      unfold put at member
      split at member
      · simpa using member
      · split at member
        · rcases List.mem_cons.1 member with same | later
          · exact .inl same
          · exact .inr (List.mem_cons_of_mem _ later)
        · rcases List.mem_cons.1 member with same | later
          · exact .inr (same ▸ List.mem_cons_self)
          · exact (ih later).imp id (List.mem_cons_of_mem _)

theorem Ascending.put {entries : List Entry} (ascending : Ascending entries) (key : Bytes)
    (cell : Cell) : Ascending (Entry.put key cell entries) := by
  induction entries with
  | nil => simp [Entry.put, Ascending]
  | cons first rest ih =>
      obtain ⟨above, restAscending⟩ := List.pairwise_cons.1 ascending
      unfold Entry.put
      split
      · rename_i before
        refine List.pairwise_cons.2 ⟨fun entry member => ?_, ascending⟩
        rcases List.mem_cons.1 member with same | later
        · exact same ▸ before
        · exact List.lt_trans before (above entry later)
      · rename_i notBefore
        split
        · rename_i same
          exact List.pairwise_cons.2 ⟨same ▸ above, restAscending⟩
        · rename_i different
          refine List.pairwise_cons.2 ⟨fun entry member => ?_, ih restAscending⟩
          rcases mem_put member with new | old
          · subst new
            exact Std.lt_of_le_of_ne notBefore (Ne.symm different)
          · exact above entry old

theorem Ascending.erase {entries : List Entry} (ascending : Ascending entries) (key : Bytes) :
    Ascending (Entry.erase key entries) :=
  List.Pairwise.filter _ ascending

end Entry

/-- A map from keys to cells. -/
structure Keyspace where
  entries : List Entry
  ascending : Entry.Ascending entries

namespace Keyspace

/-- The keyspace without keys. -/
def empty : Keyspace := ⟨[], List.Pairwise.nil⟩

/-- The cell of a key that is present. -/
def lookup? (keyspace : Keyspace) (key : Bytes) : Option Cell :=
  Entry.find? key keyspace.entries

/-- Set the cell of a key. -/
def put (keyspace : Keyspace) (key : Bytes) (cell : Cell) : Keyspace :=
  ⟨Entry.put key cell keyspace.entries, keyspace.ascending.put key cell⟩

/-- Remove a key. -/
def erase (keyspace : Keyspace) (key : Bytes) : Keyspace :=
  ⟨Entry.erase key keyspace.entries, keyspace.ascending.erase key⟩

/-- The value of a key. -/
def get? (keyspace : Keyspace) (key : Bytes) : Option Value :=
  (keyspace.lookup? key).join

/-- Whether a key is present. -/
def contains (keyspace : Keyspace) (key : Bytes) : Bool :=
  (keyspace.lookup? key).isSome

/-- The number of keys. -/
def size (keyspace : Keyspace) : Nat :=
  keyspace.entries.length

/-- The keys in ascending order. -/
def keys (keyspace : Keyspace) : List Bytes :=
  keyspace.entries.map (·.1)

/-- Remove a key, and say whether it had a value. -/
def delete (keyspace : Keyspace) (key : Bytes) : Bool × Keyspace :=
  ((keyspace.get? key).isSome, keyspace.erase key)

/-- Remove keys one after the other, and count those that had a value when
their turn came. -/
def deleteMany (keyspace : Keyspace) : List Bytes → Nat × Keyspace
  | [] => (0, keyspace)
  | key :: rest =>
      let later := (keyspace.delete key).2.deleteMany rest
      (later.1 + (keyspace.delete key).1.toNat, later.2)

@[ext] theorem ext {a b : Keyspace} (same : a.entries = b.entries) : a = b := by
  cases a; cases b; cases same; rfl

instance : DecidableEq Keyspace := fun a b =>
  decidable_of_iff (a.entries = b.entries) ⟨ext, fun same => same ▸ rfl⟩

/-! ## Looking up after an update -/

theorem lookup_put (keyspace : Keyspace) (key : Bytes) (cell : Cell) (other : Bytes) :
    (keyspace.put key cell).lookup? other =
      if other = key then some cell else keyspace.lookup? other :=
  Entry.find_put key cell other keyspace.entries

theorem lookup_erase (keyspace : Keyspace) (key other : Bytes) :
    (keyspace.erase key).lookup? other =
      if other = key then none else keyspace.lookup? other :=
  Entry.find_erase key other keyspace.entries

end Keyspace

end DurableStore
