/-!
# Ordered collections

Collections whose order is part of their meaning: lists without repeats that keep the first of
equal elements, and tables from texts to values that remember the order in which their entries
were made.
-/

namespace CallAtlas

/-- The elements of a list whose key occurs nowhere before them. -/
def keepFirst {α β : Type} [DecidableEq β] (key : α → β) : List α → List α
  | [] => []
  | x :: xs => x :: (keepFirst key xs).filter fun y => key y ≠ key x

/-- The texts of a list in order of code points. -/
def sortTexts (texts : List String) : List String :=
  texts.mergeSort fun a b => decide (a ≤ b)

/-- Entries in the order in which they were made. -/
abbrev Table (α : Type) := List (String × α)

namespace Table

variable {α : Type}

/-- The keys, in order. -/
def keys (t : Table α) : List String :=
  t.map Prod.fst

/-- The value at `key`. -/
def get? (t : Table α) (key : String) : Option α :=
  t.lookup key

/-- Whether there is an entry at `key`. -/
def has (t : Table α) (key : String) : Bool :=
  t.any fun entry => entry.1 == key

/-- Makes an entry at the end unless `key` has one. -/
def insertNew (t : Table α) (key : String) (value : α) : Table α :=
  if t.has key then t else t ++ [(key, value)]

/-- Sets the value at `key`: in place when there is an entry, at the end otherwise. -/
def insert (t : Table α) (key : String) (value : α) : Table α :=
  if t.has key then t.map fun entry => if entry.1 = key then (key, value) else entry
  else t ++ [(key, value)]

/-- Sets all entries of `u` in turn. -/
def insertAll (t u : Table α) : Table α :=
  u.foldl (fun t entry => t.insert entry.1 entry.2) t

end Table

end CallAtlas
