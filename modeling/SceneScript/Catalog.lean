/-
SceneScript.Catalog — things that are found by key and listed in the order in which they came.

A catalog keeps two books: what is stored under each key, and the keys in the
order in which they were added. Nothing but its operations ties the two
together. `add` writes into both, `remove` strikes out of both, `update` changes
what is stored and leaves the order alone. Whoever adds something has to know
that the key is free.
-/
import SceneScript.Key
import Std.Data.ExtTreeMap

namespace SceneScript

/-- What is stored under keys, and the keys in the order in which they were added. -/
structure Catalog (α : Type) where
  stored : Std.ExtTreeMap Key α := ∅
  order : List Key := []

namespace Catalog

variable {α : Type}

/-- What is stored under a key. -/
def find? (c : Catalog α) (key : Key) : Option α := c.stored[key]?

/-- The number of things stored. -/
def size (c : Catalog α) : Nat := c.stored.size

/-- What is stored, the oldest first. -/
def items (c : Catalog α) : List α := c.order.filterMap c.find?

/-- Stores something under a key and lists the key as the last one. -/
def add (c : Catalog α) (key : Key) (a : α) : Catalog α :=
  ⟨c.stored.insert key a, c.order ++ [key]⟩

/-- Takes a key out of both books. -/
def remove (c : Catalog α) (key : Key) : Catalog α :=
  ⟨c.stored.erase key, c.order.filter fun other => other != key⟩

/-- Changes what is stored under a key. -/
def update (c : Catalog α) (key : Key) (f : α → α) : Catalog α :=
  { c with stored := c.stored.modify key f }

@[simp] theorem find?_empty (key : Key) : ({} : Catalog α).find? key = none := by
  simp [find?]

@[simp] theorem order_add (c : Catalog α) (key : Key) (a : α) :
    (c.add key a).order = c.order ++ [key] := rfl

@[simp] theorem order_update (c : Catalog α) (key : Key) (f : α → α) :
    (c.update key f).order = c.order := rfl

theorem find?_add (c : Catalog α) (key other : Key) (a : α) :
    (c.add key a).find? other = if key = other then some a else c.find? other := by
  simp [find?, add, Std.ExtTreeMap.getElem?_insert]

theorem find?_remove (c : Catalog α) (key other : Key) :
    (c.remove key).find? other = if key = other then none else c.find? other := by
  simp [find?, remove, Std.ExtTreeMap.getElem?_erase]

theorem find?_update (c : Catalog α) (key other : Key) (f : α → α) :
    (c.update key f).find? other =
      if key = other then (c.find? key).map f else c.find? other := by
  simp [find?, update, Std.ExtTreeMap.getElem?_modify]

end Catalog

end SceneScript
