/-
SceneScript.Layout — where the fields of a flat record lie among its slots.

A field starts at a slot and covers a number of slots: one for a number, as many
as the inner record has for a record inside a record. A type without fields is
not flat. Slot counts are kept in 64 bits, like all sizes.
-/
import SceneScript.Key
import SceneScript.Size

namespace SceneScript

/-- What a field holds: a number, or a record of the type with the given key. -/
inductive FieldKind
  | number
  | record (type : Key)
deriving DecidableEq, Repr

/-- A field and the slots it covers. -/
structure Field where
  name : String
  kind : FieldKind
  offset : Nat
  width : Nat
deriving DecidableEq, Repr

/-- The fields of a type, in order. -/
structure Layout where
  fields : List Field := []
deriving DecidableEq, Repr

namespace Layout

/-- Whether the type is a flat record. -/
def isFlat (l : Layout) : Bool := !l.fields.isEmpty

/-- The number of slots that the fields cover together. -/
def slots (l : Layout) : Nat := (l.fields.map Field.width).foldl addSizes 0

/-- The first field of the given name. -/
def field? (l : Layout) (name : String) : Option Field :=
  l.fields.find? fun f => f.name == name

end Layout

end SceneScript
