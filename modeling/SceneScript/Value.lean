/-
SceneScript.Value — payloads on the way between scripts and builtins.

A value carries a payload together with the key of its type and its ownership:
an owned payload belongs to this value alone, a borrowed one is a view into
something else, a shared one is held jointly. Only owned payloads can be
changed. A change never touches the key, and it never changes the type.
-/
import SceneScript.Access

namespace SceneScript

/-- Whom a payload belongs to. -/
inductive Ownership
  | owned
  | borrowed
  | shared
deriving DecidableEq, Repr

namespace Ownership

/-- The ownership as a word. -/
def word : Ownership → String
  | owned => "owned"
  | borrowed => "borrowed"
  | shared => "shared"

/-- The ownership as a word with a capital. -/
def title : Ownership → String
  | owned => "Owned"
  | borrowed => "Borrowed"
  | shared => "Shared"

end Ownership

/-- A payload with the key of its type and its ownership. -/
structure Value where
  key : Key
  payload : Payload
  ownership : Ownership

namespace Value

/-! ## §1 Making values -/

/-- A value that holds the payload with the given ownership. -/
def wrap (ownership : Ownership) (p : Payload) : Value := ⟨p.typeKey, p, ownership⟩

/-- A value that has the payload for itself. -/
def owned (p : Payload) : Value := wrap .owned p

/-- A value that holds the payload jointly with others. -/
def shared (p : Payload) : Value := wrap .shared p

/-- A value that is a view of the payload. -/
def borrowed (p : Payload) : Value := wrap .borrowed p

/-- A second value with the same payload: a copy of an owned one, else another holder. -/
def clone (v : Value) : Value := v

/-- The value on its own: what is not owned is copied. -/
def intoOwned (v : Value) : Value :=
  match v.ownership with
  | .owned => v
  | .borrowed => owned v.payload
  | .shared => owned v.payload

/-- The name of the payload's type. -/
def typeName (v : Value) : String := v.payload.typeName

/-- A fresh value of the type with the given key. -/
def create (r : Registry) (type : Key) : Except Error Value := (r.construct type).map owned

/-- A fresh value of the type with the given name. -/
def createNamed (r : Registry) (name : String) : Except Error Value :=
  (r.constructNamed name).map owned

/-- A new value of the given type made from this one. -/
def convert (v : Value) (r : Registry) (type : Key) : Except Error Value :=
  match create r type with
  | .error e => .error e
  | .ok fresh => (r.copyConvert fresh.payload v.payload).map fun p => { fresh with payload := p }

/-! ## §2 Readings -/

/-- The value as a number. -/
def toNumber (v : Value) : Except Error Float :=
  match v.payload.toNumber? with
  | some x => .ok x
  | none => .error (.mismatch "number" v.typeName)

/-- The value as a truth value. -/
def toBool (v : Value) : Except Error Bool :=
  match v.payload.toBool? with
  | some b => .ok b
  | none => .error (.mismatch "bool" v.typeName)

/-- The value as text. -/
def toText (v : Value) : Except Error String :=
  match v.payload.toText? with
  | some s => .ok s
  | none => .error (.mismatch "string" v.typeName)

/-- The value as a script shows it. -/
def display (v : Value) : String := v.payload.display

/-- The value in full, with its type and ownership. -/
def print (v : Value) : String :=
  Record.record "Value"
    [("type", Text.quote v.typeName), ("ownership", v.ownership.title),
      ("payload", v.payload.print)]

/-- What the payload holds, if it is of the given form. -/
def content {α : Type} (v : Value) (form : Form α) : Except Error α :=
  match form.content? v.payload with
  | some a => .ok a
  | none => .error (.mismatch form.kind.title v.typeName)

/-- The payload, if it is of the given kind. -/
def expect (v : Value) (kind : Kind) : Except Error Payload :=
  if v.payload.kind = kind then .ok v.payload else .error (.mismatch kind.title v.typeName)

/-! ## §3 Changes -/

/-- What the payload holds, if it may be changed and is of the given form. -/
def ownContent {α : Type} (v : Value) (form : Form α) : Except Error α :=
  if v.ownership = .owned then v.content form
  else
    .error (.mismatch ("owned " ++ form.kind.title) (v.ownership.word ++ " " ++ v.typeName))

/-- The payload, if it may be changed and is of the given kind. -/
def expectOwned (v : Value) (kind : Kind) : Except Error Payload :=
  if v.ownership = .owned then v.expect kind
  else .error (.mismatch ("owned " ++ kind.title) (v.ownership.word ++ " " ++ v.typeName))

/-- The value with another payload; its key and ownership stay. -/
def withPayload (v : Value) (p : Payload) : Value := { v with payload := p }

end Value

end SceneScript
