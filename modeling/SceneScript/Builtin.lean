/-
SceneScript.Builtin — what scripts can call, and the table of it.

A builtin is a signature and an entry. The entry is given the host it runs on,
its own signature and the argument list, and works on a frame; it answers with a
value, or with an operation on files whose outcome is the value, or fails, and
in each case leaves a frame behind in which more slots may have been evaluated.

The table finds a builtin by the key of its name and then compares the name, as
the registry of types does.
-/
import SceneScript.Catalog
import SceneScript.Config
import SceneScript.Files
import SceneScript.Frame

namespace SceneScript

/-- What an entry can see besides its arguments: the types, the configuration, the seconds since
the host was started, and the room that there is for buffers. -/
structure Host where
  types : Registry := {}
  config : Config := {}
  clock : Float := 0
  memory : Memory := .usual

/-- What a call comes to if nothing fails. -/
inductive Answer
  /-- This value. -/
  | value (v : Value)
  /-- The outcome of this operation, as a truth value. -/
  | file (op : FileOp)

namespace Answer

/-- The answer that is a payload of its own. -/
def payload (p : Payload) : Answer := value (.owned p)

/-- Turns an answer into a value, carrying out its operation on files. -/
def settle (t : Tree) : Answer → Value × Tree
  | value v => (v, t)
  | file op =>
    let (done, t') := t.perform op
    (.owned (.boolean done), t')

end Answer

/-- A step of a call: it may have slots of the frame evaluated, and it comes to something or
fails. -/
abbrev Call (α : Type) := ExceptT Failure (StateM Frame) α

/-- What a builtin does. -/
abbrev Entry := Host → Signature → Arguments → Call Answer

/-- A builtin. -/
structure Builtin where
  signature : Signature
  entry : Entry

namespace Builtin

/-- The name of a builtin is the one in its signature. -/
def name (b : Builtin) : String := b.signature.name

/-- The key of a builtin's name. -/
def key (b : Builtin) : Key := Key.ofName b.name

/-- The builtin with the signature that a text gives. -/
def ofText (source : String) (entry : Entry) : Except Error Builtin :=
  match Signature.parse source with
  | .ok signature => .ok ⟨signature, entry⟩
  | .error fault => .error (.signature source fault)

/-- A builtin as it is shown. -/
def print (b : Builtin) : String := "Builtin(" ++ b.signature.render ++ ")"

end Builtin

/-- The known builtins. -/
structure BuiltinTable where
  catalog : Catalog Builtin := {}

namespace BuiltinTable

/-- The known builtins, the oldest first. -/
def builtins (t : BuiltinTable) : List Builtin := t.catalog.items

/-- The number of builtins. -/
def size (t : BuiltinTable) : Nat := t.catalog.size

/-- The builtin with the given key. -/
def find? (t : BuiltinTable) (key : Key) : Option Builtin := t.catalog.find? key

/-- The builtin of the given name. -/
def get? (t : BuiltinTable) (name : String) : Option Builtin :=
  (t.find? (Key.ofName name)).filter fun b => b.name == name

/-- Whether there is a builtin of the given name. -/
def contains (t : BuiltinTable) (name : String) : Bool := (t.get? name).isSome

/-- Adds a builtin, unless the key of its name is taken. -/
def register (t : BuiltinTable) (b : Builtin) : Except Error Unit × BuiltinTable :=
  match t.find? b.key with
  | some _ => (.error (.duplicateBuiltin b.name), t)
  | none => (.ok (), ⟨t.catalog.add b.key b⟩)

end BuiltinTable

end SceneScript
