/-
SceneScript.Error — everything that can go wrong with a request, and its wording.

Each error is a cause with the data that belongs to it. `Error.message` is the
only place that words one, `Error.code` its stable code: T for types, V for
values, C for calls. An error is fatal unless the script can do something about
it, by calling another builtin or by passing another value.

`Failure` adds the one way a call can end that is not an error: the text that a
format asks for is longer than can be laid out at all.
-/
import SceneScript.Key
import SceneScript.Number.Text
import SceneScript.Schema
import SceneScript.Signature
import SceneScript.Text.Quoted

namespace SceneScript

/-- Why an argument is not acceptable although its type is. -/
inductive Objection
  /-- A radius that is zero or no finite number. -/
  | radius (value : Float)
  /-- The same for the first of two radii with different roles. -/
  | firstRadius (value : Float)
  /-- An image dimension that is not a whole number from zero on. -/
  | dimension (value : Float)
  /-- More pixels than can be counted. -/
  | uncountable (width height : Nat)
  /-- More elements than can be addressed. -/
  | unaddressable (count : Nat)
  /-- More elements than there is memory for. -/
  | outOfMemory (count : Nat)
  /-- A `%` directive that ends in an unknown letter. -/
  | unknownConversion (letter : Char)
  /-- A `%` directive that does not end. -/
  | unfinishedConversion
  /-- A second `%` directive. -/
  | secondConversion
  /-- Text that does not begin with anything like a number. -/
  | noNumber (text : String)
  /-- Text that begins like a real number and is none. -/
  | badReal (text : String)
  /-- Text that begins like a whole number and is none, or one beyond 64 bits. -/
  | badWhole (text : String)
  /-- Any other reason, in the words of whoever gave it. -/
  | reason (text : String)

/-- The wording of an objection. -/
def Objection.message : Objection → String
  | radius value => "radius must be finite and non-zero, got " ++ Number.plain value
  | firstRadius value => "radius1 must be finite and non-zero, got " ++ Number.plain value
  | dimension value => "image dimension must be a whole number >= 0, got " ++ Number.plain value
  | uncountable width height =>
    toString width ++ " x " ++ toString height ++ " overflows the element count"
  | unaddressable count => toString count ++ " elements exceed the addressable size"
  | outOfMemory count =>
    "cannot allocate " ++ toString count ++
      " elements: memory allocation failed because the memory allocator returned an error"
  | unknownConversion letter => "unsupported conversion `%" ++ letter.toString ++ "`"
  | unfinishedConversion => "format ends inside a conversion"
  | secondConversion => "format has more than one conversion"
  | noNumber text => "no number in " ++ Text.quote text
  | badReal text => "malformed float in " ++ Text.quote text
  | badWhole text => "malformed integer in " ++ Text.quote text
  | reason text => text

/-- What went wrong. -/
inductive Error
  /-- No type has this name. -/
  | unknownType (name : String)
  /-- A type has this name already. -/
  | duplicateType (name : String)
  /-- A type of another name has the key of this one. -/
  | keyCollision (name existing : String) (key : Key)
  /-- No type has this key. -/
  | unregistered (key : Key)
  /-- A schema cannot be read or cannot be registered. -/
  | schema (source : String) (fault : SchemaFault)
  /-- A value is not what was expected. -/
  | mismatch (expected got : String)
  /-- There is no conversion between two types. -/
  | unconvertible (source target : String)
  /-- A type has no such field. -/
  | unknownField (type path : String)
  /-- No builtin has this name. -/
  | unknownBuiltin (name : String)
  /-- The name, or its key, is taken. -/
  | duplicateBuiltin (name : String)
  /-- A call with the wrong number of arguments. -/
  | arity (name : String) (expected got : Nat)
  /-- An argument or slot beyond the last. -/
  | argumentIndex (index size : Nat)
  /-- A signature cannot be read. -/
  | signature (source : String) (fault : SignatureFault)
  /-- A builtin objects to an argument. -/
  | invalidArgument (name : String) (objection : Objection)

namespace Error

/-- The stable code of an error. -/
def code : Error → String
  | unknownType _ => "T001"
  | duplicateType _ => "T002"
  | keyCollision .. => "T003"
  | unregistered _ => "T004"
  | schema .. => "T005"
  | mismatch .. => "V001"
  | unconvertible .. => "V002"
  | unknownField .. => "V003"
  | unknownBuiltin _ => "C001"
  | duplicateBuiltin _ => "C002"
  | arity .. => "C003"
  | argumentIndex .. => "C004"
  | signature .. => "C005"
  | invalidArgument .. => "C006"

/-- Whether the same call can only fail again. -/
def isFatal : Error → Bool
  | unknownBuiltin _ => false
  | invalidArgument .. => false
  | _ => true

/-- The wording of an error. -/
def message : Error → String
  | unknownType name => "unknown type `" ++ name ++ "`"
  | duplicateType name => "type `" ++ name ++ "` is already registered"
  | keyCollision name existing key =>
    "type `" ++ name ++ "` collides with `" ++ existing ++ "` on key " ++ key.render
  | unregistered key => "cannot construct unregistered type " ++ key.render
  | schema source fault => "malformed schema `" ++ source ++ "`: " ++ fault.message
  | mismatch expected got => "expected " ++ expected ++ ", got " ++ got
  | unconvertible source target => "cannot convert `" ++ source ++ "` to `" ++ target ++ "`"
  | unknownField type path => "type `" ++ type ++ "` has no field `" ++ path ++ "`"
  | unknownBuiltin name => "unknown builtin `" ++ name ++ "`"
  | duplicateBuiltin name => "builtin `" ++ name ++ "` is already registered"
  | arity name expected got =>
    "`" ++ name ++ "` expects " ++ toString expected ++ " argument(s), got " ++ toString got
  | argumentIndex index size =>
    "argument " ++ toString index ++ " out of range for an argument list of size " ++
      toString size
  | signature source fault => "malformed signature `" ++ source ++ "`: " ++ fault.message
  | invalidArgument name objection => "`" ++ name ++ "`: " ++ objection.message

end Error

/-- How a call can end without a value. -/
inductive Failure
  /-- With an error. -/
  | error (e : Error)
  /-- With a text that cannot be laid out. -/
  | beyondLayout

/-- A result that is good after a function was applied to it was good before. -/
theorem exists_of_map_eq_ok {ε α β : Type} {f : α → β} {x : Except ε α} {b : β}
    (h : x.map f = .ok b) : ∃ a, x = .ok a ∧ f a = b := by
  cases x with
  | error e => cases h
  | ok a => exact ⟨a, rfl, Except.ok.inj h⟩

/-! ## Operations in place

An operation in place reports how it went and says what it leaves where it worked, also when it
reports a failure. -/

section InPlace

variable {α : Type}

/-- What an operation in place leaves, if it reports no error. -/
def madeBy : Except Error Unit × α → Except Error α
  | (.ok (), a) => .ok a
  | (.error e, _) => .error e

/-- What an operation in place leaves, if it reports that it was carried out. -/
def madeBy? : Bool × α → Option α
  | (true, a) => some a
  | (false, _) => none

theorem madeBy_eq_ok_iff {made : Except Error Unit × α} {a : α} :
    madeBy made = .ok a ↔ made = (.ok (), a) := by
  obtain ⟨_ | _, b⟩ := made <;> simp [madeBy]

theorem madeBy?_eq_some_iff {made : Bool × α} {a : α} :
    madeBy? made = some a ↔ made = (true, a) := by
  obtain ⟨_ | _, b⟩ := made <;> simp [madeBy?]

end InPlace

end SceneScript
