/-
SceneScript.Access — fields of records by path, and conversion between types.

A path is field names with points between them, `d.z`; it leads through the
layouts of nested records to a span of slots. Reading and writing are for spans
of one slot. Conversion copies a value onto one of the same type, and otherwise
asks the conversion of the target's registered type.
-/
import SceneScript.Registry

namespace SceneScript

/-! ## §1 Paths -/

namespace Registry

/-- Follows the parts of a path from a type, counting slots from `base`. -/
def follow (r : Registry) (path : String) (e : TypeEntry) (base : Nat) :
    List String → Except Error (Nat × Nat)
  | [] => .error (.unknownField e.name path)
  | part :: rest =>
    match e.layout.field? part with
    | none => .error (.unknownField e.name path)
    | some field =>
      match rest, field.kind with
      | [], _ => .ok (addSizes base field.offset, field.width)
      | _ :: _, .number => .error (.unknownField e.name path)
      | _ :: _, .record inner =>
        match r.find? inner with
        | none => .error (.unregistered inner)
        | some e' => r.follow path e' (addSizes base field.offset) rest

/-- The parts of a path. -/
def pathParts (path : String) : List String :=
  (Text.split (· == '.') path.toList).map String.ofList

/-- The first slot and the number of slots that a path in a type leads to. -/
def fieldSpan (r : Registry) (type : Key) (path : String) : Except Error (Nat × Nat) :=
  match r.find? type with
  | none => .error (.unregistered type)
  | some e => r.follow path e 0 (pathParts path)

/-! ## §2 Numbers at a path -/

/-- The error of using a span of several slots, or one outside the record, as a number. -/
def notOneSlot (width : Nat) (path : String) : Error :=
  .mismatch numberType (toString width ++ "-slot field `" ++ path ++ "`")

/-- The number at a path. -/
def getField (r : Registry) (p : Payload) (path : String) : Except Error Float :=
  match r.fieldSpan p.typeKey path with
  | .error e => .error e
  | .ok (offset, width) =>
    match p.slots? with
    | none => .error (.mismatch "flat entity" p.typeName)
    | some slots =>
      if width = 1 then
        match slots[offset]? with
        | some x => .ok x
        | none => .error (.unknownField p.typeName path)
      else .error (notOneSlot width path)

/-- Writes another number at a path. -/
def writeField (r : Registry) (p : Payload) (path : String) (x : Float) :
    Except Error Unit × Payload :=
  match r.fieldSpan p.typeKey path with
  | .error e => (.error e, p)
  | .ok (offset, width) =>
    match p.slots? with
    | none => (.error (.mismatch "flat entity" p.typeName), p)
    | some slots =>
      if width = 1 ∧ offset < slots.length then (.ok (), (p.setSlots (slots.set offset x)).2)
      else (.error (notOneSlot width path), p)

/-- The payload with another number at a path. -/
def setField (r : Registry) (p : Payload) (path : String) (x : Float) : Except Error Payload :=
  madeBy (r.writeField p path x)

end Registry

/-! ## §3 Conversion -/

/-- Writes onto a target what a conversion makes of a source. -/
def Conversion.apply (c : Conversion) (target source : Payload) : Except Error Unit × Payload :=
  match c, target with
  | .toVec3, .vec3 _ =>
    match source with
    | .vec3 v => (.ok (), .vec3 v)
    | .color c => (.ok (), .vec3 c.toVec3)
    | other => (.error (.unconvertible other.typeName Kind.vec3.typeName), target)
  | .toVec3, other => (.error (.mismatch Kind.vec3.typeName other.typeName), target)
  | .toColor, .color _ =>
    match source with
    | .color c => (.ok (), .color c)
    | .vec3 v => (.ok (), .color (.ofVec3 v))
    | other => (.error (.unconvertible other.typeName Kind.color.typeName), target)
  | .toColor, other => (.error (.mismatch Kind.color.typeName other.typeName), target)

namespace Registry

/-- Copies a source onto a target. -/
def copyOnto (r : Registry) (target source : Payload) : Except Error Unit × Payload :=
  match target.assign source with
  | (true, target) => (.ok (), target)
  | (false, target) =>
    match r.find? target.typeKey with
    | none => (.error (.unknownType target.typeName), target)
    | some e =>
      match e.conversion with
      | some c => c.apply target source
      | none => (.error (.unconvertible source.typeName target.typeName), target)

/-- What becomes of a target when a source is copied onto it. -/
def copyConvert (r : Registry) (target source : Payload) : Except Error Payload :=
  madeBy (r.copyOnto target source)

end Registry

end SceneScript
