/-
SceneScript.Registry — the types that are known, in the order in which they came.

An entry says what a type is called, what constructs it, how its fields lie, and
how values of other types are turned into it. Entries are found by key, and a
name only counts as found if it is the entry's own: a second name with the same
key is refused when it is registered and unknown when it is looked up.

Every registration either adds one entry at the end or is refused and adds none.
A flat kind whose values do not fit its schema is only found out once it has been
added, and is taken out again.
-/
import SceneScript.Catalog
import SceneScript.Layout
import SceneScript.Payload

namespace SceneScript

/-! ## §1 Entries -/

/-- The conversions between types that there are. -/
inductive Conversion
  /-- To a vector, from a color. -/
  | toVec3
  /-- To a color, from a vector. -/
  | toColor
deriving DecidableEq, Repr

/-- A registered type. -/
structure TypeEntry where
  name : String
  key : Key
  /-- What is constructed for the type. -/
  fresh : Payload
  layout : Layout
  /-- How values of other types are turned into this one. -/
  conversion : Option Conversion

namespace TypeEntry

/-- The entry of a new type, under the key of its name and without a conversion. -/
def new (name : String) (fresh : Payload) (layout : Layout) : TypeEntry :=
  ⟨name, Key.ofName name, fresh, layout, none⟩

/-- The entry with a conversion. -/
def withConversion (e : TypeEntry) (conversion : Conversion) : TypeEntry :=
  { e with conversion := some conversion }

end TypeEntry

/-- The registered types. -/
structure Registry where
  catalog : Catalog TypeEntry := {}

namespace Registry

/-! ## §2 Finding -/

/-- The registered types, the oldest first. -/
def entries (r : Registry) : List TypeEntry := r.catalog.items

/-- The number of registered types. -/
def size (r : Registry) : Nat := r.catalog.size

/-- The entry with the given key. -/
def find? (r : Registry) (key : Key) : Option TypeEntry := r.catalog.find? key

/-- The entry with the given name. -/
def findNamed? (r : Registry) (name : String) : Option TypeEntry :=
  (r.find? (Key.ofName name)).filter fun e => e.name == name

/-- The key of a registered name. -/
def resolve (r : Registry) (name : String) : Except Error Key :=
  match r.findNamed? name with
  | some e => .ok e.key
  | none => .error (.unknownType name)

/-- Whether a name is registered. -/
def contains (r : Registry) (name : String) : Bool := (r.findNamed? name).isSome

/-- The name registered under a key. -/
def nameOf? (r : Registry) (key : Key) : Option String := (r.find? key).map (·.name)

/-- The layout registered under a key. -/
def layoutOf? (r : Registry) (key : Key) : Option Layout := (r.find? key).map (·.layout)

/-! ## §3 Constructing -/

/-- A fresh payload of the type with the given key. -/
def construct (r : Registry) (key : Key) : Except Error Payload :=
  match r.find? key with
  | some e => .ok e.fresh
  | none => .error (.unregistered key)

/-- A fresh payload of the type with the given name. -/
def constructNamed (r : Registry) (name : String) : Except Error Payload :=
  match r.resolve name with
  | .ok key => r.construct key
  | .error e => .error e

/-! ## §4 Registering -/

/-- Adds a type under the key of its name, unless that key is taken. -/
def register (r : Registry) (name : String) (fresh : Payload) (layout : Layout) :
    Except Error Key × Registry :=
  let key := Key.ofName name
  match r.find? key with
  | some existing =>
    (.error (if existing.name = name then .duplicateType name
      else .keyCollision name existing.name key), r)
  | none => (.ok key, ⟨r.catalog.add key (.new name fresh layout)⟩)

/-- Takes a type out again. -/
def unregister (r : Registry) (key : Key) : Registry := ⟨r.catalog.remove key⟩

/-- Adds a type without fields. -/
def registerPlain (r : Registry) (name : String) (kind : Kind) : Except Error Key × Registry :=
  r.register name kind.default {}

/-- The registered flat record of the given name. -/
def flatEntry (r : Registry) (name : String) : Except SchemaFault TypeEntry :=
  match r.findNamed? name with
  | some e => if e.layout.isFlat then .ok e else .error (.notFlat name)
  | none => .error (.notFlat name)

/-- The kind and width of a declared field. -/
def resolveType (r : Registry) (type : String) : Except SchemaFault (FieldKind × Nat) :=
  if type = numberType then .ok (.number, 1)
  else (r.flatEntry type).map fun e => (.record e.key, e.layout.slots)

/-- Lays out declared fields one after the other, from the given slot on. -/
def layOut (r : Registry) (offset : Nat) : List FieldDecl → Except SchemaFault (List Field)
  | [] => .ok []
  | decl :: rest =>
    match r.resolveType decl.type with
    | .error fault => .error fault
    | .ok (kind, width) =>
      (r.layOut (addSizes offset width) rest).map (⟨decl.name, kind, offset, width⟩ :: ·)

/-- The layout that a schema describes; types inside it have to be registered flat records. -/
def layoutOfBody (r : Registry) : SchemaBody → Except SchemaFault Layout
  | .alias target => (r.flatEntry target).map (·.layout)
  | .fields decls => (r.layOut 0 decls).map Layout.mk

/-- Adds the flat record that a schema describes. -/
def registerFlat (r : Registry) (source : String) (fresh : Payload) :
    Except Error Key × Registry :=
  match Schema.parse source with
  | .error fault => (.error (.schema source fault), r)
  | .ok schema =>
    match r.layoutOfBody schema.body with
    | .error fault => (.error (.schema source fault), r)
    | .ok layout => r.register schema.name fresh layout

end Registry

/-! ## §5 Flat records with schemas of their own -/

/-- A type of flat records that brings a schema. -/
structure FlatKind where
  /-- What is constructed for the type. -/
  fresh : Payload
  schema : String
  /-- The number of slots that its values provide. -/
  provided : Nat

namespace FlatKind

/-- A flat kind as a kind. -/
def kind (flat : FlatKind) : Kind := flat.fresh.kind

/-- Pairs of coordinates. -/
def vec2 : FlatKind := ⟨.vec2 {}, "v2d = \x7b f64 x; f64 y; \x7d", 2⟩

/-- Vectors. -/
def vec3 : FlatKind := ⟨.vec3 {}, "v3d = \x7b f64 x; f64 y; f64 z; \x7d", 3⟩

/-- Matrices. -/
def mat3 : FlatKind := ⟨.mat3 {}, "m3d = \x7b v3d x; v3d y; v3d z; \x7d", 9⟩

/-- Rays. -/
def ray : FlatKind := ⟨.ray {}, "ray = \x7b v3d p; v3d d; \x7d", 6⟩

/-- Cones around rays. -/
def rayCone : FlatKind := ⟨.rayCone {}, "ray_cone = \x7b ray ray; f64 cos_rs; \x7d", 7⟩

/-- Colors, which share the fields of vectors. -/
def color : FlatKind := ⟨.color {}, "color = v3d", 3⟩

end FlatKind

namespace Registry

/-- Adds a flat kind by its own schema. If that declares another number of slots than its values
provide, the type is taken out again. -/
def registerRecord (r : Registry) (flat : FlatKind) : Except Error Key × Registry :=
  match r.registerFlat flat.schema flat.fresh with
  | (.error e, r) => (.error e, r)
  | (.ok key, r) =>
    let declared := ((r.layoutOf? key).map (·.slots)).getD 0
    if flat.provided = declared then (.ok key, r)
    else (.error (.schema flat.schema (.slotCount declared flat.provided)), r.unregister key)

/-- Attaches a conversion to a registered type. -/
def setConversion (r : Registry) (key : Key) (conversion : Conversion) :
    Except Error Key × Registry :=
  match r.find? key with
  | none => (.error (.unregistered key), r)
  | some _ =>
    (.ok key, ⟨r.catalog.update key fun e => e.withConversion conversion⟩)

end Registry

/-! ## §6 Requests -/

/-- A request to a registry. -/
inductive Registration
  /-- A type with any layout. -/
  | laidOut (name : String) (fresh : Payload) (layout : Layout)
  /-- A type without fields. -/
  | plain (name : String) (kind : Kind)
  /-- A flat record by a schema. -/
  | flat (source : String) (fresh : Payload)
  /-- A flat kind by its own schema. -/
  | record (flat : FlatKind)
  /-- A conversion to a registered type. -/
  | conversion (type : Key) (conversion : Conversion)

namespace Registry

/-- Answers a request. -/
def perform (r : Registry) : Registration → Except Error Key × Registry
  | .laidOut name fresh layout => r.register name fresh layout
  | .plain name kind => r.registerPlain name kind
  | .flat source fresh => r.registerFlat source fresh
  | .record flat => r.registerRecord flat
  | .conversion type conversion => r.setConversion type conversion

/-- Answers requests one after the other, refused or not. -/
def performAll (r : Registry) (requests : List Registration) : Registry :=
  requests.foldl (fun r request => (r.perform request).2) r

end Registry

end SceneScript
