/-
SceneScript.Payload — what a value can hold.

There are four plain types, six flat records, two buffers and four shapes, and
whatever types a host brings along: of these nothing is known but what they are
called. A `Kind` is one of these types on its own. Each kind has the name that
scripts use, the title that appears in messages and in printed records, and a
default.

Plain values can stand in for each other where a number, a truth value or a text
is wanted; flat records can be read and written as lists of slots. Nothing else
converts by itself.
-/
import SceneScript.Image
import SceneScript.Number.Text
import SceneScript.Record
import SceneScript.Shape
import SceneScript.Text.Quoted

namespace SceneScript

/-! ## §1 Kinds -/

/-- A type that a host brings along, told apart from others by what it is called. Its values have
no slots, stand in for nothing else, and print as the title. -/
structure HostType where
  name : String
  title : String
deriving DecidableEq, Repr

/-- The types that values can have. -/
inductive Kind
  | number
  | integer
  | boolean
  | text
  | vec2
  | vec3
  | mat3
  | ray
  | rayCone
  | color
  | colorRow
  | colorImage
  | plane
  | sphere
  | squaroid
  | torus
  | hosted (type : HostType)
deriving DecidableEq, Repr

namespace Kind

/-- The name of a type in scripts. -/
def typeName : Kind → String
  | number => "f64"
  | integer => "i64"
  | boolean => "bool"
  | text => "string"
  | vec2 => "v2d"
  | vec3 => "v3d"
  | mat3 => "m3d"
  | ray => "ray"
  | rayCone => "ray_cone"
  | color => "color"
  | colorRow => "color_row"
  | colorImage => "color_image"
  | plane => "plane"
  | sphere => "sphere"
  | squaroid => "squaroid"
  | torus => "torus"
  | hosted type => type.name

/-- The name of a type in messages about values of another type, and in printed records. -/
def title : Kind → String
  | number => "f64"
  | integer => "i64"
  | boolean => "bool"
  | text => "String"
  | vec2 => "V2d"
  | vec3 => "V3d"
  | mat3 => "M3d"
  | ray => "Ray"
  | rayCone => "RayCone"
  | color => "Color"
  | colorRow => "ColorRow"
  | colorImage => "ColorImage"
  | plane => "Plane"
  | sphere => "Sphere"
  | squaroid => "Squaroid"
  | torus => "Torus"
  | hosted type => type.title

/-- Whether a type is one that a host brings along. -/
def isHosted : Kind → Bool
  | hosted _ => true
  | _ => false

/-- The key of a type's name. -/
def key (k : Kind) : Key := Key.ofName k.typeName

end Kind

/-! ## §2 Payloads -/

/-- What a value holds. -/
inductive Payload
  | number (x : Float)
  | integer (n : Int64)
  | boolean (b : Bool)
  | text (s : String)
  | vec2 (v : Vec2)
  | vec3 (v : Vec3)
  | mat3 (m : Mat3)
  | ray (r : Ray)
  | rayCone (c : RayCone)
  | color (c : Color)
  | colorRow (row : ColorRow)
  | colorImage (image : ColorImage)
  | plane (p : Plane)
  | sphere (s : Sphere)
  | squaroid (s : Squaroid)
  | torus (t : Torus)
  | hosted (type : HostType)

namespace Payload

/-- The type of a payload. -/
def kind : Payload → Kind
  | number _ => .number
  | integer _ => .integer
  | boolean _ => .boolean
  | text _ => .text
  | vec2 _ => .vec2
  | vec3 _ => .vec3
  | mat3 _ => .mat3
  | ray _ => .ray
  | rayCone _ => .rayCone
  | color _ => .color
  | colorRow _ => .colorRow
  | colorImage _ => .colorImage
  | plane _ => .plane
  | sphere _ => .sphere
  | squaroid _ => .squaroid
  | torus _ => .torus
  | hosted type => .hosted type

/-- The name of a payload's type in scripts. -/
def typeName (p : Payload) : String := p.kind.typeName

/-- The key of a payload's type. -/
def typeKey (p : Payload) : Key := Key.ofName p.typeName

end Payload

/-- The payload that a type begins with. -/
def Kind.default : Kind → Payload
  | number => .number 0
  | integer => .integer 0
  | boolean => .boolean false
  | text => .text ""
  | vec2 => .vec2 {}
  | vec3 => .vec3 {}
  | mat3 => .mat3 {}
  | ray => .ray {}
  | rayCone => .rayCone {}
  | color => .color {}
  | colorRow => .colorRow {}
  | colorImage => .colorImage .empty
  | plane => .plane {}
  | sphere => .sphere {}
  | squaroid => .squaroid {}
  | torus => .torus {}
  | hosted type => .hosted type

@[simp] theorem Kind.kind_default (k : Kind) : k.default.kind = k := by
  cases k <;> rfl

/-- Where a payload is wanted, a type stands for the payload that it begins with. -/
instance : Coe Kind Payload := ⟨Kind.default⟩

/-- The form of a type: what its payloads hold. -/
structure Form (α : Type) where
  kind : Kind
  wrap : α → Payload
  content? : Payload → Option α
  content?_eq_some : ∀ p a, content? p = some a ↔ p = wrap a
  exists_wrap : ∀ p : Payload, p.kind = kind ↔ ∃ a, p = wrap a

namespace Form

/-- Vectors. -/
def vec3 : Form Vec3 where
  kind := .vec3
  wrap := .vec3
  content?
    | .vec3 v => some v
    | _ => none
  content?_eq_some p a := by cases p <;> simp
  exists_wrap p := by cases p <;> simp [Payload.kind]

/-- Matrices. -/
def mat3 : Form Mat3 where
  kind := .mat3
  wrap := .mat3
  content?
    | .mat3 m => some m
    | _ => none
  content?_eq_some p a := by cases p <;> simp
  exists_wrap p := by cases p <;> simp [Payload.kind]

/-- Colors. -/
def color : Form Color where
  kind := .color
  wrap := .color
  content?
    | .color c => some c
    | _ => none
  content?_eq_some p a := by cases p <;> simp
  exists_wrap p := by cases p <;> simp [Payload.kind]

/-- Rows. -/
def colorRow : Form ColorRow where
  kind := .colorRow
  wrap := .colorRow
  content?
    | .colorRow row => some row
    | _ => none
  content?_eq_some p a := by cases p <;> simp
  exists_wrap p := by cases p <;> simp [Payload.kind]

/-- Images. -/
def colorImage : Form ColorImage where
  kind := .colorImage
  wrap := .colorImage
  content?
    | .colorImage image => some image
    | _ => none
  content?_eq_some p a := by cases p <;> simp
  exists_wrap p := by cases p <;> simp [Payload.kind]

/-- Planes. -/
def plane : Form Plane where
  kind := .plane
  wrap := .plane
  content?
    | .plane p => some p
    | _ => none
  content?_eq_some p a := by cases p <;> simp
  exists_wrap p := by cases p <;> simp [Payload.kind]

/-- Spheres. -/
def sphere : Form Sphere where
  kind := .sphere
  wrap := .sphere
  content?
    | .sphere s => some s
    | _ => none
  content?_eq_some p a := by cases p <;> simp
  exists_wrap p := by cases p <;> simp [Payload.kind]

/-- Quadric surfaces. -/
def squaroid : Form Squaroid where
  kind := .squaroid
  wrap := .squaroid
  content?
    | .squaroid s => some s
    | _ => none
  content?_eq_some p a := by cases p <;> simp
  exists_wrap p := by cases p <;> simp [Payload.kind]

/-- Tori. -/
def torus : Form Torus where
  kind := .torus
  wrap := .torus
  content?
    | .torus t => some t
    | _ => none
  content?_eq_some p a := by cases p <;> simp
  exists_wrap p := by cases p <;> simp [Payload.kind]

variable {α : Type}

theorem content?_wrap (form : Form α) (a : α) : form.content? (form.wrap a) = some a :=
  (form.content?_eq_some _ _).mpr rfl

theorem kind_wrap (form : Form α) (a : α) : (form.wrap a).kind = form.kind :=
  (form.exists_wrap _).mpr ⟨a, rfl⟩

end Form

namespace Payload

/-! ## §3 Plain readings -/

/-- A payload as a number; a truth value is one or zero. -/
def toNumber? : Payload → Option Float
  | number x => some x
  | integer n => some (Number.ofInt n.toInt)
  | boolean b => some (if b then 1 else 0)
  | _ => none

/-- A payload as a truth value; only zero is false, and what is no number is not zero. -/
def toBool? : Payload → Option Bool
  | number x => some (x != 0)
  | integer n => some (n != 0)
  | boolean b => some b
  | _ => none

/-- A payload as text. -/
def toText? : Payload → Option String
  | number x => some (Number.plain x)
  | integer n => some (String.ofList (Number.intText n.toInt))
  | boolean b => some (if b then "true" else "false")
  | text s => some s
  | _ => none

/-! ## §4 Slots -/

/-- The numbers in a flat record, in order. -/
def slots? : Payload → Option (List Float)
  | vec2 v => some v.slots
  | vec3 v => some v.slots
  | mat3 m => some m.slots
  | ray r => some r.slots
  | rayCone c => some c.slots
  | color c => some c.slots
  | _ => none

/-- Puts a payload in the place of another, if there is one to put there. -/
def replace (p : Payload) : Option Payload → Bool × Payload
  | some p' => (true, p')
  | none => (false, p)

/-- Writes other numbers into a flat record; there have to be as many as before. -/
def setSlots (p : Payload) (slots : List Float) : Bool × Payload :=
  match p with
  | vec2 _ => p.replace ((Vec2.ofSlots? slots).map .vec2)
  | vec3 _ => p.replace ((Vec3.ofSlots? slots).map .vec3)
  | mat3 _ => p.replace ((Mat3.ofSlots? slots).map .mat3)
  | ray _ => p.replace ((Ray.ofSlots? slots).map .ray)
  | rayCone _ => p.replace ((RayCone.ofSlots? slots).map .rayCone)
  | color _ => p.replace ((Color.ofSlots? slots).map .color)
  | _ => (false, p)

/-- The flat record with other numbers. -/
def setSlots? (p : Payload) (slots : List Float) : Option Payload := madeBy? (p.setSlots slots)

/-- Copies `source` onto `target`, if it has the same type. -/
def assign (target source : Payload) : Bool × Payload :=
  if source.kind = target.kind then (true, source) else (false, target)

end Payload

/-! ## §5 Printed form -/

/-- A vector as a printed record. -/
def Vec2.print (v : Vec2) : String :=
  Record.record Kind.vec2.title [("x", Number.shown v.x), ("y", Number.shown v.y)]

/-- A vector as a printed record. -/
def Vec3.print (v : Vec3) : String :=
  Record.record Kind.vec3.title
    [("x", Number.shown v.x), ("y", Number.shown v.y), ("z", Number.shown v.z)]

/-- A matrix as a printed record. -/
def Mat3.print (m : Mat3) : String :=
  Record.record Kind.mat3.title [("x", m.x.print), ("y", m.y.print), ("z", m.z.print)]

/-- A ray as a printed record. -/
def Ray.print (r : Ray) : String :=
  Record.record Kind.ray.title [("p", r.p.print), ("d", r.d.print)]

/-- A cone as a printed record. -/
def RayCone.print (c : RayCone) : String :=
  Record.record Kind.rayCone.title [("ray", c.ray.print), ("cos_rs", Number.shown c.cosRs)]

/-- A color as a printed record. -/
def Color.print (c : Color) : String :=
  Record.record Kind.color.title
    [("r", Number.shown c.r), ("g", Number.shown c.g), ("b", Number.shown c.b)]

/-- A row as a printed record. -/
def ColorRow.print (row : ColorRow) : String :=
  Record.record Kind.colorRow.title [("data", Record.list (row.data.toList.map Color.print))]

/-- An image as a printed record. -/
def ColorImage.print (image : ColorImage) : String :=
  Record.record Kind.colorImage.title
    [("width", toString image.width), ("height", toString image.height),
      ("data", Record.list (image.data.toList.map Color.print))]

/-- A pose as a printed record. -/
def Pose.print (p : Pose) : String :=
  Record.record "Pose" [("pos", p.pos.print), ("rot", p.rot.print), ("scale", Number.shown p.scale)]

/-- A bounding sphere as a printed record. -/
def Envelope.print (e : Envelope) : String :=
  Record.record "Envelope" [("pos", e.pos.print), ("radius", Number.shown e.radius)]

/-- A plane as a printed record. -/
def Plane.print (p : Plane) : String :=
  Record.record Kind.plane.title [("pose", p.pose.print)]

/-- A sphere as a printed record. -/
def Sphere.print (s : Sphere) : String :=
  Record.record Kind.sphere.title
    [("pose", s.pose.print), ("radius", Number.shown s.radius),
      ("envelope", Record.maybe (s.envelope.map Envelope.print))]

/-- A quadric surface as a printed record. -/
def Squaroid.print (s : Squaroid) : String :=
  Record.record Kind.squaroid.title
    [("pose", s.pose.print), ("a", Number.shown s.a), ("b", Number.shown s.b),
      ("c", Number.shown s.c), ("r", Number.shown s.r)]

/-- A torus as a printed record. -/
def Torus.print (t : Torus) : String :=
  Record.record Kind.torus.title
    [("pose", t.pose.print), ("ex_radius", Number.shown t.exRadius),
      ("envelope", Record.maybe (t.envelope.map Envelope.print))]

namespace Payload

/-- The printed form of a payload, in which text is quoted. -/
def print : Payload → String
  | number x => Number.shown x
  | integer n => String.ofList (Number.intText n.toInt)
  | boolean b => if b then "true" else "false"
  | text s => Text.quote s
  | vec2 v => v.print
  | vec3 v => v.print
  | mat3 m => m.print
  | ray r => r.print
  | rayCone c => c.print
  | color c => c.print
  | colorRow row => row.print
  | colorImage image => image.print
  | plane p => p.print
  | sphere s => s.print
  | squaroid s => s.print
  | torus t => t.print
  | hosted type => type.title

/-- A payload as a script shows it: its text if it has one, else its printed form. -/
def display (p : Payload) : String := p.toText?.getD p.print

end Payload

end SceneScript
