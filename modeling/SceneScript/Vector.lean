/-
SceneScript.Vector — vectors, matrices, rays and colors.

These are the flat records: each is a fixed number of doubles in a fixed order,
its slots. `slots` lists them and `ofSlots?` builds the record from a list of
the right length; a matrix is stored as three rows. Rotations are right-handed
and take radians.
-/

namespace SceneScript

/-! ## §1 Records -/

/-- A pair of coordinates. -/
structure Vec2 where
  x : Float := 0
  y : Float := 0

/-- A point or direction in space. -/
structure Vec3 where
  x : Float := 0
  y : Float := 0
  z : Float := 0

/-- Three rows. -/
structure Mat3 where
  x : Vec3 := {}
  y : Vec3 := {}
  z : Vec3 := {}

/-- An origin `p` and a direction `d`. -/
structure Ray where
  p : Vec3 := {}
  d : Vec3 := {}

/-- A ray widened into a cone; `cosRs` is the cosine of half its opening angle. -/
structure RayCone where
  ray : Ray := {}
  cosRs : Float := 0

/-- Amounts of red, green and blue. -/
structure Color where
  r : Float := 0
  g : Float := 0
  b : Float := 0

/-! ## §2 Arithmetic -/

/-- The sum of the products of coordinates, from the first to the last. -/
def Vec3.dot (u v : Vec3) : Float := u.x * v.x + u.y * v.y + u.z * v.z

namespace Mat3

/-- The matrix that changes nothing. -/
def identity : Mat3 := ⟨⟨1, 0, 0⟩, ⟨0, 1, 0⟩, ⟨0, 0, 1⟩⟩

/-- The turn about the first axis by an angle with the given sine and cosine. -/
def turnX (sin cos : Float) : Mat3 := ⟨⟨1, 0, 0⟩, ⟨0, cos, -sin⟩, ⟨0, sin, cos⟩⟩

/-- The turn about the second axis by an angle with the given sine and cosine. -/
def turnY (sin cos : Float) : Mat3 := ⟨⟨cos, 0, sin⟩, ⟨0, 1, 0⟩, ⟨-sin, 0, cos⟩⟩

/-- The turn about the third axis by an angle with the given sine and cosine. -/
def turnZ (sin cos : Float) : Mat3 := ⟨⟨cos, -sin, 0⟩, ⟨sin, cos, 0⟩, ⟨0, 0, 1⟩⟩

/-- The product with a column vector. -/
def mulVec (m : Mat3) (v : Vec3) : Vec3 := ⟨m.x.dot v, m.y.dot v, m.z.dot v⟩

end Mat3

/-- One of the three axes of space. -/
inductive Axis
  | x
  | y
  | z
deriving DecidableEq, Repr

/-- The turn about an axis by an angle in radians. -/
def Mat3.turn (axis : Axis) (angle : Float) : Mat3 :=
  match axis with
  | .x => turnX angle.sin angle.cos
  | .y => turnY angle.sin angle.cos
  | .z => turnZ angle.sin angle.cos

namespace Color

/-- A channel brought into the range from 0 to 1; what is no number stays as it is. -/
def clampChannel (c : Float) : Float :=
  if c < 0 then 0 else if 1 < c then 1 else c

/-- Tone mapping: each channel is brought into the range from 0 to 1 and raised to the power
`gamma`. -/
def saturate (c : Color) (gamma : Float) : Color :=
  ⟨(clampChannel c.r).pow gamma, (clampChannel c.g).pow gamma, (clampChannel c.b).pow gamma⟩

/-- The color with the coordinates of a vector as its channels. -/
def ofVec3 (v : Vec3) : Color := ⟨v.x, v.y, v.z⟩

/-- The vector with the channels of a color as its coordinates. -/
def toVec3 (c : Color) : Vec3 := ⟨c.r, c.g, c.b⟩

end Color

/-! ## §3 Slots -/

/-- The coordinates in order. -/
def Vec2.slots (v : Vec2) : List Float := [v.x, v.y]

/-- The coordinates in order. -/
def Vec3.slots (v : Vec3) : List Float := [v.x, v.y, v.z]

/-- The rows one after the other. -/
def Mat3.slots (m : Mat3) : List Float := m.x.slots ++ m.y.slots ++ m.z.slots

/-- The origin and then the direction. -/
def Ray.slots (r : Ray) : List Float := r.p.slots ++ r.d.slots

/-- The ray and then the cosine. -/
def RayCone.slots (c : RayCone) : List Float := c.ray.slots ++ [c.cosRs]

/-- The channels in order. -/
def Color.slots (c : Color) : List Float := [c.r, c.g, c.b]

/-- The pair with the given slots. -/
def Vec2.ofSlots? : List Float → Option Vec2
  | [x, y] => some ⟨x, y⟩
  | _ => none

/-- The vector with the given slots. -/
def Vec3.ofSlots? : List Float → Option Vec3
  | [x, y, z] => some ⟨x, y, z⟩
  | _ => none

/-- The matrix with the given slots. -/
def Mat3.ofSlots? : List Float → Option Mat3
  | [a, b, c, d, e, f, g, h, i] => some ⟨⟨a, b, c⟩, ⟨d, e, f⟩, ⟨g, h, i⟩⟩
  | _ => none

/-- The ray with the given slots. -/
def Ray.ofSlots? : List Float → Option Ray
  | [a, b, c, d, e, f] => some ⟨⟨a, b, c⟩, ⟨d, e, f⟩⟩
  | _ => none

/-- The cone with the given slots. -/
def RayCone.ofSlots? : List Float → Option RayCone
  | [a, b, c, d, e, f, g] => some ⟨⟨⟨a, b, c⟩, ⟨d, e, f⟩⟩, g⟩
  | _ => none

/-- The color with the given slots. -/
def Color.ofSlots? : List Float → Option Color
  | [r, g, b] => some ⟨r, g, b⟩
  | _ => none

theorem Vec3.ofSlots?_slots (v : Vec3) : ofSlots? v.slots = some v := rfl

theorem Mat3.ofSlots?_slots (m : Mat3) : ofSlots? m.slots = some m := rfl

theorem RayCone.ofSlots?_slots (c : RayCone) : ofSlots? c.slots = some c := rfl

end SceneScript
