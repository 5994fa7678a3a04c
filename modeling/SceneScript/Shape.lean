/-
SceneScript.Shape — scene objects as plain data.

A shape is a pose and the numbers that tell it from others of its kind. Quadric
shapes are given by radii, which are stored as the coefficients `1 / radius²` of
`a·x² + b·y² + c·z² = r`; a radius that has no such coefficient is refused, the
first one in order.
-/
import SceneScript.Error
import SceneScript.Vector

namespace SceneScript

/-- Where an object stands, how it is turned, and its size. -/
structure Pose where
  pos : Vec3 := {}
  rot : Mat3 := .identity
  scale : Float := 1

/-- A bounding sphere. -/
structure Envelope where
  pos : Vec3 := {}
  radius : Float := 0

/-- The plane through the origin of its pose, across the third axis. -/
structure Plane where
  pose : Pose := {}

/-- A sphere, with a bounding sphere once its radius has been set. -/
structure Sphere where
  pose : Pose := {}
  radius : Float := 1
  envelope : Option Envelope := none

/-- The surface `a·x² + b·y² + c·z² = r`. -/
structure Squaroid where
  pose : Pose := {}
  a : Float := 0
  b : Float := 0
  c : Float := 0
  r : Float := 0

/-- A torus across the third axis. Its ring has radius 1 and its tube radius `exRadius`; the scale
of the pose brings it to size. -/
structure Torus where
  pose : Pose := {}
  exRadius : Float := 0.5
  envelope : Option Envelope := none

/-- The sphere with another radius, bounded by itself. -/
def Sphere.setRadius (s : Sphere) (radius : Float) : Sphere :=
  { s with radius := radius, envelope := some ⟨s.pose.pos, radius⟩ }

/-- The sphere at another place, if one is given. -/
def Sphere.moved (s : Sphere) (pos : Option Vec3) : Sphere :=
  { s with pose := { s.pose with pos := pos.getD s.pose.pos } }

/-- Zero of either sign, infinite, or no number. -/
def isUnusableRadius (radius : Float) : Bool :=
  radius == 0 || !Number.isFinite radius

namespace Squaroid

/-- The coefficient that belongs to a radius. -/
def coefficient (radius : Float) : Except Objection Float :=
  if isUnusableRadius radius then .error (.radius radius) else .ok (1 / (radius * radius))

/-- An endless cylinder along the third axis. -/
def cylinder (rx ry : Float) : Except Objection Squaroid := do
  let a ← coefficient rx
  let b ← coefficient ry
  return { a := a, b := b, c := 0, r := 1 }

/-- The coefficients of three radii, put together by `make`. -/
def ofRadii (make : Float → Float → Float → Squaroid) (rx ry rz : Float) :
    Except Objection Squaroid := do
  let a ← coefficient rx
  let b ← coefficient ry
  let c ← coefficient rz
  return make a b c

/-- The surface of points at relative distance 1 from the center. -/
def ellipsoid : Float → Float → Float → Except Objection Squaroid :=
  ofRadii fun a b c => { a := a, b := b, c := c, r := 1 }

/-- A hyperboloid in one piece, open along the third axis. -/
def hyperboloid1 : Float → Float → Float → Except Objection Squaroid :=
  ofRadii fun a b c => { a := a, b := b, c := -c, r := 1 }

/-- A hyperboloid in two pieces, apart along the third axis. -/
def hyperboloid2 : Float → Float → Float → Except Objection Squaroid :=
  ofRadii fun a b c => { a := a, b := b, c := -c, r := -1 }

/-- A double cone along the third axis with its tip at the origin. -/
def cone : Float → Float → Float → Except Objection Squaroid :=
  ofRadii fun a b c => { a := a, b := b, c := -c, r := 0 }

end Squaroid

/-- The torus with ring radius `radius1` and tube radius `radius2`; its bounding sphere holds all
of it, widened by the factor `margin`. -/
def Torus.ofRadii (radius1 radius2 margin : Float) : Except Objection Torus :=
  if isUnusableRadius radius1 then .error (.firstRadius radius1)
  else
    let pose : Pose := { scale := radius1 }
    .ok {
      pose := pose
      exRadius := radius2 / radius1
      envelope := some ⟨pose.pos, (radius1 + radius2) * margin⟩ }

end SceneScript
