/-
SceneScript.Standard.Vectors — builtins that make vectors, colors and rotations.

Components that a builtin does not set are zero. Angles are in degrees.
-/
import SceneScript.Standard.Steps

namespace SceneScript.Standard

/-- An angle of so many degrees, in radians. -/
def radians (degrees : Float) : Float := degrees * (3.14159265358979323846 / 180)

/-- An angle of so many radians, in degrees. -/
def degrees (radians : Float) : Float := radians * (180 / 3.14159265358979323846)

/-- A vector of three numbers; it is filled component by component. -/
def createVec : Entry := fun host signature args => do
  checkCount signature args 3
  build .vec3 host fun v => do
    let x ← number args 0
    let y ← number args 1
    let z ← number args 2
    return { v with x := x, y := y, z := z }

/-- A vector with one component set. -/
def component (set : Vec3 → Float → Vec3) : Entry := fun host signature args => do
  checkCount signature args 1
  build .vec3 host fun v => do
    let x ← number args 0
    return set v x

/-- A color of three numbers; it is filled channel by channel. -/
def createColor : Entry := fun host signature args => do
  checkCount signature args 3
  build .color host fun c => do
    let r ← number args 0
    let g ← number args 1
    let b ← number args 2
    return { c with r := r, g := g, b := b }

/-- A color with one channel set. -/
def channel (set : Color → Float → Color) : Entry := fun host signature args => do
  checkCount signature args 1
  build .color host fun c => do
    let x ← number args 0
    return set c x

/-- The rotation about an axis; the angle is read before the matrix is made. -/
def rotation (axis : Axis) : Entry := fun host signature args => do
  checkCount signature args 1
  let deg ← number args 0
  build .mat3 host fun _ => return .turn axis (radians deg)

/-- Vectors, colors and rotations. -/
def vectorSpecs : List Spec := [
  ⟨"v3d create_vec( num x, num y, num z )", createVec⟩,
  ⟨"v3d vecx( num v )", component fun v x => { v with x := x }⟩,
  ⟨"v3d vecy( num v )", component fun v y => { v with y := y }⟩,
  ⟨"v3d vecz( num v )", component fun v z => { v with z := z }⟩,
  ⟨"color create_color( num r, num g, num b )", createColor⟩,
  ⟨"color colr( num v )", channel fun c r => { c with r := r }⟩,
  ⟨"color colg( num v )", channel fun c g => { c with g := g }⟩,
  ⟨"color colb( num v )", channel fun c b => { c with b := b }⟩,
  ⟨"m3d rotx( num deg )", rotation .x⟩,
  ⟨"m3d roty( num deg )", rotation .y⟩,
  ⟨"m3d rotz( num deg )", rotation .z⟩]

end SceneScript.Standard
