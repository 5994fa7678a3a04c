/-
SceneScript.Standard.Objects — builtins for files, scene objects, images and time.

File builtins answer with an operation on files. Object builtins make shapes
from radii and coefficients, `create_object` a default of any registered type.
-/
import SceneScript.Standard.Steps

namespace SceneScript.Standard

/-! ## §1 Files -/

/-- An operation on one path. -/
def onPath (op : String → FileOp) : Entry := fun _ signature args => do
  checkCount signature args 1
  let path ← text args 0
  return .file (op path)

/-- Renaming. -/
def fileRename : Entry := fun _ signature args => do
  checkCount signature args 2
  let source ← text args 0
  let target ← text args 1
  return .file (.rename source target)

/-- Files. -/
def fileSpecs : List Spec := [
  ⟨"bool file_exists( string file )", onPath .present⟩,
  ⟨"bool file_touch( string file )", onPath .touch⟩,
  ⟨"bool file_delete( string file )", onPath .delete⟩,
  ⟨"bool file_rename( string src_file, string dst_file )", fileRename⟩]

/-! ## §2 Scene objects -/

/-- A shape, or the objection to its radii on behalf of a builtin. -/
def shape {α : Type} (caller : String) (made : Except Objection α) : Call α :=
  attempt (made.mapError fun objection => .invalidArgument caller objection)

/-- A default of the type of the given name. -/
def createObject : Entry := fun host signature args => do
  checkCount signature args 1
  let name ← text args 0
  let v ← attempt (Value.createNamed host.types name)
  return .value v

/-- A plane. -/
def createPlane : Entry := fun host signature args => do
  checkCount signature args 0
  build .plane host fun p => return p

/-- A sphere of the given radius. -/
def createSphere : Entry := fun host signature args => do
  checkCount signature args 1
  let radius ← number args 0
  build .sphere host fun s => return s.setRadius radius

/-- A quadric of the given coefficients. -/
def createSquaroid : Entry := fun host signature args => do
  checkCount signature args 4
  let a ← number args 0
  let b ← number args 1
  let c ← number args 2
  let r ← number args 3
  build .squaroid host fun s => return { s with a := a, b := b, c := c, r := r }

/-- A cylinder of the given radii. -/
def createCylinder : Entry := fun host signature args => do
  checkCount signature args 2
  let rx ← number args 0
  let ry ← number args 1
  let made ← shape "create_cylinder" (Squaroid.cylinder rx ry)
  build .squaroid host fun _ => return made

/-- A torus of the given radii, bounded as the host is configured. -/
def createTorus : Entry := fun host signature args => do
  checkCount signature args 2
  let radius1 ← number args 0
  let radius2 ← number args 1
  let made ← shape "create_torus" (Torus.ofRadii radius1 radius2 host.config.envelopeMargin)
  build .torus host fun _ => return made

/-- A quadric of three radii. -/
def quadric (caller : String) (make : Float → Float → Float → Except Objection Squaroid) :
    Entry := fun host signature args => do
  checkCount signature args 3
  let rx ← number args 0
  let ry ← number args 1
  let rz ← number args 2
  let made ← shape caller (make rx ry rz)
  build .squaroid host fun _ => return made

/-- Scene objects. -/
def objectSpecs : List Spec := [
  ⟨"root create_object( string name )", createObject⟩,
  ⟨"plane create_plane()", createPlane⟩,
  ⟨"sphere create_sphere( num radius )", createSphere⟩,
  ⟨"squaroid create_squaroid( num a, num b, num c, num r )", createSquaroid⟩,
  ⟨"squaroid create_cylinder( num radius_x, num radius_y )", createCylinder⟩,
  ⟨"torus create_torus( num radius1, num radius2 )", createTorus⟩,
  ⟨"squaroid create_hyperboloid1( num radius_x, num radius_y, num radius_z )",
    quadric "create_hyperboloid1" Squaroid.hyperboloid1⟩,
  ⟨"squaroid create_hyperboloid2( num radius_x, num radius_y, num radius_z )",
    quadric "create_hyperboloid2" Squaroid.hyperboloid2⟩,
  ⟨"squaroid create_ellipsoid( num radius_x, num radius_y, num radius_z )",
    quadric "create_ellipsoid" Squaroid.ellipsoid⟩,
  ⟨"squaroid create_cone( num radius_x, num radius_y, num radius_z )",
    quadric "create_cone" Squaroid.cone⟩]

/-! ## §3 Images -/

/-- The name of the builtin that makes images. -/
def imageName : String := "create_image"

/-- A number as an image dimension: it has to be whole and not negative; one that is too large for
a size is the largest size. -/
def dimension (caller : String) (x : Float) : Except Error Nat :=
  match Number.natural? x with
  | some n => .ok (min n maxSize)
  | none => .error (.invalidArgument caller (.dimension x))

/-- An image of one color. Each dimension is looked at before the next argument is asked for. -/
def createImage : Entry := fun host signature args => do
  checkCount signature args 3
  let w ← number args 0
  let width ← attempt (dimension imageName w)
  let h ← number args 1
  let height ← attempt (dimension imageName h)
  let fill ← content .color args 2
  build .colorImage host fun _ =>
    attempt (ColorImage.resized host.memory width height fill)

/-- Tone mapping; it gives an image of its own and leaves its argument alone. -/
def saturate : Entry := fun host signature args => do
  checkCount signature args 2
  let image ← content .colorImage args 0
  let gamma ← number args 1
  build .colorImage host fun _ =>
    return image.saturate gamma host.config.parallelSaturateMin

/-- Images. -/
def imageSpecs : List Spec := [
  ⟨"color_image create_image( num width, num height, color fill )", createImage⟩,
  ⟨"color_image saturate( color_image image, num gamma )", saturate⟩]

/-! ## §4 Time -/

/-- The seconds since the host was started. -/
def getTime : Entry := fun host signature args => do
  checkCount signature args 0
  return .payload (.number host.clock)

/-- Time. -/
def timeSpecs : List Spec := [⟨"f64 get_time()", getTime⟩]

end SceneScript.Standard
