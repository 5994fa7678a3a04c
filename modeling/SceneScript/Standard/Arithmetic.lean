/-
SceneScript.Standard.Arithmetic — functions of numbers.

Trigonometry takes radians, and degrees where the name ends in `_d`.
-/
import SceneScript.Standard.Vectors

namespace SceneScript.Standard

/-- A function of one number. -/
def function (f : Float → Float) : Entry := fun _ signature args => do
  checkCount signature args 1
  let x ← number args 0
  return .payload (.number (f x))

/-- A number to the power of another. -/
def power : Entry := fun _ signature args => do
  checkCount signature args 2
  let base ← number args 0
  let exponent ← number args 1
  return .payload (.number (base.pow exponent))

/-- Functions of numbers. -/
def arithmeticSpecs : List Spec := [
  ⟨"f64 sqrt( num val )", function Float.sqrt⟩,
  ⟨"f64 sqr( num val )", function fun x => x * x⟩,
  ⟨"f64 exp( num val )", function Float.exp⟩,
  ⟨"f64 log( num val )", function Float.log⟩,
  ⟨"f64 to_deg( num rad )", function degrees⟩,
  ⟨"f64 to_rad( num deg )", function radians⟩,
  ⟨"f64 sin( num val )", function Float.sin⟩,
  ⟨"f64 cos( num val )", function Float.cos⟩,
  ⟨"f64 tan( num val )", function Float.tan⟩,
  ⟨"f64 sin_d( num deg )", function fun x => (radians x).sin⟩,
  ⟨"f64 cos_d( num deg )", function fun x => (radians x).cos⟩,
  ⟨"f64 tan_d( num deg )", function fun x => (radians x).tan⟩,
  ⟨"f64 asin( num val )", function Float.asin⟩,
  ⟨"f64 acos( num val )", function Float.acos⟩,
  ⟨"f64 atan( num val )", function Float.atan⟩,
  ⟨"f64 pow( num base, num exp )", power⟩,
  ⟨"f64 ceiling( num val )", function Float.ceil⟩,
  ⟨"f64 floor( num val )", function Float.floor⟩]

end SceneScript.Standard
