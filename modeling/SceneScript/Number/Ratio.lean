/-
SceneScript.Number.Ratio — exact non-negative quotients of natural numbers.

Everything that reads or writes a number works on an exact quotient first and
rounds once at the end. A quotient is not kept in lowest terms: its use is to be
scaled by powers of two and ten, to be placed between two such powers, and to be
rounded, and none of these needs it.
-/
import SceneScript.Number.Digits

namespace SceneScript.Number

/-- `n / d` rounded to the nearest natural number; a half goes to the even neighbour. -/
def roundDiv (n d : Nat) : Nat :=
  let twice := 2 * (n % d)
  if twice < d then n / d
  else if d < twice then n / d + 1
  else n / d + n / d % 2

/-- A quotient of natural numbers. -/
structure Ratio where
  num : Nat
  den : Nat
  den_pos : 0 < den := by decide

namespace Ratio

/-- A natural number as a quotient. -/
def ofNat (n : Nat) : Ratio := ⟨n, 1, by decide⟩

/-- The quotient times `base ^ k`, for a `k` of either sign. -/
def scale (r : Ratio) (base : Nat) (base_pos : 0 < base) (k : Int) : Ratio :=
  match k with
  | .ofNat n => ⟨r.num * Nat.pow base n, r.den, r.den_pos⟩
  | .negSucc n =>
    ⟨r.num, r.den * Nat.pow base (n + 1), Nat.mul_pos r.den_pos (Nat.pow_pos base_pos)⟩

/-- The quotient times a power of two. -/
def scale2 (r : Ratio) (k : Int) : Ratio := r.scale 2 (by decide) k

/-- The quotient times a power of ten. -/
def scale10 (r : Ratio) (k : Int) : Ratio := r.scale 10 (by decide) k

/-- The quotient without its fraction. -/
def floor (r : Ratio) : Nat := r.num / r.den

/-- The nearest natural number; a half goes to the even neighbour. -/
def round (r : Ratio) : Nat := roundDiv r.num r.den

/-- For a positive quotient, the exponent of the largest power of two that is not above it. -/
def log2 (r : Ratio) : Int :=
  let guess : Int := (r.num.log2 : Int) - (r.den.log2 : Int)
  let scaled := r.scale2 (-guess)
  if scaled.den ≤ scaled.num then guess else guess - 1

/-- For a positive quotient, the exponent of the largest power of ten that is not above it. -/
def log10 (r : Ratio) : Int :=
  if r.den ≤ r.num then (Number.log10 (r.num / r.den) : Int)
  else -((Number.log10 ((r.den - 1) / r.num) : Int) + 1)

end Ratio

end SceneScript.Number
