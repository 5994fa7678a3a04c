/-
SceneScript.Number.Decimal — decimal numbers, and the shortest that names a double.

A `Decimal` is `digits · 10 ^ exponent` with natural digits. Read as a double it
is the nearest one (`Decimal.bits`). `shortest` goes the other way: of all
decimals that read back as the given double it takes one with the fewest digits,
and of those the nearest; at equal distance the larger.
-/
import SceneScript.Number.Binary

namespace SceneScript.Number

/-- `digits · 10 ^ exponent`. -/
structure Decimal where
  digits : Nat
  exponent : Int
deriving DecidableEq, Repr

namespace Decimal

/-- The exact value. -/
def ratio (d : Decimal) : Ratio := (Ratio.ofNat d.digits).scale10 d.exponent

/-- The exponent of the highest decimal place. -/
def top (d : Decimal) : Int := d.exponent + log10 d.digits

/-- The bits of the nearest double. No double is as large as `10 ^ 309`, and what is below
`10 ^ -324` is nearer to zero than to any other double; so no power of ten is formed for such
numbers. -/
def bits (d : Decimal) : Nat :=
  if d.digits = 0 ∨ d.top < -324 then 0
  else if 309 ≤ d.top then infinityBits
  else nearestBits d.ratio

/-- The nearest double with the given sign. -/
def toFloat (negative : Bool) (d : Decimal) : Float := ofSignedBits negative d.bits

/-- The same number without zeros at the end of its digits. -/
def strip (d : Decimal) : Decimal :=
  go (log10 d.digits) d
where
  /-- Takes off at most the given number of zeros. -/
  go : Nat → Decimal → Decimal
    | 0, d => d
    | zeros + 1, d => if d.digits % 10 = 0 then go zeros ⟨d.digits / 10, d.exponent + 1⟩ else d

end Decimal

/-! ## §1 The fewest digits that read back -/

/-- The decimals next to a positive magnitude among those with `10 ^ exponent` as their last
place: the one not above it, and the next. -/
def neighbours (r : Ratio) (exponent : Int) : Decimal × Decimal :=
  let below := (r.scale10 (-exponent)).floor
  (⟨below, exponent⟩, ⟨below + 1, exponent⟩)

/-- Whether a magnitude is nearer to the lower of its two neighbours than to the upper. -/
def nearerBelow (r : Ratio) (exponent : Int) : Bool :=
  let scaled := r.scale10 (-exponent)
  2 * (scaled.num % scaled.den) < scaled.den

/-- The decimal of the given number of digits that reads back as the given bits, if there is
one: the nearer of the magnitude's two neighbours if both do. -/
def withDigits? (r : Ratio) (bits : Nat) (count : Nat) : Option Decimal :=
  let exponent := r.log10 - ((count : Int) - 1)
  let (below, above) := neighbours r exponent
  if below.bits = bits ∧ above.bits = bits then
    some (if nearerBelow r exponent then below else above)
  else if below.bits = bits then some below
  else if above.bits = bits then some above
  else none

/-- A magnitude written out in full, which is always possible: a half is five tenths. -/
def exactDecimal (significand : Nat) (exponent : Int) : Decimal :=
  match exponent with
  | .ofNat k => ⟨significand * Nat.pow 2 k, 0⟩
  | .negSucc k => ⟨significand * Nat.pow 5 (k + 1), .negSucc k⟩

/-- The decimal that names the positive magnitude `significand · 2 ^ exponent`: the fewest digits
that read back, at most seventeen, and of those the nearest. -/
def shortest (significand : Nat) (exponent : Int) : Decimal :=
  let r := magnitude significand exponent
  let bits := nearestBits r
  match (List.range 17).findSome? fun i => withDigits? r bits (i + 1) with
  | some decimal => decimal.strip
  | none => (exactDecimal significand exponent).strip

end SceneScript.Number
