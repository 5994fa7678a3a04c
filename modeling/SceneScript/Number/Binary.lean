/-
SceneScript.Number.Binary — what a double stands for.

A double is a sign and either an infinity, no number at all, or
`significand · 2 ^ exponent` with natural significand. `Binary.ofFloat` takes a
double apart, and `nearestBits` is the way back: of an exact quotient it gives
the bits of the nearest double, a tie going to the even significand, and
infinity past the largest one. All text and all rounding to whole numbers goes
through these two.
-/
import SceneScript.Number.Ratio

namespace SceneScript.Number

/-- A double taken apart. -/
inductive Binary
  | nan
  | infinite (negative : Bool)
  | finite (negative : Bool) (significand : Nat) (exponent : Int)
deriving DecidableEq, Repr

/-! ## §1 From a double -/

/-- The weight of the sign bit, the highest of sixty-four. -/
def signWeight : Nat := 0x8000000000000000

/-- The weight of the lowest exponent bit. There are as many doubles between two neighbouring
powers of two, and their fraction bits count them. -/
def exponentWeight : Nat := 0x10000000000000

namespace Binary

/-- Takes the bits of a double apart: a sign bit, eleven exponent bits and fifty-two fraction
bits. -/
def ofBits (bits : Nat) : Binary :=
  let negative := decide (signWeight ≤ bits)
  let field := bits / exponentWeight % 2048
  let fraction := bits % exponentWeight
  if field = 2047 then
    if fraction = 0 then infinite negative else nan
  else if field = 0 then finite negative fraction (-1074)
  else finite negative (exponentWeight + fraction) ((field : Int) - 1075)

/-- What a double stands for. -/
def ofFloat (x : Float) : Binary := ofBits x.toBits.toNat

end Binary

/-- The magnitude `significand · 2 ^ exponent`. -/
def magnitude (significand : Nat) (exponent : Int) : Ratio :=
  (Ratio.ofNat significand).scale2 exponent

/-- Neither infinite nor not a number. -/
def isFinite (x : Float) : Bool :=
  match Binary.ofFloat x with
  | .finite .. => true
  | _ => false

/-! ## §2 To the nearest double -/

/-- The bits of positive infinity; every finite magnitude has smaller bits. -/
def infinityBits : Nat := 2047 * exponentWeight

/-- The bits of the double nearest to a quotient. Between two neighbouring powers of two doubles are
evenly spaced, `exponentWeight` of them, and never closer than `2 ^ -1074`; so the magnitude is
measured in that spacing and rounded. Counting spacings from zero is counting bit patterns. -/
def nearestBits (r : Ratio) : Nat :=
  if r.num = 0 then 0
  else
    let spacing := max (r.log2 - 52) (-1074)
    min infinityBits ((spacing + 1074).toNat * exponentWeight + (r.scale2 (-spacing)).round)

/-- The double with the given sign and bits of magnitude. -/
def ofSignedBits (negative : Bool) (bits : Nat) : Float :=
  Float.ofBits (UInt64.ofNat (if negative then signWeight + bits else bits))

/-- The double nearest to an integer. -/
def ofInt (n : Int) : Float :=
  ofSignedBits (decide (n < 0)) (nearestBits (Ratio.ofNat n.natAbs))

/-! ## §3 Whole numbers -/

/-- The integer that is left when the fraction of a finite double is cut off. -/
def truncate? (x : Float) : Option Int :=
  match Binary.ofFloat x with
  | .finite negative significand exponent =>
    let whole : Int := (magnitude significand exponent).floor
    some (if negative then -whole else whole)
  | _ => none

/-- The natural number that a double is, if it is one; zero of either sign is one. -/
def natural? (x : Float) : Option Nat :=
  match Binary.ofFloat x with
  | .finite negative significand exponent =>
    let r := magnitude significand exponent
    if r.num % r.den = 0 ∧ (negative = false ∨ significand = 0) then some (r.num / r.den) else none
  | _ => none

/-- The whole 64-bit number nearest to a double in the direction of zero: the ends of the range
stand for what lies outside it, and zero for what is no number. -/
def toInt64 (x : Float) : Int64 :=
  match Binary.ofFloat x with
  | .nan => 0
  | .infinite negative => if negative then Int64.minValue else Int64.maxValue
  | .finite negative significand exponent =>
    let whole : Int := (magnitude significand exponent).floor
    let value := if negative then -whole else whole
    Int64.ofInt (max Int64.minValue.toInt (min Int64.maxValue.toInt value))

end SceneScript.Number
