/-
SceneScript.Number.Text — how numbers are written.

There are five ways to write a double. `plain` and `shown` write the fewest
digits that read back, `plain` always positionally, `shown` with an exponent
when the number is very large or very small and otherwise with at least one
digit after the point. `fixed` writes a given number of digits after the point,
`scientific` a given number after the first digit, and `general` a given number
in all, in whichever of the two forms suits, without zeros at the end. The last
three round the exact value, a half to the even neighbour.
-/
import SceneScript.Number.Decimal

namespace SceneScript.Number

/-- A minus sign, or nothing. -/
def signText (negative : Bool) : List Char := if negative then ['-'] else []

/-! ## §1 Integers -/

/-- An integer in decimal digits, with a minus sign if it is negative. -/
def intText (n : Int) : List Char := signText (decide (n < 0)) ++ digitsOf n.natAbs

/-! ## §2 Digits and a point -/

/-- Digits times `10 ^ exponent`, written positionally. -/
def positional (digits : List Char) (exponent : Int) : List Char :=
  match exponent with
  | .ofNat zeros => digits ++ List.replicate zeros '0'
  | .negSucc n =>
    let places := n + 1
    if places < digits.length then
      digits.take (digits.length - places) ++ '.' :: digits.drop (digits.length - places)
    else
      '0' :: '.' :: List.replicate (places - digits.length) '0' ++ digits

/-- Digits with a point after the first, if there is more than one. -/
def pointAfterFirst : List Char → List Char
  | first :: second :: rest => first :: '.' :: second :: rest
  | digits => digits

/-- Text with a point loses the zeros at its end, and the point too if nothing else follows it. -/
def stripZeros (text : List Char) : List Char :=
  if '.' ∈ text then
    ((text.reverse.dropWhile (· == '0')).dropWhile (· == '.')).reverse
  else text

/-! ## §3 The fewest digits that read back -/

/-- A finite double in the fewest digits that read back, always written positionally. -/
def plainFinite (negative : Bool) (significand : Nat) (exponent : Int) : List Char :=
  signText negative ++
    if significand = 0 then ['0']
    else
      let d := shortest significand exponent
      positional (digitsOf d.digits) d.exponent

/-- The text of a number: the fewest digits that read back, always written positionally. -/
def plain (x : Float) : String :=
  String.ofList <|
    match Binary.ofFloat x with
    | .nan => ['N', 'a', 'N']
    | .infinite negative => signText negative ++ ['i', 'n', 'f']
    | .finite negative significand exponent => plainFinite negative significand exponent

/-- A number as a field of a printed record: `1.0`, `0.25`, `1e16`, `1.5e-7`. The exponent form
is for magnitudes from `10 ^ 16` on and below `10 ^ -4`. -/
def shown (x : Float) : String :=
  String.ofList <|
    match Binary.ofFloat x with
    | .nan => ['N', 'a', 'N']
    | .infinite negative => signText negative ++ ['i', 'n', 'f']
    | .finite negative significand exponent =>
      signText negative ++
        if significand = 0 then ['0', '.', '0']
        else
          let d := shortest significand exponent
          let digits := digitsOf d.digits
          if -4 ≤ d.top ∧ d.top < 16 then
            positional digits d.exponent ++ (if 0 ≤ d.exponent then ['.', '0'] else [])
          else pointAfterFirst digits ++ 'e' :: intText d.top

/-! ## §4 A given number of digits -/

/-- A magnitude with exactly `places` digits after the point. -/
def fixedMagnitude (r : Ratio) (places : Nat) : List Char :=
  positional (padZeros (places + 1) (digitsOf (r.scale10 places).round)) (-(places : Int))

/-- A magnitude rounded to `places + 1` significant digits: these digits as one number, and the
exponent of the first of them. -/
def significant (r : Ratio) (places : Nat) : Nat × Int :=
  if r.num = 0 then (0, 0)
  else
    let top := r.log10
    let rounded := (r.scale10 ((places : Int) - top)).round
    if rounded = Nat.pow 10 (places + 1) then (Nat.pow 10 places, top + 1) else (rounded, top)

/-- The significant digits with a point after the first. -/
def mantissaText (digits places : Nat) : List Char :=
  pointAfterFirst (padZeros (places + 1) (digitsOf digits))

/-- How an exponent is written after `e`. -/
inductive ExponentStyle
  /-- With a minus sign if it is negative and no more digits than it needs. -/
  | bare
  /-- With a sign always and at least two digits. -/
  | signed
deriving DecidableEq, Repr

/-- An exponent in the given style. -/
def ExponentStyle.write : ExponentStyle → Int → List Char
  | .bare, e => intText e
  | .signed, e =>
    (if e < 0 then '-' else '+') :: padZeros 2 (digitsOf e.natAbs)

/-- A magnitude with one digit before the point, `places` after it, and an exponent. -/
def scientificMagnitude (style : ExponentStyle) (r : Ratio) (places : Nat) : List Char :=
  let (digits, exponent) := significant r places
  mantissaText digits places ++ 'e' :: style.write exponent

/-- The text of what is not a finite number, in the three rounded forms. -/
def nonFiniteText : Option Bool → List Char
  | none => ['n', 'a', 'n']
  | some negative => signText negative ++ ['i', 'n', 'f']

/-- A double with the given number of digits after the point. -/
def fixed (x : Float) (places : Nat) : List Char :=
  match Binary.ofFloat x with
  | .nan => nonFiniteText none
  | .infinite negative => nonFiniteText (some negative)
  | .finite negative significand exponent =>
    signText negative ++ fixedMagnitude (magnitude significand exponent) places

/-- A double with one digit before the point, the given number after it, and an exponent. -/
def scientific (style : ExponentStyle) (x : Float) (places : Nat) : List Char :=
  match Binary.ofFloat x with
  | .nan => nonFiniteText none
  | .infinite negative => nonFiniteText (some negative)
  | .finite negative significand exponent =>
    signText negative ++ scientificMagnitude style (magnitude significand exponent) places

/-- A double in the given number of significant digits (at least one), without zeros at the end:
with an exponent if the rounded number is below `10 ^ -4` or needs more digits before the point
than were asked for, positionally otherwise. -/
def general (x : Float) (digits : Nat) : List Char :=
  match Binary.ofFloat x with
  | .nan => nonFiniteText none
  | .infinite negative => nonFiniteText (some negative)
  | .finite negative significand exponent =>
    signText negative ++
      if significand = 0 then ['0']
      else
        let r := magnitude significand exponent
        let places := max digits 1 - 1
        let (rounded, top) := significant r places
        if top < -4 ∨ (places : Int) < top then
          stripZeros (mantissaText rounded places) ++ 'e' :: ExponentStyle.signed.write top
        else stripZeros (fixedMagnitude r ((places : Int) - top).toNat)

end SceneScript.Number
