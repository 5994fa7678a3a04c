/-
SceneScript.Number.Reader — which texts are numbers, and which number each is.

A real number is an optional sign and then digits with at most one point among
or around them, at least one digit, and optionally an exponent: `e` or `E`, an
optional sign, and digits. In place of the digits there may stand `inf`,
`infinity` or `nan` in any case. It is read as the nearest double. A whole
number is an optional sign and digits, and has to fit in 64 bits.
-/
import SceneScript.Number.Decimal

namespace SceneScript.Number

/-- Takes a sign off the start; no sign is a plus sign. -/
def takeSign : List Char → Bool × List Char
  | '-' :: cs => (true, cs)
  | '+' :: cs => (false, cs)
  | cs => (false, cs)

/-- A non-empty run of decimal digits and nothing else. -/
def readNat? (cs : List Char) : Option Nat :=
  if cs.isEmpty = false ∧ cs.all Char.isDigit then some (Nat.ofDigitChars 10 cs 0) else none

/-- A whole number with an optional sign. -/
def readInt? (cs : List Char) : Option Int :=
  let (negative, digits) := takeSign cs
  (readNat? digits).map fun n => if negative then -(n : Int) else n

/-- A whole number that fits in 64 bits. -/
def readInt64? (cs : List Char) : Option Int64 :=
  match readInt? cs with
  | some n =>
    if Int64.minValue.toInt ≤ n ∧ n ≤ Int64.maxValue.toInt then some (Int64.ofInt n) else none
  | none => none

/-- What follows the digits of a real number: nothing, or an exponent. -/
def readExponent? : List Char → Option Int
  | [] => some 0
  | c :: cs => if c = 'e' ∨ c = 'E' then readInt? cs else none

/-- A real number without its sign. -/
def readDecimal? (cs : List Char) : Option Decimal :=
  let whole := cs.takeWhile Char.isDigit
  let (fraction, rest) :=
    match cs.dropWhile Char.isDigit with
    | '.' :: rest => (rest.takeWhile Char.isDigit, rest.dropWhile Char.isDigit)
    | rest => ([], rest)
  if whole.isEmpty ∧ fraction.isEmpty then none
  else
    (readExponent? rest).map fun exponent =>
      ⟨Nat.ofDigitChars 10 (whole ++ fraction) 0, exponent - fraction.length⟩

/-- The numbers that are spelled with letters, without their sign. -/
def readSpelled? (negative : Bool) (cs : List Char) : Option Float :=
  let lower := String.ofList (cs.map Char.toLower)
  if lower = "inf" ∨ lower = "infinity" then some (ofSignedBits negative infinityBits)
  else if lower = "nan" then some (Float.ofBits 0x7ff8000000000000)
  else none

/-- A real number, read as the nearest double. -/
def readFloat? (cs : List Char) : Option Float :=
  let (negative, body) := takeSign cs
  match readDecimal? body with
  | some d => some (d.toFloat negative)
  | none => readSpelled? negative body

end SceneScript.Number
