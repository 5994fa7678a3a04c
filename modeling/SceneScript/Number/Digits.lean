/-
SceneScript.Number.Digits — decimal digits of natural numbers.

`digitsOf` writes a natural number without leading zeros, `0` as a single zero,
and `Nat.ofDigitChars` is its inverse.
-/

namespace SceneScript.Number

/-- The decimal digits of a natural number. -/
def digitsOf (n : Nat) : List Char := Nat.toDigits 10 n

theorem ofDigitChars_digitsOf (n : Nat) : Nat.ofDigitChars 10 (digitsOf n) 0 = n :=
  Nat.ofDigitChars_ten_toDigits

/-- Digits with zeros in front, so that there are at least `width`. -/
def padZeros (width : Nat) (digits : List Char) : List Char :=
  List.replicate (width - digits.length) '0' ++ digits

/-- The exponent of the highest decimal place of a natural number: the largest `k` with
`10 ^ k ≤ n`, and `0` for `0`. -/
def log10 (n : Nat) : Nat := (digitsOf n).length - 1

end SceneScript.Number
