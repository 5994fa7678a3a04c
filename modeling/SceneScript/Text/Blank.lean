/-
SceneScript.Text.Blank — blank characters, and cutting text at them.

Blank is Unicode's White_Space property, not the ASCII blanks alone: a no-break
space separates two words of a declaration as well as a space does. `trim` takes
blanks off both ends, `words` gives the longest runs without a blank, and
`split` cuts at every separator and keeps empty pieces.
-/

namespace SceneScript.Text

/-- The characters with Unicode's White_Space property. -/
def isBlank (c : Char) : Bool :=
  let n := c.toNat
  (0x09 ≤ n && n ≤ 0x0d) || n == 0x20 || n == 0x85 || n == 0xa0 || n == 0x1680 ||
    (0x2000 ≤ n && n ≤ 0x200a) || n == 0x2028 || n == 0x2029 || n == 0x202f || n == 0x205f ||
    n == 0x3000

/-- Text without the blanks at its start. -/
def trimStart (cs : List Char) : List Char := cs.dropWhile isBlank

/-- Text without the blanks at its end. -/
def trimEnd (cs : List Char) : List Char := (cs.reverse.dropWhile isBlank).reverse

/-- Text without the blanks at either end. -/
def trim (cs : List Char) : List Char := trimEnd (trimStart cs)

/-- The pieces between separators, empty ones included; there is always at least one. -/
def split (isSeparator : Char → Bool) : List Char → List (List Char)
  | [] => [[]]
  | c :: cs =>
    if isSeparator c then [] :: split isSeparator cs
    else
      match split isSeparator cs with
      | piece :: pieces => (c :: piece) :: pieces
      | [] => [[c]]

/-- The longest runs without a blank, in order. -/
def words (cs : List Char) : List (List Char) :=
  (split isBlank cs).filter fun piece => !piece.isEmpty

theorem split_ne_nil (isSeparator : Char → Bool) (cs : List Char) :
    split isSeparator cs ≠ [] := by
  cases cs with
  | nil => simp [split]
  | cons c cs =>
    simp only [split]
    split
    · simp
    · split <;> simp

/-- The text before the first separator and the text after it. -/
def cut? (isSeparator : Char → Bool) (cs : List Char) : Option (List Char × List Char) :=
  match cs.dropWhile fun c => !isSeparator c with
  | [] => none
  | _ :: back => some (cs.takeWhile (fun c => !isSeparator c), back)

/-- The text before the last separator and the text after it. -/
def cutLast? (isSeparator : Char → Bool) (cs : List Char) : Option (List Char × List Char) :=
  (cut? isSeparator cs.reverse).map fun (back, front) => (front.reverse, back.reverse)

end SceneScript.Text
