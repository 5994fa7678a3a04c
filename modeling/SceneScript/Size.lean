/-
SceneScript.Size — sizes and counts.

Sizes, offsets and counts have 64 bits. Sums of slot counts wrap around, numbers
that are read from a format stop at the largest size, and a count of elements
that would not fit is refused by whoever wants to count them.
-/

namespace SceneScript

/-- Every size is below this number, the 64th power of two. -/
def sizeLimit : Nat := 0x10000000000000000

/-- The largest size. -/
def maxSize : Nat := sizeLimit - 1

/-- The sum of two sizes in 64 bits. -/
def addSizes (a b : Nat) : Nat := (a + b) % sizeLimit

/-- Takes one more decimal digit into a size; a size that would be too large stays the largest. -/
def pushDigit (n : Nat) (digit : Nat) : Nat := min maxSize (min maxSize (n * 10) + digit)

end SceneScript
