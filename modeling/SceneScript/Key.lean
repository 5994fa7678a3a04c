/-
SceneScript.Key — the 64-bit identity of a name.

Types and builtins are told apart by a key, and a key depends on nothing but
the UTF-8 bytes of a name: it is the 64-bit FNV-1a hash of those bytes, so it
is the same in every run. Two names may share a key; whoever stores things
under keys has to compare names as well.

A key also has a text form, `#` followed by sixteen hexadecimal digits.
`Key.parse?` reads it back. It accepts a little more than `Key.render` writes:
digits of either case, and a plus sign in place of the first digit.

Keys are ordered as the words that they are, so that things can be stored under
them.
-/

namespace SceneScript

/-- The identity of a type name or builtin name. -/
structure Key where
  word : UInt64
deriving DecidableEq, Repr

namespace Key

/-! ## §1 Hashing -/

/-- The hash of the empty name. -/
def offsetBasis : UInt64 := 0xcbf29ce484222325

/-- The odd multiplier of one hashing step. -/
def prime : UInt64 := 0x100000001b3

/-- Takes one byte into a running hash. -/
def absorb (hash : UInt64) (byte : UInt8) : UInt64 :=
  (hash ^^^ byte.toUInt64) * prime

/-- The key of a sequence of bytes. -/
def ofBytes (bytes : List UInt8) : Key :=
  ⟨bytes.foldl absorb offsetBasis⟩

/-- The key of a name is the key of its UTF-8 bytes. -/
def ofName (name : String) : Key :=
  ofBytes name.toUTF8.data.toList

@[simp] theorem ofBytes_nil : ofBytes [] = ⟨offsetBasis⟩ := rfl

/-- A hash is computed left to right, so a longer name goes on where its beginning stopped. -/
theorem ofBytes_append (front back : List UInt8) :
    ofBytes (front ++ back) = ⟨back.foldl absorb (ofBytes front).word⟩ := by
  simp [ofBytes, List.foldl_append]

/-! ## §2 Text form -/

/-- The sixteen hexadecimal digits of a word, the highest first. -/
def hexDigits (word : UInt64) : List Char :=
  let digits := Nat.toDigits 16 word.toNat
  List.replicate (16 - digits.length) '0' ++ digits

/-- A key as text: `#` and sixteen lower-case hexadecimal digits. -/
def render (key : Key) : String :=
  String.ofList ('#' :: hexDigits key.word)

instance : ToString Key := ⟨render⟩

/-- The value of a hexadecimal digit of either case. -/
def hexValue? (c : Char) : Option Nat :=
  if '0' ≤ c ∧ c ≤ '9' then some (c.toNat - '0'.toNat)
  else if 'a' ≤ c ∧ c ≤ 'f' then some (c.toNat - 'a'.toNat + 10)
  else if 'A' ≤ c ∧ c ≤ 'F' then some (c.toNat - 'A'.toNat + 10)
  else none

/-- The number that hexadecimal digits write, read onto what stands before them. -/
def readHex? : Nat → List Char → Option Nat
  | value, [] => some value
  | value, c :: rest =>
    match hexValue? c with
    | some digit => readHex? (16 * value + digit) rest
    | none => none

/-- Sixteen places after `#`: sixteen digits, or a plus sign and fifteen. -/
def readWord? : List Char → Option Nat
  | '+' :: digits => if digits.length = 15 then readHex? 0 digits else none
  | digits => if digits.length = 16 then readHex? 0 digits else none

/-- Reads the text form of a key. -/
def parse? (text : String) : Option Key :=
  match text.toList with
  | '#' :: places => (readWord? places).map fun value => ⟨UInt64.ofNat value⟩
  | _ => none

/-! ## §3 Order -/

instance : Ord Key := ⟨fun a b => compare a.word b.word⟩

instance : Std.TransOrd Key where
  eq_swap := Std.OrientedOrd.eq_swap (α := UInt64)
  isLE_trans := Std.TransOrd.isLE_trans (α := UInt64)

instance : Std.LawfulEqOrd Key where
  eq_of_compare {a b} h := by
    have hw : a.word = b.word := Std.LawfulEqOrd.eq_of_compare (α := UInt64) h
    cases a
    cases b
    exact congrArg Key.mk hw

end Key

end SceneScript
