/-
SceneScript.Format.Template — format texts, taken apart.

A format is literal text with `%%` for a percent sign and directives that say
how an argument is to be written:

    %[flags][width][.precision]letter

Flags are `-`, `0`, `+` and space in any order, repeated or not. A zero that
begins the width is a flag. Width and precision are digits, a point without
digits is precision zero, and the letter is one of `s g f e d i`. Reading goes
from left to right and stops at the first percent sign that begins no directive.
-/
import SceneScript.Size

namespace SceneScript.Format

/-! ## §1 Directives -/

/-- The letter that ends a directive. -/
inductive Conversion
  /-- Text. -/
  | s
  /-- A number in a given count of digits, in whichever form suits. -/
  | g
  /-- A number with a given count of digits after the point. -/
  | f
  /-- A number with an exponent. -/
  | e
  /-- A whole number. -/
  | d
  /-- A whole number, under another letter. -/
  | i
deriving DecidableEq, Repr

namespace Conversion

/-- The letter of a conversion. -/
def letter : Conversion → Char
  | s => 's'
  | g => 'g'
  | f => 'f'
  | e => 'e'
  | d => 'd'
  | i => 'i'

/-- The conversion of a letter. -/
def ofLetter? : Char → Option Conversion
  | 's' => some s
  | 'g' => some g
  | 'f' => some f
  | 'e' => some e
  | 'd' => some d
  | 'i' => some i
  | _ => none

theorem ofLetter?_letter (c : Conversion) : ofLetter? c.letter = some c := by
  cases c <;> rfl

end Conversion

/-- A directive: its flags `-`, `0`, `+` and space, its least width, its precision and its
conversion. -/
structure Directive where
  left : Bool
  zero : Bool
  plus : Bool
  space : Bool
  width : Nat
  precision : Option Nat
  conversion : Conversion
deriving DecidableEq, Repr

/-- What can be wrong with a directive. -/
inductive Fault
  | unknownLetter (c : Char)
  | unfinished
deriving DecidableEq, Repr

/-- The characters that are flags. -/
def isFlag (c : Char) : Bool := c == '-' || c == '0' || c == '+' || c == ' '

/-- The size that a run of digits writes; one that is too large becomes the largest. -/
def readSize (digits : List Char) : Nat :=
  digits.foldl (fun n c => pushDigit n (c.toNat - '0'.toNat)) 0

/-- A precision and what follows it. -/
def readPrecision : List Char → Option Nat × List Char
  | '.' :: rest => (some (readSize (rest.takeWhile Char.isDigit)), rest.dropWhile Char.isDigit)
  | rest => (none, rest)

/-- Reads a directive, from after its percent sign. -/
def Directive.read (cs : List Char) : Except Fault (Directive × List Char) :=
  let flags := cs.takeWhile isFlag
  let afterFlags := cs.dropWhile isFlag
  let width := readSize (afterFlags.takeWhile Char.isDigit)
  let (precision, afterPrecision) := readPrecision (afterFlags.dropWhile Char.isDigit)
  match afterPrecision with
  | [] => .error .unfinished
  | c :: rest =>
    match Conversion.ofLetter? c with
    | none => .error (.unknownLetter c)
    | some conversion =>
      .ok (
        { left := flags.contains '-'
          zero := flags.contains '0'
          plus := flags.contains '+'
          space := flags.contains ' '
          width := width
          precision := precision
          conversion := conversion },
        rest)

theorem length_dropWhile_le (p : Char → Bool) (cs : List Char) :
    (cs.dropWhile p).length ≤ cs.length :=
  (List.dropWhile_sublist p).length_le

theorem length_readPrecision_le (cs : List Char) : (readPrecision cs).2.length ≤ cs.length := by
  unfold readPrecision
  split
  · exact Nat.le_succ_of_le (length_dropWhile_le _ _)
  · exact Nat.le_refl _

/-- A directive takes at least its letter. -/
theorem Directive.length_lt_of_read {cs rest : List Char} {d : Directive}
    (h : Directive.read cs = .ok (d, rest)) : rest.length < cs.length := by
  have bound : (readPrecision ((cs.dropWhile isFlag).dropWhile Char.isDigit)).2.length
      ≤ cs.length :=
    Nat.le_trans (length_readPrecision_le _)
      (Nat.le_trans (length_dropWhile_le _ _) (length_dropWhile_le _ _))
  unfold Directive.read at h
  simp only at h
  split at h
  · cases h
  · next c tail hrest =>
    split at h
    · cases h
    · simp only [Except.ok.injEq, Prod.mk.injEq] at h
      rw [← h.2]
      rw [hrest] at bound
      exact Nat.lt_of_succ_le bound

/-! ## §2 Templates -/

/-- A piece of a format. -/
inductive Piece
  | literal (c : Char)
  | percent
  | directive (d : Directive)
deriving DecidableEq, Repr

/-- The pieces of a format, and what is wrong after the last of them, if anything is. -/
structure Template where
  pieces : List Piece
  fault : Option Fault
deriving DecidableEq, Repr

namespace Template

/-- The template with one more piece in front. -/
def push (piece : Piece) (t : Template) : Template := { t with pieces := piece :: t.pieces }

/-- Takes a format apart. -/
def read (cs : List Char) : Template :=
  match cs with
  | [] => ⟨[], none⟩
  | '%' :: '%' :: rest => push .percent (read rest)
  | '%' :: rest =>
    match h : Directive.read rest with
    | .ok (d, after) =>
      have := Directive.length_lt_of_read h
      push (.directive d) (read after)
    | .error fault => ⟨[], some fault⟩
  | c :: rest => push (.literal c) (read rest)
termination_by cs.length

end Template

end SceneScript.Format
