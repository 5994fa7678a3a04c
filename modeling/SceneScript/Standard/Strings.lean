/-
SceneScript.Standard.Strings — builtins that make text from a value and numbers from text.

A number is read from the beginning of a text: after spaces, tabs and line
feeds comes the longest run of characters that numbers are written with, and
the whole run has to be a number. It is a real number if there is a point or an
exponent letter in it, and otherwise a whole number.
-/
import SceneScript.Format.Render
import SceneScript.Number.Reader
import SceneScript.Standard.Steps

namespace SceneScript.Standard

/-- The blanks that are skipped before a number. -/
def isNumberBlank (c : Char) : Bool := c == ' ' || c == '\t' || c == '\n'

/-- The characters that numbers are written with. -/
def isNumberChar (c : Char) : Bool :=
  c.isDigit || c == '+' || c == '-' || c == 'e' || c == 'E' || c == '.'

/-- The characters that make a number a real one. -/
def isRealMark (c : Char) : Bool := c == '.' || c == 'e' || c == 'E'

/-- The run of characters at the beginning of a text that has to be a number. -/
def numberSpan (text : List Char) : List Char :=
  (text.dropWhile isNumberBlank).takeWhile isNumberChar

/-- The number at the beginning of a text. -/
def numberIn (text : String) : Except Objection Payload :=
  let span := numberSpan text.toList
  if span.isEmpty then .error (.noNumber text)
  else if span.any isRealMark then
    match Number.readFloat? span with
    | some x => .ok (.number x)
    | none => .error (.badReal text)
  else
    match Number.readInt64? span with
    | some n => .ok (.integer n)
    | none => .error (.badWhole text)

/-- The name of the formatting builtin. -/
def formatName : String := "create_string_fa"

/-- The name of the number reading builtin. -/
def readName : String := "string_to_num"

/-- Text made from one value by a format. Both arguments are there before the format is looked
at. -/
def createString : Entry := fun _ signature args => do
  checkCount signature args 2
  let format ← text args 0
  let arg ← argument args 1
  let out ← settled (Format.apply formatName format arg.payload)
  return .payload (.text out)

/-- The number at the beginning of a text. -/
def stringToNum : Entry := fun _ signature args => do
  checkCount signature args 1
  let source ← text args 0
  let p ← attempt ((numberIn source).mapError fun objection => .invalidArgument readName objection)
  return .payload p

/-- Text. -/
def stringSpecs : List Spec := [
  ⟨"string create_string_fa( string format, root arg )", createString⟩,
  ⟨"string_to_num( string text )", stringToNum⟩]

end SceneScript.Standard
