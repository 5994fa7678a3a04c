/-
SceneScript.Format.Render — writing one argument by a format.

The pieces of a format are written from left to right; the one directive that a
format may have writes the argument. A number is written first without width,
then gets its sign, then its padding: spaces on the left, or on the right for
the flag `-`, or zeros between the sign and the digits for the flag `0`.

Two requests are beyond what can be laid out at all: more than `placesLimit`
digits after the point of a finite number, and more than `paddingLimit`
characters of padding.
-/
import SceneScript.Format.Template
import SceneScript.Payload

namespace SceneScript.Format

/-! ## §1 Limits -/

/-- The most digits after the point that can be laid out. -/
def placesLimit : Nat := 65535

/-- The most characters of padding that can be laid out. -/
def paddingLimit : Nat := 0x7fffffffffffffff

/-- The precision of a number whose directive gives none. -/
def defaultPrecision : Nat := 6

/-! ## §2 Numbers without width -/

/-- A number with a given count of digits after the point. -/
def fixedText (x : Float) (precision : Nat) : Except Failure (List Char) :=
  if Number.isFinite x ∧ placesLimit < precision then .error .beyondLayout
  else .ok (Number.fixed x precision)

/-- A number with an exponent. -/
def scientificText (x : Float) (precision : Nat) : Except Failure (List Char) :=
  if Number.isFinite x ∧ placesLimit < precision then .error .beyondLayout
  else .ok (Number.scientific .signed x precision)

/-- The most digits after a point that are laid out on the way to a number in `precision` digits:
one less than that to find its exponent, and as many as its places if it is written
positionally. -/
def generalPlaces (x : Float) (precision : Nat) : Nat :=
  match Number.Binary.ofFloat x with
  | .finite _ significand exponent =>
    let places := max precision 1 - 1
    if significand = 0 then 0
    else if placesLimit < places then places
    else
      let top := (Number.significant (Number.magnitude significand exponent) places).2
      if top < -4 ∨ (places : Int) < top then places else max places ((places : Int) - top).toNat
  | _ => 0

/-- A number in a given count of digits. -/
def generalText (x : Float) (precision : Nat) : Except Failure (List Char) :=
  if placesLimit < generalPlaces x precision then .error .beyondLayout
  else .ok (Number.general x precision)

/-! ## §3 Sign and padding -/

/-- Puts a sign in front of what has none, if the flags ask for one. -/
def withSign (d : Directive) (body : List Char) : List Char :=
  match body with
  | '-' :: _ => body
  | _ => if d.plus then '+' :: body else if d.space then ' ' :: body else body

/-- The sign at the start of a text, and the rest. -/
def splitSign : List Char → List Char × List Char
  | '+' :: rest => (['+'], rest)
  | '-' :: rest => (['-'], rest)
  | ' ' :: rest => ([' '], rest)
  | rest => ([], rest)

/-- Whether a text ends in a letter, as `inf` and `nan` do and digits do not. -/
def endsInLetter (body : List Char) : Bool :=
  match body.getLast? with
  | some c => c.isAlpha
  | none => false

/-- Brings a text to the width of its directive. Only the missing places have a limit: the texts
themselves have none of their own, so what can be laid out is also taken to fit into a text. -/
def pad (d : Directive) (numeric : Bool) (body : List Char) : Except Failure (List Char) :=
  if d.width ≤ body.length then .ok body
  else
    let missing := d.width - body.length
    if paddingLimit < missing then .error .beyondLayout
    else if d.left then .ok (body ++ List.replicate missing ' ')
    else if d.zero && numeric && !endsInLetter body then
      let (sign, rest) := splitSign body
      .ok (sign ++ List.replicate missing '0' ++ rest)
    else .ok (List.replicate missing ' ' ++ body)

/-! ## §4 Directives -/

/-- The text of an argument, or an error. -/
def textOf (arg : Payload) : Except Failure (List Char) :=
  match arg.toText? with
  | some s => .ok s.toList
  | none => .error (.error (.mismatch "string" arg.typeName))

/-- The number of an argument, or an error. -/
def numberOf (arg : Payload) : Except Failure Float :=
  match arg.toNumber? with
  | some x => .ok x
  | none => .error (.error (.mismatch "number" arg.typeName))

/-- A text cut to a number of characters. -/
def cutTo (precision : Option Nat) (text : List Char) : List Char :=
  match precision with
  | some p => text.take p
  | none => text

/-- A number as its directive asks, without sign flags and width. -/
def numberBody (d : Directive) (x : Float) : Except Failure (List Char) :=
  let precision := d.precision.getD defaultPrecision
  match d.conversion with
  | .f => fixedText x precision
  | .e => scientificText x precision
  | .g => generalText x precision
  | _ => .ok (Number.intText (Number.toInt64 x).toInt)

/-- Writes an argument by a directive. -/
def Directive.render (d : Directive) (arg : Payload) : Except Failure (List Char) :=
  if d.conversion = .s then
    match textOf arg with
    | .error failure => .error failure
    | .ok text => pad d false (cutTo d.precision text)
  else
    match numberOf arg with
    | .error failure => .error failure
    | .ok x =>
      match numberBody d x with
      | .error failure => .error failure
      | .ok body => pad d true (withSign d body)

/-! ## §5 Formats -/

/-- The objection to a fault. -/
def Fault.objection : Fault → Objection
  | unknownLetter c => .unknownConversion c
  | unfinished => .unfinishedConversion

/-- Writes pieces from left to right; `used` tells whether there has been a directive. Pieces are
put together without regard to the length that they come to. -/
def fill (caller : String) (arg : Payload) (fault : Option Fault) (used : Bool) :
    List Piece → Except Failure (List Char)
  | [] =>
    match fault with
    | none => .ok []
    | some fault => .error (.error (.invalidArgument caller fault.objection))
  | .literal c :: rest => (fill caller arg fault used rest).map (c :: ·)
  | .percent :: rest => (fill caller arg fault used rest).map ('%' :: ·)
  | .directive d :: rest =>
    if used then .error (.error (.invalidArgument caller .secondConversion))
    else
      match d.render arg with
      | .error failure => .error failure
      | .ok text => (fill caller arg fault true rest).map (text ++ ·)

/-- Writes one argument by a format, on behalf of the builtin `caller`. -/
def apply (caller format : String) (arg : Payload) : Except Failure String :=
  let template := Template.read format.toList
  (fill caller arg template.fault false template.pieces).map String.ofList

end SceneScript.Format
