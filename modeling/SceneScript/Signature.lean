/-
SceneScript.Signature — how a builtin is declared.

A signature gives the name of a builtin, the types and names of its parameters,
and possibly the type of its result:

    f64 pow( num base, num exp )
    string_to_num( string text )

`Signature.parse` reads any spacing, `Signature.render` writes one. A word is
any run without blanks; only the place of the parentheses and commas matters.
-/
import SceneScript.Text.Blank

namespace SceneScript

/-- A declared parameter: its type and its name. -/
structure Param where
  type : String
  name : String
deriving DecidableEq, Repr

/-- A builtin as declared. -/
structure Signature where
  result : Option String
  name : String
  params : List Param
deriving DecidableEq, Repr

/-- What can be wrong with a signature. -/
inductive SignatureFault
  | noOpen
  | noClose
  | afterClose
  | badHead
  | badParam
deriving DecidableEq, Repr

/-- The wording of a fault. -/
def SignatureFault.message : SignatureFault → String
  | noOpen => "missing `(`"
  | noClose => "missing `)`"
  | afterClose => "unexpected text after `)`"
  | badHead => "expected `[<return type>] <name>` before `(`"
  | badParam => "parameters have the form `<type> <name>`"

namespace Signature

/-- The number of parameters. -/
def arity (s : Signature) : Nat := s.params.length

/-- Reads the text between two commas. -/
def readParam (text : List Char) : Except SignatureFault Param :=
  match Text.words text with
  | [type, name] => .ok ⟨String.ofList type, String.ofList name⟩
  | _ => .error .badParam

/-- Reads the text between two commas, again and again. -/
def readParams : List (List Char) → Except SignatureFault (List Param)
  | [] => .ok []
  | text :: rest =>
    match readParam text with
    | .error fault => .error fault
    | .ok param => (readParams rest).map (param :: ·)

/-- Reads what stands between the parentheses. -/
def readInner (text : List Char) : Except SignatureFault (List Param) :=
  if (Text.trim text).isEmpty then .ok []
  else readParams (Text.split (· == ',') (Text.trim text))

/-- Reads what stands before the parenthesis: a name, or a result type and a name. -/
def readHead (text : List Char) : Except SignatureFault (Option String × String) :=
  match Text.words text with
  | [name] => .ok (none, String.ofList name)
  | [result, name] => .ok (some (String.ofList result), String.ofList name)
  | _ => .error .badHead

/-- Reads a signature: the parameters stand between the first opening and the last closing
parenthesis, and nothing stands after that. -/
def parse (source : String) : Except SignatureFault Signature :=
  match Text.cut? (· == '(') source.toList with
  | none => .error .noOpen
  | some (head, tail) =>
    if ')' ∉ source.toList then .error .noClose
    else
      match Text.cutLast? (· == ')') tail with
      | none => .error .afterClose
      | some (inner, after) =>
        if (Text.trim after).isEmpty then
          match readHead head with
          | .error fault => .error fault
          | .ok (result, name) => (readInner inner).map fun params => ⟨result, name, params⟩
        else .error .afterClose

/-- A parameter as text. -/
def renderParam (p : Param) : String := p.type ++ " " ++ p.name

/-- The one spelling of a signature that `render` uses. -/
def render (s : Signature) : String :=
  let front :=
    match s.result with
    | some result => result ++ " "
    | none => ""
  let inner :=
    match s.params with
    | [] => "()"
    | params => "( " ++ ", ".intercalate (params.map renderParam) ++ " )"
  front ++ s.name ++ inner

end Signature

end SceneScript
