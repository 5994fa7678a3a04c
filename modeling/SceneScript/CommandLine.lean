/-
SceneScript.CommandLine — builtins from the command line.

There are three commands. `list` prints every builtin, `types` every type, and
`call` calls one builtin with literal arguments: a number, `true` or `false`,
`v3d:` or `color:` with three numbers between commas, and otherwise a text.

Whatever goes wrong on the way becomes a `Complaint`, and each level that hands it
up may say around it what it was about. All of it is printed on one line, while the
exit code depends on what is at the bottom: an error of the engine that a script
can do something about, or anything else.

How options are spelled is not decided here: a run is given the function that reads
them (`SceneScript.Options` has one). It is also given what else it depends on: the
clock, the memory, and what the log says meanwhile.
-/
import SceneScript.Engine

namespace SceneScript.CommandLine

/-! ## §1 Commands -/

/-- What the command line asks for. -/
inductive Command
  | list
  | types
  | call (name : String) (literals : List String)
deriving DecidableEq, Repr

/-- A command with the options given. -/
structure Request where
  command : Command
  envelopeMargin : Option Float
  verbose : Bool

/-- The settings that a request makes: the margin that is given, if one is. -/
def Request.config (request : Request) : Config :=
  { envelopeMargin := request.envelopeMargin.getD ({} : Config).envelopeMargin }

/-- What was printed, and the exit code. -/
structure Outcome where
  exitCode : Nat
  output : String
  errors : String
deriving DecidableEq, Repr

/-! ## §2 Complaints -/

/-- Why a text is no number. -/
inductive NumberFault
  | empty
  | invalid
deriving DecidableEq, Repr

/-- The wording of a fault. -/
def NumberFault.message : NumberFault → String
  | empty => "cannot parse float from empty string"
  | invalid => "invalid float literal"

/-- What is wrong, and what was said around it on the way up. -/
inductive Complaint
  /-- The engine has an error. -/
  | engine (e : Error)
  /-- A text is no number. -/
  | number (fault : NumberFault)
  /-- Something else, in words alone. -/
  | words (text : String)
  /-- A complaint with what it is about. -/
  | within (context : String) (inner : Complaint)

namespace Complaint

/-- Everything that is said, the outermost first. -/
def message : Complaint → String
  | engine e => e.message
  | number fault => fault.message
  | words text => text
  | within context inner => context ++ ": " ++ inner.message

/-- The engine's error at the bottom, whatever is said around it. -/
def engineError? : Complaint → Option Error
  | engine e => some e
  | number _ => none
  | words _ => none
  | within _ inner => inner.engineError?

/-- The exit code: 1 for an error of the engine that is not fatal, and 2 for anything else. -/
def exitCode (c : Complaint) : Nat := if c.engineError?.all Error.isFatal then 2 else 1

end Complaint

/-! ## §3 Literals -/

/-- What is wrong with a literal. -/
inductive LiteralFault
  /-- A component that is no number. -/
  | badComponent (text : String)
  /-- Not three components. -/
  | notThree (count : Nat)
deriving DecidableEq, Repr

/-- The complaint about a fault. -/
def LiteralFault.complaint : LiteralFault → Complaint
  | badComponent text =>
    .within ("bad component `" ++ text ++ "`")
      (.number (if (Text.trim text.toList).isEmpty then .empty else .invalid))
  | notThree count =>
    .words ("expected three comma-separated components, got " ++ toString count)

/-- Reads components from left to right; blanks around them do not matter. -/
def readComponents : List (List Char) → Except LiteralFault (List Float)
  | [] => .ok []
  | part :: rest =>
    match Number.readFloat? (Text.trim part) with
    | none => .error (.badComponent (String.ofList part))
    | some x => (readComponents rest).map (x :: ·)

/-- Reads three components with commas between them. -/
def readTriple (text : List Char) : Except LiteralFault (Float × Float × Float) :=
  match readComponents (Text.split (· == ',') text) with
  | .error fault => .error fault
  | .ok [x, y, z] => .ok (x, y, z)
  | .ok xs => .error (.notThree xs.length)

/-- What follows the given beginning of a text. -/
def after? (front text : List Char) : Option (List Char) :=
  if front.isPrefixOf text then some (text.drop front.length) else none

/-- The payload that a literal writes. -/
def readLiteral (text : String) : Except LiteralFault Payload :=
  match Number.readFloat? text.toList with
  | some x => .ok (.number x)
  | none =>
    if text = "true" then .ok (.boolean true)
    else if text = "false" then .ok (.boolean false)
    else
      match after? "v3d:".toList text.toList with
      | some rest => (readTriple rest).map fun (x, y, z) => .vec3 ⟨x, y, z⟩
      | none =>
        match after? "color:".toList text.toList with
        | some rest => (readTriple rest).map fun (r, g, b) => .color ⟨r, g, b⟩
        | none => .ok (.text text)

/-- The frame of some literals, one ready slot for each. -/
def readLiterals : List String → Except LiteralFault (List Slot)
  | [] => .ok []
  | text :: rest =>
    match readLiteral text with
    | .error fault => .error fault
    | .ok p => (readLiterals rest).map (Slot.ready p :: ·)

/-! ## §4 Running -/

/-- One line of text. -/
def line (text : String) : String := text ++ "\n"

/-- The line for a type: its name, in twelve places at least, its key and its slots. -/
def typeLine (e : TypeEntry) : String :=
  let name := e.name ++ String.ofList (List.replicate (12 - e.name.length) ' ')
  let shape := if e.layout.isFlat then toString e.layout.slots ++ " slots" else "opaque"
  line (name ++ " " ++ e.key.render ++ "  " ++ shape)

/-- How a command can end without what it was asked for. -/
inductive Trouble
  /-- With a complaint. -/
  | complaint (c : Complaint)
  /-- By breaking off over a text that cannot be laid out. -/
  | beyondLayout

/-- What a command comes to before any operation on files: a text to print, or the answer of a
builtin. -/
inductive Product
  | text (text : String)
  | answer (answer : Answer)

/-- What a run depends on beside its command line. -/
structure Surroundings where
  clock : Float := 0
  memory : Memory := .usual
  /-- What the log says in the course of the run, given whether it is to be verbose. -/
  log : Bool → String := fun _ => ""

/-- The engine that a request is about. -/
def engineOf (request : Request) : Except Trouble Engine :=
  match Engine.standard request.config with
  | (.error e, _) => .error (.complaint (.within "runtime initialization failed" (.engine e)))
  | (.ok _, engine) => .ok engine

/-- Reads literals and calls a builtin with them. An error of the call is handed up with its code
and the name of the builtin. -/
def callNamed (engine : Engine) (clock : Float) (memory : Memory) (name : String)
    (literals : List String) : Except Trouble Answer :=
  match readLiterals literals with
  | .error fault => .error (.complaint fault.complaint)
  | .ok slots =>
    let frame : Frame := ⟨slots⟩
    match (engine.dispatch clock memory name frame.arguments frame).1 with
    | .ok answer => .ok answer
    | .error (.error e) =>
      .error (.complaint (.within ("error[" ++ e.code ++ "] in `" ++ name ++ "`") (.engine e)))
    | .error .beyondLayout => .error .beyondLayout

/-- Carries out a command on an engine. -/
def perform (engine : Engine) (around : Surroundings) : Command → Except Trouble Product
  | .list =>
    .ok (.text (String.join (engine.builtins.builtins.map fun b => line b.signature.render)))
  | .types => .ok (.text (String.join (engine.types.entries.map typeLine)))
  | .call name literals =>
    (callNamed engine around.clock around.memory name literals).map .answer

/-- Carries out a request, up to the operation on files that may remain to be done. -/
def answer (around : Surroundings) (request : Request) : Except Trouble Product :=
  match engineOf request with
  | .error trouble => .error trouble
  | .ok engine => perform engine around request.command

/-- What is printed in the end: the text that was asked for, or a line about what went wrong after
what the log says. What a program says that breaks off is not told. -/
def report (log : String) : Except Trouble String → Outcome
  | .ok text => ⟨0, text, log⟩
  | .error (.complaint c) => ⟨c.exitCode, "", log ++ line c.message⟩
  | .error .beyondLayout => ⟨101, "", log⟩

/-- Does to files what remains to be done, and reports. -/
def conclude {m : Type → Type} [Monad m] (settle : Answer → m Value) (log : String) :
    Except Trouble Product → m Outcome
  | .error trouble => pure (report log (.error trouble))
  | .ok (.text text) => pure (report log (.ok text))
  | .ok (.answer answer) => do
    let v ← settle answer
    return report log (.ok (line v.display))

/-- Runs a command line against a tree of files. What reads the command line may also end the run
by itself. -/
def run (read : List String → Except Outcome Request) (around : Surroundings)
    (args : List String) (files : Tree) : Outcome × Tree :=
  match read args with
  | .error outcome => (outcome, files)
  | .ok request =>
    let settle : Answer → StateM Tree Value := fun answer files => answer.settle files
    conclude settle (around.log request.verbose) (answer around request) files

end SceneScript.CommandLine
