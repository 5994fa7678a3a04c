/-
SceneScript.Options — the options of the command line.

Options may stand before the command and after it, and `--` after a command
ends them. After the name of a builtin the first literal may begin with a minus
sign unless it is an option, and from then on nothing is an option any more.

The commands do not depend on any of this: `CommandLine.run` takes whatever reads
command lines. The words about the use of options are this module's own, too.
-/
import SceneScript.CommandLine

namespace SceneScript.CommandLine

/-! ## §1 Options -/

/-- Why a command line is not carried out. -/
inductive Usage
  /-- It asks how the program is used. -/
  | help
  /-- This argument does not fit, or something is missing after it. -/
  | unexpected (arg : String)
deriving DecidableEq, Repr

/-- Options read so far, at one level. -/
structure Options where
  envelopeMargin : Option Float := none
  verbose : Bool := false

namespace Options

/-- The option that gives the margin of bounding spheres. -/
def marginFlag : String := "--envelope-margin"

/-- The margin option with its value. -/
def withMargin (o : Options) (arg value : String) : Except Usage Options :=
  match o.envelopeMargin, Number.readFloat? value.toList with
  | none, some x => .ok { o with envelopeMargin := some x }
  | _, _ => .error (.unexpected arg)

/-- The flags that an argument stands for: letters after a minus sign, or one flag by its name. -/
def flags? (arg : String) : Option (List Char) :=
  if arg = "--help" then some ['h']
  else if arg = "--verbose" then some ['v']
  else
    match arg.toList with
    | '-' :: c :: cs => if (c :: cs).all ['h', 'v'].contains then some (c :: cs) else none
    | _ => none

/-- The options with some flags; none may be given twice. -/
def withFlags (o : Options) (arg : String) : List Char → Except Usage Options
  | [] => .ok o
  | 'h' :: _ => .error .help
  | _ :: rest =>
    if o.verbose then .error (.unexpected arg) else withFlags { o with verbose := true } arg rest

/-- Options of a command are in force rather than those before it. -/
def merge (outer inner : Options) : Options :=
  ⟨inner.envelopeMargin.or outer.envelopeMargin, inner.verbose || outer.verbose⟩

end Options

/-- Takes options off the arguments as long as they begin with one; an option that is given twice
or lacks its number is a mistake, and so is a flag with a value. Only where literals may be signed
the number of an option may be, unless it is written behind an equals sign. -/
def takeOptions (signed : Bool) (o : Options) :
    List String → Except Usage (Options × List String)
  | [] => .ok (o, [])
  | arg :: rest =>
    match Options.flags? arg with
    | some flags =>
      match o.withFlags arg flags with
      | .error usage => .error usage
      | .ok o => takeOptions signed o rest
    | none =>
      if arg = Options.marginFlag then
        match rest with
        | [] => .error (.unexpected arg)
        | value :: rest =>
          if signed = false ∧ value.toList.head? = some '-' then .error (.unexpected value)
          else
            match o.withMargin arg value with
            | .error usage => .error usage
            | .ok o => takeOptions signed o rest
      else if (Options.marginFlag ++ "=").toList.isPrefixOf arg.toList then
        let value := String.ofList (arg.toList.drop (Options.marginFlag.length + 1))
        match o.withMargin arg value with
        | .error usage => .error usage
        | .ok o => takeOptions signed o rest
      else if ["--help=", "--verbose="].any fun flag => flag.toList.isPrefixOf arg.toList then
        .error (.unexpected arg)
      else .ok (o, arg :: rest)

/-- A command with the options given before and after it. -/
def Options.request (outer inner : Options) (command : Command) : Request :=
  let both := outer.merge inner
  ⟨command, both.envelopeMargin, both.verbose⟩

/-- Reads the arguments after `call`. -/
def parseCall (outer : Options) (args : List String) : Except Usage Request := do
  let (inner, args) ← takeOptions false {} args
  match args with
  | [] => .error (.unexpected "call")
  | "--" :: name :: literals => .ok (outer.request inner (.call name literals))
  | name :: rest =>
    if name.toList.head? = some '-' ∧ name ≠ "-" then .error (.unexpected name)
    else
      let (inner, literals) ← takeOptions true inner rest
      match literals with
      | "--" :: literals => .ok (outer.request inner (.call name literals))
      | literals => .ok (outer.request inner (.call name literals))

/-- Reads the arguments after a command that has none of its own. -/
def parseBare (outer : Options) (command : Command) (args : List String) :
    Except Usage Request := do
  let (inner, args) ← takeOptions false {} args
  match args with
  | [] | ["--"] => .ok (outer.request inner command)
  | "--" :: arg :: _ => .error (.unexpected arg)
  | arg :: _ => .error (.unexpected arg)

/-- Reads a command line. -/
def parse (args : List String) : Except Usage Request := do
  let (outer, args) ← takeOptions false {} args
  match args with
  | "list" :: rest => parseBare outer .list rest
  | "types" :: rest => parseBare outer .types rest
  | "call" :: rest => parseCall outer rest
  | "help" :: _ => .error .help
  | arg :: _ => .error (.unexpected arg)
  | [] => .error .help

/-! ## §2 Outcomes -/

/-- The outcome of a command line that is not carried out. -/
def usageOutcome : Usage → Outcome
  | .help => ⟨0, line "usage: [-v] [--envelope-margin FACTOR] list | types | call NAME [ARGS]", ""⟩
  | .unexpected arg => ⟨2, "", line ("error: unexpected argument `" ++ arg ++ "`")⟩

/-- Reads a command line, or ends the run with a word about how the program is used. -/
def readRequest (args : List String) : Except Outcome Request := (parse args).mapError usageOutcome

end SceneScript.CommandLine
