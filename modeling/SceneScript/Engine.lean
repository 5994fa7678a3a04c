/-
SceneScript.Engine — types, builtins and settings of one script host.

An engine starts empty. The signal `init1` registers the sixteen standard types
and the forty-eight standard builtins, in a fixed order; once it has succeeded,
no signal does anything. If it fails it fails for good: what it had registered
so far stays, and stands in the way of the next attempt.

Types and builtins share one space of names as far as builtins are concerned: no
builtin is added under the name of a registered type.

A call looks its builtin up by name and runs the entry. Where an error names an
expected type by its key, the call puts the type's name in its place.
-/
import SceneScript.Draft
import SceneScript.Standard.Arithmetic
import SceneScript.Standard.Objects
import SceneScript.Standard.Strings

namespace SceneScript

/-! ## §1 What is standard -/

namespace Standard

/-- The standard types, each after those inside it. -/
def registrations : List Registration := [
  .plain "f64" .number,
  .plain "i64" .integer,
  .plain "bool" .boolean,
  .plain "string" .text,
  .record .vec2,
  .record .vec3,
  .record .mat3,
  .record .ray,
  .record .rayCone,
  .record .color,
  .conversion (Key.ofName "v3d") .toVec3,
  .conversion (Key.ofName "color") .toColor,
  .plain "color_row" .colorRow,
  .plain "color_image" .colorImage,
  .plain "plane" .plane,
  .plain "sphere" .sphere,
  .plain "squaroid" .squaroid,
  .plain "torus" .torus]

/-- The standard builtins. -/
def specs : List Spec :=
  vectorSpecs ++ stringSpecs ++ arithmeticSpecs ++ fileSpecs ++ objectSpecs ++ imageSpecs ++
    timeSpecs

end Standard

/-! ## §2 Engines -/

/-- The stages that a host announces. -/
inductive Signal
  | init0
  | init1
  | down1
  | down0
deriving DecidableEq, Repr

/-- The types, builtins and settings of a host, and whether `init1` has succeeded. -/
structure Engine where
  types : Registry := {}
  builtins : BuiltinTable := {}
  config : Config := {}
  initialized : Bool := false

namespace Engine

/-- Adds a type or a conversion. -/
def registerType (engine : Engine) (request : Registration) : Except Error Key × Engine :=
  let (answer, types) := engine.types.perform request
  (answer, { engine with types := types })

/-- Adds a builtin; its name must not be the name of a type. -/
def registerBuiltin (engine : Engine) (b : Builtin) : Except Error Unit × Engine :=
  if engine.types.contains b.name then (.error (.duplicateBuiltin b.name), engine)
  else
    let (answer, table) := engine.builtins.register b
    (answer, { engine with builtins := table })

/-- Adds types and conversions up to the first that is refused. -/
def registerTypes (engine : Engine) : List Registration → Except Error Unit × Engine
  | [] => (.ok (), engine)
  | request :: rest =>
    match engine.registerType request with
    | (.ok _, engine) => engine.registerTypes rest
    | (.error e, engine) => (.error e, engine)

/-- Adds builtins up to the first that is refused. -/
def registerSpecs (engine : Engine) : List Standard.Spec → Except Error Unit × Engine
  | [] => (.ok (), engine)
  | spec :: rest =>
    match spec.builtin with
    | .error e => (.error e, engine)
    | .ok b =>
      match engine.registerBuiltin b with
      | (.ok _, engine) => engine.registerSpecs rest
      | (.error e, engine) => (.error e, engine)

/-- Registers everything standard. -/
def install (engine : Engine) : Except Error Unit × Engine :=
  match engine.registerTypes Standard.registrations with
  | (.error e, engine) => (.error e, engine)
  | (.ok _, engine) =>
    match engine.registerSpecs Standard.specs with
    | (.error e, engine) => (.error e, engine)
    | (.ok _, engine) => (.ok (), { engine with initialized := true })

/-- Takes note of a stage. -/
def signal (engine : Engine) (s : Signal) : Except Error Unit × Engine :=
  if s = .init1 ∧ engine.initialized = false then engine.install else (.ok (), engine)

/-- An engine with the given settings and everything standard. -/
def standard (config : Config) : Except Error Unit × Engine :=
  signal { config := config } .init1

/-! ## §3 Calls -/

/-- What entries see of an engine. -/
def host (engine : Engine) (clock : Float) (memory : Memory) : Host :=
  ⟨engine.types, engine.config, clock, memory⟩

/-- Puts the name of a registered type in place of its key as the expected type. -/
def nameTypes (types : Registry) : Failure → Failure
  | .error (.mismatch expected got) =>
    match (Key.parse? expected).bind types.nameOf? with
    | some name => .error (.mismatch name got)
    | none => .error (.mismatch expected got)
  | failure => failure

/-- Calls the builtin of the given name. -/
def dispatch (engine : Engine) (clock : Float) (memory : Memory) (name : String) (args : Arguments)
    (frame : Frame) : Except Failure Answer × Frame :=
  match engine.builtins.get? name with
  | none => (.error (.error (.unknownBuiltin name)), frame)
  | some b =>
    let (outcome, frame) := b.entry (engine.host clock memory) b.signature args frame
    (outcome.mapError (nameTypes engine.types), frame)

/-- Calls the builtin of the given name and carries out what it asks of files. -/
def call (engine : Engine) (clock : Float) (memory : Memory) (name : String) (args : Arguments)
    (frame : Frame) (files : Tree) : Except Failure Value × Frame × Tree :=
  match engine.dispatch clock memory name args frame with
  | (.error failure, frame) => (.error failure, frame, files)
  | (.ok answer, frame) =>
    let (v, files) := answer.settle files
    (.ok v, frame, files)

/-- Calls the builtin of the given name on values that are written down; if one of them cannot be
made, nothing is called. -/
def apply (engine : Engine) (clock : Float) (memory : Memory) (name : String)
    (drafts : List Draft) (files : Tree) : Except Failure Value × Tree :=
  match Draft.frame memory drafts with
  | .error e => (.error (.error e), files)
  | .ok frame =>
    let (outcome, _, files) := engine.call clock memory name frame.arguments frame files
    (outcome, files)

end Engine

end SceneScript
