/-
SceneScript.Session — sequences of operations, worked step by step.

A session stands for a host: it has an engine, a builtin table beside it, and
named frames and variables that hold what the operations are asked about. There
is nothing else to it. Each step is one operation and gets one reply. An
operation in place is given what a variable holds, and whatever the operation
leaves is what the variable holds afterwards, also when the operation fails.
-/
import SceneScript.Engine

namespace SceneScript

/-! ## §1 Steps -/

/-- What goes into a slot of a frame. -/
inductive SlotSource
  /-- A value. -/
  | ready (d : Draft)
  /-- A copy of what a variable holds. -/
  | copyOf (var : String)
  /-- An expression that comes to a value. -/
  | suspended (d : Draft)
  /-- An expression that fails for the given reason. -/
  | failing (reason : String)

/-- Where the arguments of a call come from. -/
inductive CallSource
  /-- A frame of the session. -/
  | named (frame : String)
  /-- A frame of its own. -/
  | fresh (slots : List SlotSource)

/-- The builtins that a session can add. -/
inductive Probe
  /-- Gives the number of its arguments and evaluates none. -/
  | argumentCount
  /-- Gives its own name and evaluates nothing. -/
  | ownName
  /-- Gives the sum of its arguments. -/
  | sum
  /-- Complains that it expected what its first argument says. -/
  | complaint
deriving DecidableEq, Repr

/-- How the type of a value to create is given. -/
inductive TypeSource
  | named (name : String)
  | keyed (key : Key)
deriving DecidableEq, Repr

/-- One step of a session. -/
inductive Step
  -- the engine
  | signal (s : Signal)
  | config
  | dispatch (name : String) (source : CallSource) (args : Option Arguments)
      (into : Option String)
  | registerBuiltin (signature : String) (probe : Probe)
  | builtins
  | builtin (name : String)
  | tableRegister (signature : String) (probe : Probe)
  | table (name : String)
  -- the registry
  | types
  | typeCount
  | registerType (request : Registration)
  | shareConversion (type source : Key)
  | resolve (name : String)
  | contains (name : String)
  | nameOf (type : Key)
  | layoutOf (type : Key)
  | layoutField (type : Key) (field : String)
  | construct (type : Key)
  | create (type : TypeSource) (into : Option String)
  | fieldSpan (type : Key) (path : String)
  -- values
  | set (d : Draft) (ownership : Ownership) (into : String)
  | clone (var : String) (into : Option String)
  | intoOwned (var : String)
  | release (var : String)
  | get (var : String)
  | toNumber (var : String)
  | toBool (var : String)
  | toText (var : String)
  | display (var : String)
  | print (var : String)
  | isKind (var : String) (kind : Kind)
  | expect (var : String) (kind : Kind)
  | expectOwned (var : String) (kind : Kind)
  | convert (var : String) (type : Key) (into : Option String)
  | copyConvert (var source : String)
  | assign (var source : String)
  | slots (var : String)
  | setSlots (var : String) (slots : List Float)
  | getField (var path : String)
  | setField (var path : String) (x : Float)
  -- buffers and shapes
  | rowSetSize (var : String) (size : Nat) (fill : Color)
  | imageSetSize (var : String) (width height : Nat) (fill : Color)
  | pixel (var : String) (x y : Nat)
  | setPixel (var : String) (x y : Nat) (c : Color)
  | saturate (var : String) (gamma : Float) (parallelMin : Nat)
  | element (var : String) (index : Nat)
  | setRadius (var : String) (radius : Float) (pos : Option Vec3)
  -- frames
  | frameNew (frame : String)
  | framePush (frame : String) (slot : SlotSource)
  | frameEval (frame : String) (slot : Nat)
  | argsGet (frame : String) (index : Nat) (args : Option Arguments) (into : Option String)
  | frameInfo (frame : String)

/-! ## §2 Replies -/

/-- Why a step is not even tried. -/
inductive Refusal
  | noVariable
  | noFrame
  | notOwned
  | noConversion
deriving DecidableEq, Repr

/-- The wording of a refusal. -/
def Refusal.message : Refusal → String
  | noVariable => "no variable"
  | noFrame => "no frame"
  | notOwned => "not owned"
  | noConversion => "no conversion"

/-- What a step comes to. -/
inductive Reply
  | done
  | flag (b : Bool)
  | count (n : Nat)
  | number (x : Float)
  | text (s : String)
  | texts (ss : List String)
  | name (s : Option String)
  | key (k : Key)
  | payload (p : Payload)
  | span (offset width : Nat)
  | fieldOf (field : Option Field)
  | numbers (xs : Option (List Float))
  | stage (initialized : Bool) (types builtins : Nat)
  | config (c : Config)
  | called (outcome : Except Failure Value) (evaluations : List Nat)
  | builtin (b : Option Builtin)
  | table (t : BuiltinTable) (contains : Bool)
  | types (r : Registry)
  | typeCount (n : Nat)
  | layout (l : Option Layout)
  | value (v : Value)
  | evaluated (v : Value)
  | element (v : Option Value)
  | argument (v : Value) (size : Nat)
  | frame (f : Frame)
  | error (e : Error)
  | refused (r : Refusal)

namespace Reply

/-- A result or its error as a reply. -/
def ofExcept {α : Type} (f : α → Reply) : Except Error α → Reply
  | .ok a => f a
  | .error e => error e

/-- What an operation in place has made, or its error, as a reply. -/
def ofOutcome : Except Error Unit → Payload → Reply
  | .ok (), p => payload p
  | .error e, _ => error e

end Reply

/-! ## §3 Probes -/

namespace Probe

/-- The sum of arguments from the given index on, and the frame after they were asked for. -/
def sumFrom (args : Arguments) (total : Float) (index : Nat) :
    Nat → Frame → Except Error Float × Frame
  | 0, frame => (.ok total, frame)
  | left + 1, frame =>
    match args.get index frame with
    | (.error e, frame) => (.error e, frame)
    | (.ok v, frame) =>
      match v.toNumber with
      | .error e => (.error e, frame)
      | .ok x => sumFrom args (total + x) (index + 1) left frame

/-- What a probe does. -/
def entry : Probe → Entry
  | argumentCount => fun _ _ args frame =>
    (.ok (.payload (.integer (Int64.ofNat args.size))), frame)
  | ownName => fun _ signature _ frame => (.ok (.payload (.text signature.name)), frame)
  | sum => fun _ signature args frame =>
    if args.size = signature.arity then
      match sumFrom args 0 0 args.size frame with
      | (.ok total, frame) => (.ok (.payload (.number total)), frame)
      | (.error e, frame) => (.error (.error e), frame)
    else (.error (.error (.arity signature.name signature.arity args.size)), frame)
  | complaint => fun _ signature args frame =>
    match args.get 0 frame with
    | (.error e, frame) => (.error (.error e), frame)
    | (.ok v, frame) =>
      match v.toText with
      | .error e => (.error (.error e), frame)
      | .ok expected => (.error (.error (.mismatch expected signature.name)), frame)

end Probe

/-! ## §4 Sessions -/

/-- A named thing put in place of the one of the same name, or added at the end. -/
def putNamed {α : Type} (name : String) (a : α) : List (String × α) → List (String × α)
  | [] => [(name, a)]
  | (n, b) :: rest => if n = name then (n, a) :: rest else (n, b) :: putNamed name a rest

/-- The state between two steps. -/
structure Session where
  engine : Engine := {}
  table : BuiltinTable := {}
  frames : List (String × Frame) := []
  vars : List (String × Value) := []
  files : Tree := {}
  clock : Float := 0
  memory : Memory := .usual

namespace Session

/-- The value of a variable. -/
def valueOf? (s : Session) (name : String) : Option Value := s.vars.lookup name

/-- The frame of a name. -/
def frame? (s : Session) (name : String) : Option Frame := s.frames.lookup name

/-- The session with a value in a variable. -/
def setVariable (s : Session) (name : String) (v : Value) : Session :=
  { s with vars := putNamed name v s.vars }

/-- The session with a value in a variable, if one is named. -/
def store (s : Session) (name : Option String) (v : Value) : Session :=
  match name with
  | some name => s.setVariable name v
  | none => s

/-- The session with a frame under a name. -/
def setFrame (s : Session) (name : String) (f : Frame) : Session :=
  { s with frames := putNamed name f s.frames }

/-- The number of variables that hold an owned value. -/
def live (s : Session) : Nat := s.vars.countP fun (_, v) => v.ownership = .owned

/-- Asks something about a variable. -/
def ask (s : Session) (var : String) (f : Value → Reply) : Reply × Session :=
  match s.valueOf? var with
  | some v => (f v, s)
  | none => (.refused .noVariable, s)

/-- Works in place on what a variable of the given form holds for itself. -/
def change {α β : Type} (s : Session) (var : String) (form : Form α) (op : α → β × α)
    (reply : β → Payload → Reply) : Reply × Session :=
  match s.valueOf? var with
  | none => (.refused .noVariable, s)
  | some v =>
    match v.ownContent form with
    | .error e => (.error e, s)
    | .ok a =>
      let (outcome, a) := op a
      (reply outcome (form.wrap a), s.setVariable var (v.withPayload (form.wrap a)))

/-- Works in place on the payload that a variable holds for itself, whatever its type. -/
def mutate {β : Type} (s : Session) (var : String) (absent : Refusal) (op : Payload → β × Payload)
    (reply : β → Payload → Reply) : Reply × Session :=
  match s.valueOf? var with
  | none => (.refused absent, s)
  | some v =>
    if v.ownership = .owned then
      let (outcome, p) := op v.payload
      (reply outcome p, s.setVariable var (v.withPayload p))
    else (.refused .notOwned, s)

/-- The slot that a source describes, or the reply if there is none. The value of an expression
is made here, too, and only handed out later. -/
def slotOf (s : Session) : SlotSource → Except Reply Slot
  | .ready d => (d.make s.memory).mapError .error |>.map .ready
  | .copyOf var =>
    match s.valueOf? var with
    | some v => .ok (.ready v.payload)
    | none => .error (.refused .noVariable)
  | .suspended d => (d.make s.memory).mapError .error |>.map fun p => .suspended (.ok p)
  | .failing reason => .ok (.suspended (.error (.invalidArgument "expr" (.reason reason))))

/-- How often each slot of a frame was computed. -/
def evaluationsOf (f : Frame) : List Nat := (List.range f.size).map f.evaluations

/-- Calls a builtin on a frame; the new frame is a part of the result. -/
def callOn (s : Session) (name : String) (args : Option Arguments) (into : Option String)
    (frame : Frame) : Reply × Frame × Session :=
  let (outcome, frame, files) :=
    s.engine.call s.clock s.memory name (args.getD frame.arguments) frame s.files
  let s := { s with files := files }
  let s :=
    match outcome with
    | .ok v => s.store into v
    | .error _ => s
  (.called outcome (evaluationsOf frame), frame, s)

/-- A builtin call. -/
def dispatch (s : Session) (name : String) (source : CallSource) (args : Option Arguments)
    (into : Option String) : Reply × Session :=
  match source with
  | .named frameName =>
    match s.frame? frameName with
    | none => (.refused .noFrame, s)
    | some frame =>
      let (reply, frame, s) := s.callOn name args into frame
      (reply, s.setFrame frameName frame)
  | .fresh slots =>
    match slots.mapM s.slotOf with
    | .error reply => (reply, s)
    | .ok slots =>
      let (reply, _, s) := s.callOn name args into ⟨slots⟩
      (reply, s)

/-- A request to the types of the engine. -/
def registerType (s : Session) (request : Registration) (reply : Key → Reply) : Reply × Session :=
  let (answer, engine) := s.engine.registerType request
  (.ofExcept reply answer, { s with engine := engine })

/-- A new value, for a reply and possibly for a variable. -/
def keep (s : Session) (into : Option String) : Except Error Value → Reply × Session
  | .ok v => (.payload v.payload, s.store into v)
  | .error e => (.error e, s)

/-- The element of a row or image. -/
def elementOf (v : Value) (index : Nat) : Reply :=
  match v.payload with
  | .colorRow row => .element ((row.element? index).map fun c => .borrowed (.color c))
  | .colorImage image => .element ((image.element? index).map fun c => .borrowed (.color c))
  | _ => .error (.mismatch Kind.colorImage.title v.typeName)

/-- Does one step. -/
def step (s : Session) : Step → Reply × Session
  | .signal stage =>
    let (outcome, engine) := s.engine.signal stage
    let reply : Reply :=
      .stage engine.initialized engine.types.size engine.builtins.size
    (.ofExcept (fun _ => reply) outcome, { s with engine := engine })
  | .config => (.config s.engine.config, s)
  | .dispatch name source args into => s.dispatch name source args into
  | .registerBuiltin signature probe =>
    match Builtin.ofText signature probe.entry with
    | .error e => (.error e, s)
    | .ok b =>
      let (outcome, engine) := s.engine.registerBuiltin b
      (.ofExcept (fun _ => .flag true) outcome, { s with engine := engine })
  | .builtins => (.texts (s.engine.builtins.builtins.map fun b => b.signature.render), s)
  | .builtin name => (.builtin (s.engine.builtins.get? name), s)
  | .tableRegister signature probe =>
    match Builtin.ofText signature probe.entry with
    | .error e => (.error e, s)
    | .ok b =>
      let (outcome, table) := s.table.register b
      (.ofExcept (fun _ => .count table.size) outcome, { s with table := table })
  | .table name => (.table s.table (s.table.contains name), s)
  | .types => (.types s.engine.types, s)
  | .typeCount => (.typeCount s.engine.types.size, s)
  | .registerType request => s.registerType request .key
  | .shareConversion type source =>
    match (s.engine.types.find? source).bind (·.conversion) with
    | none => (.refused .noConversion, s)
    | some conversion => s.registerType (.conversion type conversion) fun _ => .flag true
  | .resolve name => (.ofExcept .key (s.engine.types.resolve name), s)
  | .contains name => (.flag (s.engine.types.contains name), s)
  | .nameOf type => (.name (s.engine.types.nameOf? type), s)
  | .layoutOf type => (.layout (s.engine.types.layoutOf? type), s)
  | .layoutField type field =>
    (.fieldOf ((s.engine.types.layoutOf? type).bind (·.field? field)), s)
  | .construct type => (.ofExcept .payload (s.engine.types.construct type), s)
  | .create type into =>
    s.keep into <|
      match type with
      | .named name => Value.createNamed s.engine.types name
      | .keyed key => Value.create s.engine.types key
  | .fieldSpan type path =>
    (.ofExcept (fun (offset, width) => .span offset width)
      (s.engine.types.fieldSpan type path), s)
  | .set d ownership into =>
    match d.make s.memory with
    | .error e => (.error e, s)
    | .ok p => (.done, s.setVariable into (.wrap ownership p))
  | .clone var into =>
    match s.valueOf? var with
    | none => (.refused .noVariable, s)
    | some v => (.text v.clone.ownership.word, s.store into v.clone)
  | .intoOwned var =>
    match s.valueOf? var with
    | none => (.refused .noVariable, s)
    | some v => (.text v.intoOwned.ownership.word, s.setVariable var v.intoOwned)
  | .release var =>
    match s.valueOf? var with
    | none => (.refused .noVariable, s)
    | some _ => (.done, { s with vars := s.vars.filter fun (n, _) => n ≠ var })
  | .get var => s.ask var .value
  | .toNumber var => s.ask var fun v => .ofExcept .number v.toNumber
  | .toBool var => s.ask var fun v => .ofExcept .flag v.toBool
  | .toText var => s.ask var fun v => .ofExcept .text v.toText
  | .display var => s.ask var fun v => .text v.display
  | .print var => s.ask var fun v => .text v.print
  | .isKind var kind => s.ask var fun v => .flag (decide (v.payload.kind = kind))
  | .expect var kind => s.ask var fun v => .ofExcept .payload (v.expect kind)
  | .expectOwned var kind => s.ask var fun v => .ofExcept .payload (v.expectOwned kind)
  | .convert var type into =>
    match s.valueOf? var with
    | none => (.refused .noVariable, s)
    | some v => s.keep into (v.convert s.engine.types type)
  | .copyConvert var source =>
    match s.valueOf? source with
    | none => (.refused .noVariable, s)
    | some from_ =>
      s.mutate var .notOwned (s.engine.types.copyOnto · from_.payload) .ofOutcome
  | .assign var source =>
    match s.valueOf? source with
    | none => (.refused .noVariable, s)
    | some from_ => s.mutate var .noVariable (·.assign from_.payload) fun taken _ => .flag taken
  | .slots var => s.ask var fun v => .numbers v.payload.slots?
  | .setSlots var slots =>
    s.mutate var .noVariable (·.setSlots slots) fun taken _ => .flag taken
  | .getField var path =>
    s.ask var fun v => .ofExcept .number (s.engine.types.getField v.payload path)
  | .setField var path x =>
    s.mutate var .notOwned (s.engine.types.writeField · path x) .ofOutcome
  | .rowSetSize var size fill =>
    s.change var .colorRow (ColorRow.setSize s.memory size fill) .ofOutcome
  | .imageSetSize var width height fill =>
    s.change var .colorImage (ColorImage.setSize s.memory width height fill) .ofOutcome
  | .pixel var x y =>
    s.ask var fun v =>
      match v.payload with
      | .colorImage image => .numbers ((image.pixel? x y).map Color.slots)
      | _ => .error (.mismatch Kind.colorImage.title v.typeName)
  | .setPixel var x y c =>
    s.change var .colorImage (·.setPixel x y c) fun taken _ => .flag taken
  | .saturate var gamma parallelMin =>
    s.change var .colorImage (fun image => ((), image.saturate gamma parallelMin)) fun _ => .payload
  | .element var index => s.ask var fun v => elementOf v index
  | .setRadius var radius pos =>
    s.change var .sphere (fun ball => ((), (ball.moved pos).setRadius radius)) fun _ => .payload
  | .frameNew frame => (.done, s.setFrame frame {})
  | .framePush frame slot =>
    match s.frame? frame with
    | none => (.refused .noFrame, s)
    | some f =>
      match s.slotOf slot with
      | .error reply => (reply, s)
      | .ok slot => (.count f.size, s.setFrame frame (f.push slot))
  | .frameEval frame slot =>
    match s.frame? frame with
    | none => (.refused .noFrame, s)
    | some f =>
      let (outcome, f) := f.eval slot
      (.ofExcept .evaluated outcome, s.setFrame frame f)
  | .argsGet frame index args into =>
    match s.frame? frame with
    | none => (.refused .noFrame, s)
    | some f =>
      let args := args.getD f.arguments
      let (outcome, f) := args.get index f
      let s := s.setFrame frame f
      match outcome with
      | .error e => (.error e, s)
      | .ok v => (.argument v args.size, s.store into v.intoOwned)
  | .frameInfo frame =>
    match s.frame? frame with
    | none => (.refused .noFrame, s)
    | some f => (.frame f, s)

/-- A session whose engine has the given settings and, if asked for, everything standard. -/
def start (config : Config) (standard : Bool) : Session :=
  { engine := if standard then (Engine.standard config).2 else { config := config } }

/-- Does steps one after the other; each reply comes with the number of owned values after it. -/
def run (s : Session) : List Step → List (Reply × Nat)
  | [] => []
  | first :: rest =>
    let (reply, s) := s.step first
    (reply, s.live) :: s.run rest

end Session

end SceneScript
