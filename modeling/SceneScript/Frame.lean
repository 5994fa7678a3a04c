/-
SceneScript.Frame — the arguments of a call, evaluated when they are needed.

A frame is a row of slots. A slot either holds a value from the start or holds
an expression, which is computed when the slot is first asked for and never
again once it has given a value; what it gave is then shared with all who ask.
An expression that fails is asked anew each time.

An argument list says, for each argument of a call, in which slot it is and
possibly of which type it has to be. Several arguments may name one slot.
-/
import SceneScript.Value

namespace SceneScript

/-! ## §1 Slots -/

/-- A slot: its expression if it has one, its value once there is one, and how often the
expression was computed. An expression is given by what it comes to: it comes to the same whenever
it is computed, and computing it asks for no slot of the frame. -/
structure Slot where
  expression : Option (Except Error Payload)
  cache : Option Payload
  evaluations : Nat

namespace Slot

/-- A slot that holds a value from the start. -/
def ready (p : Payload) : Slot := ⟨none, some p, 0⟩

/-- A slot that holds an expression. -/
def suspended (outcome : Except Error Payload) : Slot := ⟨some outcome, none, 0⟩

end Slot

/-! ## §2 Frames -/

/-- A row of slots. -/
structure Frame where
  slots : List Slot := []

namespace Frame

/-- The number of slots. -/
def size (f : Frame) : Nat := f.slots.length

/-- The frame with one more slot at the end. -/
def push (f : Frame) (s : Slot) : Frame := ⟨f.slots ++ [s]⟩

/-- How often the expression of a slot was computed; never, if there is none. -/
def evaluations (f : Frame) (i : Nat) : Nat :=
  match f.slots[i]? with
  | some s => s.evaluations
  | none => 0

/-- The value of a slot, and the frame after it was asked for. -/
def eval (f : Frame) (i : Nat) : Except Error Value × Frame :=
  match f.slots[i]? with
  | none => (.error (.argumentIndex i f.size), f)
  | some s =>
    match s.cache with
    | some p => (.ok (.shared p), f)
    | none =>
      match s.expression with
      | none => (.error (.argumentIndex i f.size), f)
      | some (.error e) => (.error e, f)
      | some (.ok p) =>
        let computed := { s with cache := some p, evaluations := s.evaluations + 1 }
        (.ok (.shared p), ⟨f.slots.set i computed⟩)

/-- The frame as a list of type names, where known. -/
def print (f : Frame) : String :=
  Record.list <| f.slots.map fun s =>
    match s.cache with
    | some p => Text.quote p.typeName
    | none => Text.quote "<lazy>"

end Frame

/-! ## §3 Argument lists -/

/-- An argument: its slot, and the key of the type it has to be of, if that matters. -/
structure Argument where
  slot : Nat
  hint : Option Key := none
deriving DecidableEq, Repr

/-- The arguments of a call, in order. -/
structure Arguments where
  items : List Argument := []
deriving DecidableEq, Repr

namespace Arguments

/-- The number of arguments. -/
def size (a : Arguments) : Nat := a.items.length

/-- The arguments that are the first `n` slots in order. -/
def positional (n : Nat) : Arguments := ⟨(List.range n).map fun slot => ⟨slot, none⟩⟩

/-- The value of an argument, and the frame after it was asked for. -/
def get (a : Arguments) (i : Nat) (f : Frame) : Except Error Value × Frame :=
  match a.items[i]? with
  | none => (.error (.argumentIndex i a.size), f)
  | some arg =>
    match f.eval arg.slot with
    | (.error e, f') => (.error e, f')
    | (.ok v, f') =>
      match arg.hint with
      | none => (.ok v, f')
      | some hint =>
        if v.key = hint then (.ok v, f') else (.error (.mismatch hint.render v.typeName), f')

end Arguments

/-- The arguments that are all slots of a frame in order. -/
def Frame.arguments (f : Frame) : Arguments := .positional f.size

end SceneScript
