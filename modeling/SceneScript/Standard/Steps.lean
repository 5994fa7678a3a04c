/-
SceneScript.Standard.Steps — the steps that standard builtins are made of.

An entry first counts its arguments. Then it asks for them one by one and reads
each as a number, a text or whatever it needs, and it has a fresh value of its
type made and filled. The order of these steps is the entry's own affair: some
have the value made first and fill it as they read, some look at one argument
before they ask for the next.
-/
import SceneScript.Builtin

namespace SceneScript.Standard

/-! ## §1 Without the frame -/

/-- What has been found out without the frame, as a step. -/
def settled {α : Type} (outcome : Except Failure α) : Call α := fun frame => (outcome, frame)

/-- The same, where it can only fail with an error. -/
def attempt {α : Type} (outcome : Except Error α) : Call α := settled (outcome.mapError .error)

/-- Objects to any other number of arguments. -/
def checkCount (signature : Signature) (args : Arguments) (count : Nat) : Call Unit :=
  attempt <|
    if args.size = count then .ok () else .error (.arity signature.name count args.size)

/-! ## §2 Arguments -/

/-- The value of an argument. -/
def argument (args : Arguments) (i : Nat) : Call Value := fun frame =>
  let (outcome, frame) := args.get i frame
  (outcome.mapError .error, frame)

/-- An argument as a number. -/
def number (args : Arguments) (i : Nat) : Call Float := do
  let v ← argument args i
  attempt v.toNumber

/-- An argument as text. -/
def text (args : Arguments) (i : Nat) : Call String := do
  let v ← argument args i
  attempt v.toText

/-- What an argument of the given form holds. -/
def content {α : Type} (form : Form α) (args : Arguments) (i : Nat) : Call α := do
  let v ← argument args i
  attempt (v.content form)

/-! ## §3 Results -/

/-- Has a fresh value of the given form made by the registry and then filled. -/
def build {α : Type} (form : Form α) (host : Host) (fill : α → Call α) : Call Answer := do
  let fresh ← attempt (Value.create host.types form.kind.key)
  let a ← attempt (fresh.ownContent form)
  let filled ← fill a
  return .value (fresh.withPayload (form.wrap filled))

/-- A standard builtin: the text of its signature, and what it does. -/
structure Spec where
  signature : String
  entry : Entry

/-- The builtin that a specification describes. -/
def Spec.builtin (s : Spec) : Except Error Builtin := Builtin.ofText s.signature s.entry

end SceneScript.Standard
