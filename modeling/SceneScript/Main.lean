/-
SceneScript.Main — the program.

Everything is decided by `CommandLine.answer` and reported by `CommandLine.conclude`.
What is left for this module is to carry out an operation on real files, to print,
and to exit. Nothing is logged.
-/
import SceneScript.Options

namespace SceneScript.Main

/-- Whether an action succeeds. -/
def succeeds (action : IO Unit) : IO Bool := do
  try
    action
    return true
  catch _ => return false

/-- Carries out an operation on real files. No path has a NUL character in it. -/
def performOnDisk : FileOp → IO Bool
  | .present path =>
    if (FilePath.parse? path).isNone then return false
    else succeeds (discard (IO.FS.realPath path))
  | .touch path =>
    if (FilePath.parse? path).isNone then return false
    else succeeds (discard (IO.FS.Handle.mk path .append))
  | .delete path =>
    if (FilePath.parse? path).isNone then return false
    else succeeds (IO.FS.removeFile path)
  | .rename source target =>
    if (FilePath.parse? source).isNone || (FilePath.parse? target).isNone then return false
    else succeeds (IO.FS.rename source target)

/-- The value of an answer, once its operation on files has been carried out. -/
def settleOnDisk : Answer → IO Value
  | .value v => return v
  | .file op => return .owned (.boolean (← performOnDisk op))

end SceneScript.Main

open SceneScript in
/-- Runs the command line that the program was started with. -/
def main (args : List String) : IO UInt32 := do
  let started ← IO.monoNanosNow
  let elapsed := (Float.ofNat ((← IO.monoNanosNow) - started)) / 1000000000
  let outcome ←
    match CommandLine.readRequest args with
    | .error outcome => pure outcome
    | .ok request =>
      CommandLine.conclude Main.settleOnDisk "" (CommandLine.answer { clock := elapsed } request)
  (← IO.getStdout).putStr outcome.output
  (← IO.getStderr).putStr outcome.errors
  return UInt32.ofNat outcome.exitCode
