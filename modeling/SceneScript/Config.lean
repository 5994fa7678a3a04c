/-
SceneScript.Config — settings that builtins read.

No setting changes which types and builtins there are.
-/

namespace SceneScript

/-- The settings of a host. -/
structure Config where
  /-- Images with at least this many pixels are tone-mapped in parallel. -/
  parallelSaturateMin : Nat := 4096
  /-- The factor by which bounding spheres are widened. -/
  envelopeMargin : Float := 1.01

end SceneScript
