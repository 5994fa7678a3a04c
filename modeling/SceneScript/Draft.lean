/-
SceneScript.Draft — values as a host writes them down.

Most values can be written down as they are. An image is written down by its
dimensions, its color and the pixels that differ, and it is made when it is
needed. That may fail: the dimensions are as free as those of a resize, and
they are objected to in the same words.
-/
import SceneScript.Frame

namespace SceneScript

/-- A value that a host has written down. -/
inductive Draft
  /-- A value as it is. -/
  | finished (p : Payload)
  /-- An image of one color in which some pixels are then changed. -/
  | image (width height : Nat) (fill : Color) (pixels : List (Nat × Nat × Color))

namespace Draft

/-- Makes the value. -/
def make (memory : Memory) : Draft → Except Error Payload
  | finished p => .ok p
  | image width height fill pixels =>
    (ColorImage.resized memory width height fill).map fun image =>
      .colorImage (image.setPixels pixels)

/-- The frame of some drafts, one ready slot for each; the first that cannot be made is the one
that is objected to. -/
def frame (memory : Memory) (drafts : List Draft) : Except Error Frame :=
  (drafts.mapM (make memory)).map fun payloads => ⟨payloads.map Slot.ready⟩

end Draft

end SceneScript
