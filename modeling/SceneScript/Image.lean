/-
SceneScript.Image — buffers of colors: a row, and a two-dimensional image.

An image keeps its pixels row by row: pixel (x, y) is element
`y · width + x`. That there are exactly `width · height` of them is part of the
type. Sizes come from scripts and may be anything up to 64 bits, so a resize
first checks that the elements can be counted, addressed and held in memory; a
resize that fails leaves the buffer as it was.
-/
import SceneScript.Error
import SceneScript.Size
import SceneScript.Vector

namespace SceneScript

/-! ## §1 Sizes -/

/-- The memory that one color takes, in bytes. -/
def colorBytes : Nat := 24

/-- The memory that can be addressed, in bytes. -/
def addressLimit : Nat := 0x7fffffffffffffff

/-- Which buffers there is room for, by their number of elements. -/
structure Memory where
  grants : Nat → Bool

/-- No machine has room for `2 ^ 57` colors. -/
def Memory.usual : Memory := ⟨fun count => decide (count < 0x200000000000000)⟩

/-- A buffer of equal colors, or the objection to making one. -/
def filled (memory : Memory) (count : Nat) (fill : Color) : Except Objection (Array Color) :=
  if addressLimit < count * colorBytes then .error (.unaddressable count)
  else if memory.grants count then .ok (Array.replicate count fill)
  else .error (.outOfMemory count)

theorem filled_eq_ok {memory : Memory} {count : Nat} {fill : Color} {data : Array Color}
    (h : filled memory count fill = .ok data) : data = Array.replicate count fill := by
  unfold filled at h
  split at h
  · cases h
  · split at h
    · cases h; rfl
    · cases h

/-! ## §2 Rows -/

/-- A row of colors. -/
structure ColorRow where
  data : Array Color := #[]

namespace ColorRow

/-- The number of colors. -/
def size (row : ColorRow) : Nat := row.data.size

/-- Gives a row another size, with every element set to `fill`. -/
def setSize (memory : Memory) (count : Nat) (fill : Color) (row : ColorRow) :
    Except Error Unit × ColorRow :=
  match filled memory count fill with
  | .ok data => (.ok (), { row with data := data })
  | .error objection => (.error (.invalidArgument "set_size" objection), row)

/-- One element. -/
def element? (row : ColorRow) (i : Nat) : Option Color := row.data[i]?

end ColorRow

/-! ## §3 Images -/

/-- A rectangle of colors. -/
structure ColorImage where
  width : Nat := 0
  height : Nat := 0
  data : Array Color := #[]
  size_eq : data.size = width * height := by rfl

namespace ColorImage

/-- The image without pixels. -/
def empty : ColorImage := {}

/-- The number of pixels. -/
def size (image : ColorImage) : Nat := image.data.size

/-- Gives an image other dimensions, with every pixel set to `fill`. -/
def setSize (memory : Memory) (width height : Nat) (fill : Color) (image : ColorImage) :
    Except Error Unit × ColorImage :=
  if sizeLimit ≤ width * height then
    (.error (.invalidArgument "set_size_2d" (.uncountable width height)), image)
  else
    match h : filled memory (width * height) fill with
    | .ok data =>
      (.ok (), ⟨width, height, data, by rw [filled_eq_ok h, Array.size_replicate]⟩)
    | .error objection => (.error (.invalidArgument "set_size_2d" objection), image)

/-- The image of the given dimensions with every pixel set to `fill`. -/
def resized (memory : Memory) (width height : Nat) (fill : Color) : Except Error ColorImage :=
  madeBy (empty.setSize memory width height fill)

/-- The place of a pixel in the buffer, if it is inside the image. -/
def index? (image : ColorImage) (x y : Nat) : Option Nat :=
  if x < image.width ∧ y < image.height then some (y * image.width + x) else none

/-- The color of a pixel. -/
def pixel? (image : ColorImage) (x y : Nat) : Option Color :=
  (image.index? x y).bind fun i => image.data[i]?

/-- Changes one pixel; nothing outside the image can be changed. -/
def setPixel (image : ColorImage) (x y : Nat) (c : Color) : Bool × ColorImage :=
  match image.index? x y with
  | some i =>
    (true,
      { image with
        data := image.data.setIfInBounds i c
        size_eq := by rw [Array.size_setIfInBounds, image.size_eq] })
  | none => (false, image)

/-- The image with pixels changed one after the other; those outside of it are passed over. -/
def setPixels (image : ColorImage) (pixels : List (Nat × Nat × Color)) : ColorImage :=
  pixels.foldl (fun image (x, y, c) => (image.setPixel x y c).2) image

/-- One pixel by its place in the buffer. -/
def element? (image : ColorImage) (i : Nat) : Option Color := image.data[i]?

/-- Applies a function to every element; from `parallelMin` elements on the two halves of the
buffer are worked on at the same time. How the elements are shared out is a choice made here and
nothing depends on it: either way every element is replaced by its own value under the function
(`mapHalves_eq_map`). -/
def mapHalves (f : Color → Color) (parallelMin : Nat) (data : Array Color) : Array Color :=
  if parallelMin ≤ data.size then
    let middle := data.size / 2
    let front := Task.spawn fun _ => (data.extract 0 middle).map f
    let back := (data.extract middle data.size).map f
    front.get ++ back
  else data.map f

theorem mapHalves_eq_map (f : Color → Color) (parallelMin : Nat) (data : Array Color) :
    mapHalves f parallelMin data = data.map f := by
  unfold mapHalves
  split
  · have h : data.extract 0 (data.size / 2) ++ data.extract (data.size / 2) data.size = data := by
      rw [Array.extract_append_extract]
      simp [Nat.div_le_self]
    show (data.extract 0 (data.size / 2)).map f ++ _ = _
    rw [← Array.map_append, h]
  · rfl

/-- The image with every pixel tone-mapped. -/
def saturate (image : ColorImage) (gamma : Float) (parallelMin : Nat) : ColorImage :=
  { image with
    data := mapHalves (·.saturate gamma) parallelMin image.data
    size_eq := by rw [mapHalves_eq_map, Array.size_map, image.size_eq] }

end ColorImage

end SceneScript
