/-
SceneScript.Proofs.PixelTheorems — the pixels of an image and their places.

Pixel (x, y) of an image is element `y · width + x` of its buffer. Coordinates inside the
image are taken apart again by division (`place_mod`, `place_div`), so that no two of them
share an element and every element is a pixel: `pixel?` by coordinates and `element?` by
place are two views of one store (`element?_eq`). Setting a pixel and tone-mapping are
described in the first view, as relations between two images (`Painted`, `Toned`), and
these determine the images (`eq_of_pixels`).

`pixel_addressing` says all this of the steps of a session, for every image that a variable
holds, and of the builtin `saturate` on every engine on which `init1` has succeeded.
-/
import SceneScript.Proofs.ImageTheorems
import SceneScript.Proofs.StringTheorems

namespace SceneScript

/-! ## §1 Coordinates and places -/

namespace ColorImage

variable {image image' image'' : ColorImage} {x y x' y' i width : Nat} {c : Color} {gamma : Float}

theorem place_mod (hx : x < width) (y : Nat) : (y * width + x) % width = x := by
  rw [Nat.add_comm, Nat.add_mul_mod_self_right, Nat.mod_eq_of_lt hx]

theorem place_div (hx : x < width) (y : Nat) : (y * width + x) / width = y := by
  have hwidth : 0 < width := Nat.zero_lt_of_lt hx
  rw [Nat.add_comm, Nat.add_mul_div_right _ _ hwidth, Nat.div_eq_of_lt hx, Nat.zero_add]

/-- Two pixels in one place are one pixel. -/
theorem index?_injective (h : image.index? x y = some i) (h' : image.index? x' y' = some i) :
    x = x' ∧ y = y' := by
  obtain ⟨⟨hx, -⟩, rfl⟩ := index?_eq_some_iff.mp h
  obtain ⟨⟨hx', -⟩, hplace⟩ := index?_eq_some_iff.mp h'
  constructor
  · rw [← place_mod hx y, hplace, place_mod hx']
  · rw [← place_div hx y, hplace, place_div hx']

/-- Every place in the buffer is that of a pixel. -/
theorem index?_of_lt_size (hi : i < image.size) :
    image.index? (i % image.width) (i / image.width) = some i := by
  have hsize : i < image.width * image.height := by
    rw [← image.size_eq]
    exact hi
  have hwidth : 0 < image.width := Nat.pos_of_mul_pos_right (Nat.zero_lt_of_lt hsize)
  refine index?_eq_some_iff.mpr ⟨⟨Nat.mod_lt i hwidth, Nat.div_lt_of_lt_mul hsize⟩, ?_⟩
  rw [Nat.mul_comm]
  exact (Nat.div_add_mod i image.width).symm

/-- **The two views agree**: an element is the pixel whose coordinates its place is made of. -/
theorem element?_eq (image : ColorImage) (i : Nat) : image.element? i =
    if i < image.size then image.pixel? (i % image.width) (i / image.width) else none := by
  split
  · next hi =>
    rw [pixel?, index?_of_lt_size hi]
    rfl
  · next hi => exact Array.getElem?_eq_none (Nat.le_of_not_lt hi)

/-- Images of the same dimensions and with the same pixels are the same. -/
theorem eq_of_pixels (hwidth : image.width = image'.width) (hheight : image.height = image'.height)
    (hpixels : ∀ x y, image.pixel? x y = image'.pixel? x y) : image = image' := by
  have hsize : image.size = image'.size := by
    show image.data.size = image'.data.size
    rw [image.size_eq, image'.size_eq, hwidth, hheight]
  have hdata : image.data = image'.data := by
    refine Array.ext_getElem? fun i => ?_
    show image.element? i = image'.element? i
    rw [element?_eq, element?_eq, hsize, hwidth, hpixels]
  cases image
  cases image'
  simp_all

/-! ## §2 Changes -/

/-- One pixel of the image has another color, and nothing else is different. -/
structure Painted (image : ColorImage) (x y : Nat) (c : Color) (image' : ColorImage) : Prop where
  width : image'.width = image.width
  height : image'.height = image.height
  painted : image'.pixel? x y = some c
  others : ∀ x' y', (x', y') ≠ (x, y) → image'.pixel? x' y' = image.pixel? x' y'

/-- Every pixel of the image is tone-mapped by itself. -/
structure Toned (image : ColorImage) (gamma : Float) (image' : ColorImage) : Prop where
  width : image'.width = image.width
  height : image'.height = image.height
  pixels : ∀ x y, image'.pixel? x y = (image.pixel? x y).map (·.saturate gamma)

theorem Painted.unique (h : image.Painted x y c image') (h' : image.Painted x y c image'') :
    image' = image'' := by
  refine eq_of_pixels (h.width.trans h'.width.symm) (h.height.trans h'.height.symm) fun x' y' => ?_
  by_cases hsame : (x', y') = (x, y)
  · cases hsame
    exact h.painted.trans h'.painted.symm
  · exact (h.others x' y' hsame).trans (h'.others x' y' hsame).symm

theorem Toned.unique (h : image.Toned gamma image') (h' : image.Toned gamma image'') :
    image' = image'' :=
  eq_of_pixels (h.width.trans h'.width.symm) (h.height.trans h'.height.symm) fun x y =>
    (h.pixels x y).trans (h'.pixels x y).symm

/-- Outside of the image no pixel is set, and the image is left as it was. -/
theorem setPixel_outside (h : ¬ (x < image.width ∧ y < image.height)) (c : Color) :
    image.setPixel x y c = (false, image) := by
  have hnone : image.index? x y = none := by rw [index?, if_neg h]
  simp only [setPixel, hnone]

/-- Inside of it a pixel is set. -/
theorem exists_setPixel (h : x < image.width ∧ y < image.height) (c : Color) :
    ∃ image', image.Painted x y c image' ∧ image.setPixel x y c = (true, image') := by
  obtain ⟨i, hi⟩ : ∃ i, image.index? x y = some i := ⟨_, index?_eq_some_iff.mpr ⟨h, rfl⟩⟩
  have hplace : i < image.data.size := by
    obtain rfl := (index?_eq_some_iff.mp hi).2
    exact index_lt_size h.1 h.2
  refine ⟨(image.setPixel x y c).2, ?_, by simp only [setPixel, hi]⟩
  simp only [setPixel, hi]
  constructor
  case width => rfl
  case height => rfl
  case painted =>
    show (image.index? x y).bind (fun j => (image.data.setIfInBounds i c)[j]?) = some c
    rw [hi]
    simp [hplace]
  case others =>
    intro x' y' hother
    show (image.index? x' y').bind (fun j => (image.data.setIfInBounds i c)[j]?) =
      (image.index? x' y').bind fun j => image.data[j]?
    cases hj : image.index? x' y' with
    | none => rfl
    | some j =>
      have hapart : i ≠ j := by
        intro hij
        subst hij
        obtain ⟨rfl, rfl⟩ := index?_injective hi hj
        exact hother rfl
      exact Array.getElem?_setIfInBounds_ne hapart

/-- Whether the halves of the buffer are worked on at the same time makes no difference. -/
theorem toned_saturate (image : ColorImage) (gamma : Float) (parallelMin : Nat) :
    image.Toned gamma (image.saturate gamma parallelMin) := by
  constructor
  case width => rfl
  case height => rfl
  case pixels =>
    intro x y
    show (image.index? x y).bind (fun i => (mapHalves (·.saturate gamma) parallelMin image.data)[i]?) =
      ((image.index? x y).bind fun i => image.data[i]?).map (·.saturate gamma)
    rw [mapHalves_eq_map]
    cases image.index? x y with
    | none => rfl
    | some i => exact Array.getElem?_map

end ColorImage

/-! ## §3 Steps -/

namespace Session

/-- What the steps on pixels do to an image in a variable. -/
structure Addresses (s : Session) (var : String) (v : Value) (image : ColorImage) : Prop where
  /-- No two pixels share an element. -/
  apart : ∀ x y x' y' i, image.index? x y = some i → image.index? x' y' = some i →
    x = x' ∧ y = y'
  pixel : ∀ x y, s.step (.pixel var x y) = (.numbers ((image.pixel? x y).map Color.slots), s)
  inside : ∀ x y, (image.pixel? x y).isSome ↔ x < image.width ∧ y < image.height
  /-- There is a borrowed view of every element, and it shows a pixel. -/
  element : ∀ i, s.step (.element var i) =
    (.element (if i < image.size then
      (image.pixel? (i % image.width) (i / image.width)).map fun c => .borrowed (.color c)
      else none), s)
  viewed : ∀ i < image.size, i % image.width < image.width ∧ i / image.width < image.height
  /-- Where there is a pixel it is painted, -/
  painted : ∀ x y c, x < image.width ∧ y < image.height →
    ∃ image', image.Painted x y c image' ∧ image.setPixel x y c = (true, image')
  /-- and elsewhere nothing is. -/
  left : ∀ x y c, ¬ (x < image.width ∧ y < image.height) → image.setPixel x y c = (false, image)
  set : v.ownership = .owned → ∀ x y c, x < image.width ∧ y < image.height →
    ∃ image', image.Painted x y c image' ∧ s.step (.setPixel var x y c) =
      (.flag true, s.setVariable var (v.withPayload (.colorImage image')))
  refused : v.ownership = .owned → ∀ x y c, ¬ (x < image.width ∧ y < image.height) →
    s.step (.setPixel var x y c) = (.flag false, s)
  saturate : v.ownership = .owned → ∀ gamma, ∃ image', image.Toned gamma image' ∧
    ∀ parallelMin, s.step (.saturate var gamma parallelMin) =
      (.payload (.colorImage image'), s.setVariable var (v.withPayload (.colorImage image')))

theorem addresses {s : Session} {var : String} {v : Value} {image : ColorImage}
    (hv : s.valueOf? var = some v) (himage : v.payload = .colorImage image) :
    s.Addresses var v image := by
  have hcontent (howned : v.ownership = .owned) : v.ownContent .colorImage = .ok image :=
    Value.ownContent_eq_ok_iff.mpr ⟨howned, himage⟩
  constructor
  case apart => exact fun x y x' y' i h h' => ColorImage.index?_injective h h'
  case pixel =>
    intro x y
    simp only [step, ask, hv, himage]
  case inside => exact fun x y => ColorImage.isSome_pixel?_iff
  case element =>
    intro i
    simp only [step, ask, hv, elementOf, himage, ColorImage.element?_eq]
    split <;> rfl
  case viewed =>
    exact fun i hi => (ColorImage.index?_eq_some_iff.mp (ColorImage.index?_of_lt_size hi)).1
  case painted => exact fun x y c hinside => ColorImage.exists_setPixel hinside c
  case left => exact fun x y c houtside => ColorImage.setPixel_outside houtside c
  case set =>
    intro howned x y c hinside
    obtain ⟨image', hpainted, hset⟩ := ColorImage.exists_setPixel hinside c
    refine ⟨image', hpainted, ?_⟩
    simp only [step, change, hv, hcontent howned, hset]
    rfl
  case refused =>
    intro howned x y c houtside
    simp only [step, change, hv, hcontent howned, ColorImage.setPixel_outside houtside c]
    exact congrArg (Prod.mk _) (setVariable_of_left hv himage)
  case saturate =>
    intro howned gamma
    refine ⟨image.saturate gamma 0, ColorImage.toned_saturate image gamma 0, fun parallelMin => ?_⟩
    have hsame : image.saturate gamma parallelMin = image.saturate gamma 0 :=
      (ColorImage.toned_saturate image gamma parallelMin).unique
        (ColorImage.toned_saturate image gamma 0)
    rw [← hsame]
    simp only [step, change, hv, hcontent howned]
    rfl

end Session

/-! ## §4 The builtin -/

namespace Standard

variable {host : Host} {signature : Signature} {args : Arguments} {a b : Argument} {frame : Frame}
  {image : ColorImage} {p : Payload} {gamma : Float}

/-- The builtin asks for its two arguments and makes an image of its own. -/
theorem saturate_apply (hstocked : host.types.Stocked) (hargs : args.items = [a, b])
    (hp : a.outcome frame = .ok (.colorImage image)) (hgamma : b.outcome frame = .ok p)
    (hnumber : p.toNumber? = some gamma) :
    Standard.saturate host signature args frame =
      (.ok (.payload (.colorImage (image.saturate gamma host.config.parallelSaturateMin))),
        frame.evalAll [a.slot, b.slot]) := by
  have hcount : checkCount signature args 2 = attempt (.ok ()) :=
    checkCount_of_length (by simp [hargs])
  have harg : args.items[0]? = some a := by simp [hargs]
  have harg' : args.items[1]? = some b := by simp [hargs]
  have hgamma' : b.outcome (frame.eval a.slot).2 = .ok p := by rw [Argument.outcome_eval, hgamma]
  obtain ⟨fresh, hbuild⟩ := build_eq .colorImage
    (fun _ => Pure.pure (image.saturate gamma host.config.parallelSaturateMin)) hstocked (by decide)
  rw [Standard.saturate, hcount, attempt_ok_bind, bind_apply, content_apply .colorImage harg hp]
  dsimp only
  rw [bind_apply, number_apply harg' hgamma' hnumber]
  dsimp only
  rw [hbuild]
  rfl

end Standard

namespace Engine

open Standard

theorem parse_saturate : Signature.parse "color_image saturate( color_image image, num gamma )" =
    .ok ⟨some "color_image", "saturate", [⟨"color_image", "image"⟩, ⟨"num", "gamma"⟩]⟩ := by
  decide

/-- What the builtin comes to on an engine, wherever the image and the number come from: an image of
its own, and the frame with both arguments evaluated and all slots worth what they were. -/
def SaturatesCopy (engine : Engine) (clock : Float) (memory : Memory) (files : Tree) : Prop :=
  ∀ args frame a b image p gamma, args.items = [a, b] →
    a.outcome frame = .ok (.colorImage image) → b.outcome frame = .ok p →
    p.toNumber? = some gamma →
    ∃ image' frame', image.Toned gamma image' ∧
      engine.call clock memory "saturate" args frame files =
        (.ok (.owned (.colorImage image')), frame', files) ∧
      frame'.cached? a.slot = some (.colorImage image) ∧
      ∀ i, frame'.outcome i = frame.outcome i

theorem saturatesCopy {config : Config} {events : List Event}
    (hinit : (run { config := config } events).initialized = true) (clock : Float)
    (memory : Memory) (files : Tree) :
    SaturatesCopy (run { config := config } events) clock memory files := by
  intro args frame a b image p gamma hargs hp hgamma hnumber
  have hspec : ⟨"color_image saturate( color_image image, num gamma )", Standard.saturate⟩ ∈
      specs := by
    simp [specs, imageSpecs]
  have hstocked : ((run { config := config } events).host clock memory).types.Stocked :=
    ((sound_run config events).complete hinit).stocked
  have htoned := ColorImage.toned_saturate image gamma
    (run { config := config } events).config.parallelSaturateMin
  refine ⟨_, frame.evalAll [a.slot, b.slot], htoned, ?_, ?_, ?_⟩
  · rw [call, dispatch_standard hinit hspec parse_saturate,
      saturate_apply hstocked hargs hp hgamma hnumber]
    rfl
  · exact Frame.cached?_evalAll List.mem_cons_self (Argument.outcome_slot hp)
  · exact fun i => frame.outcome_evalAll i

/-- **Pixels have places of their own**, in every image that a variable of a session holds, and
tone-mapping an image as a builtin leaves the image alone on every engine on which `init1` has
succeeded. -/
theorem pixel_addressing (config : Config) (events : List Event)
    (hinit : (run { config := config } events).initialized = true) (clock : Float)
    (memory : Memory) (files : Tree) :
    (∀ (s : Session) (var : String) (v : Value) (image : ColorImage), s.valueOf? var = some v →
      v.payload = .colorImage image → s.Addresses var v image) ∧
    SaturatesCopy (run { config := config } events) clock memory files :=
  ⟨fun _ _ _ _ hv himage => Session.addresses hv himage, saturatesCopy hinit clock memory files⟩

/-- An image of three columns and two rows in a session, and an engine on which nothing but `init1`
has happened. -/
theorem pixel_addressing_init1 :
    let image := ColorImage.plain 3 2 {}
    let s : Session := Session.setVariable {} "a" (.owned (.colorImage image))
    (run {} [.signal .init1]).initialized = true ∧
      s.valueOf? "a" = some (.owned (.colorImage image)) ∧
      s.Addresses "a" (.owned (.colorImage image)) image ∧
      SaturatesCopy (run {} [.signal .init1]) 0 .usual {} := by
  intro image s
  have hlaws := pixel_addressing {} [.signal .init1] initialized_run_init1 0 .usual {}
  exact ⟨initialized_run_init1, rfl, hlaws.1 s "a" _ image rfl rfl, hlaws.2⟩

end Engine

end SceneScript
