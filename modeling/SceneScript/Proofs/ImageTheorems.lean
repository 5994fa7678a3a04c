/-
SceneScript.Proofs.ImageTheorems — images keep their dimensions and their buffer together.

A buffer of colors is made when its size can be addressed and the machine has room
for it (`Memory.Fits`), and then it is as long as asked for and of one color;
that is all that a resize can come to, and one that fails leaves everything as it
was (`WholeOrNothing`). So an image that came from resizes never has more
pixels than can be addressed (`ColorImage.Addressable`). Changing pixels,
tone-mapping, copying and cloning do not change that, one step at a time
(`Session.step_imagesAddressable`), and neither does a run of such steps, in which
the machine may grant and refuse as it likes (`Session.afterSteps_imagesAddressable`).

`Session.images_sound` reads off what a script relies on: as many pixels as the
dimensions say, counted without a wrap, and a place in the buffer for exactly the
coordinates inside. The resizes of rows and images are all or nothing in every
session, `Session.Resizes`.
-/
import SceneScript.Proofs.SessionTheorems

namespace SceneScript

/-! ## §1 Buffers -/

/-- So many colors can be addressed, and the machine has room for them. -/
def Memory.Fits (memory : Memory) (count : Nat) : Prop :=
  count * colorBytes ≤ addressLimit ∧ memory.grants count = true

theorem filled_eq_ok_iff {memory : Memory} {count : Nat} {fill : Color} {data : Array Color} :
    filled memory count fill = .ok data ↔
      memory.Fits count ∧ data = Array.replicate count fill := by
  unfold filled Memory.Fits
  split
  · next hfar =>
    have hnot : ¬ count * colorBytes ≤ addressLimit := by omega
    simp [hnot]
  · next hnear =>
    have haddressed : count * colorBytes ≤ addressLimit := by omega
    split
    · next hgranted => simp [haddressed, hgranted, eq_comm]
    · next hrefused => simp [hrefused]

theorem not_fits_of_filled {memory : Memory} {count : Nat} {fill : Color} {objection : Objection}
    (h : filled memory count fill = .error objection) : ¬ memory.Fits count := by
  intro hfits
  rw [filled_eq_ok_iff.mpr ⟨hfits, rfl⟩] at h
  cases h

theorem lt_sizeLimit_of_addressed {count : Nat} (h : count * colorBytes ≤ addressLimit) :
    count < sizeLimit := by
  simp only [colorBytes, addressLimit] at h
  simp only [sizeLimit]
  omega

/-- The row of the given size and color. -/
def ColorRow.plain (count : Nat) (fill : Color) : ColorRow := ⟨Array.replicate count fill⟩

/-- The image of the given dimensions and color. -/
def ColorImage.plain (width height : Nat) (fill : Color) : ColorImage :=
  ⟨width, height, Array.replicate (width * height) fill, Array.size_replicate⟩

/-- What an operation in place comes to that asks for room: it leaves the whole of what is wanted,
or it reports an error and leaves everything as it was. -/
inductive WholeOrNothing {α : Type} (room : Prop) (old new : α) : Except Error Unit × α → Prop
  | whole (h : room) : WholeOrNothing room old new (.ok (), new)
  | nothing (h : ¬ room) (e : Error) : WholeOrNothing room old new (.error e, old)

/-- A row is resized if there is room, and then nothing of the old one is left. -/
theorem ColorRow.wholeOrNothing_setSize (memory : Memory) (count : Nat) (fill : Color)
    (row : ColorRow) :
    WholeOrNothing (memory.Fits count) row (plain count fill) (row.setSize memory count fill) := by
  unfold setSize
  split
  · next hfilled =>
    obtain ⟨hfits, rfl⟩ := filled_eq_ok_iff.mp hfilled
    exact .whole hfits
  · next hfilled => exact .nothing (not_fits_of_filled hfilled) _

/-- An image is resized if there is room, and then nothing of the old one is left. -/
theorem ColorImage.wholeOrNothing_setSize (memory : Memory) (width height : Nat) (fill : Color)
    (image : ColorImage) :
    WholeOrNothing (memory.Fits (width * height)) image (plain width height fill)
      (image.setSize memory width height fill) := by
  unfold setSize
  split
  · next hlarge =>
    refine .nothing (fun hfits => ?_) _
    have := lt_sizeLimit_of_addressed hfits.1
    omega
  · split
    · next hfilled =>
      obtain ⟨hfits, rfl⟩ := filled_eq_ok_iff.mp hfilled
      exact .whole hfits
    · next hfilled => exact .nothing (not_fits_of_filled hfilled) _

theorem ColorImage.resized_eq_ok_iff {memory : Memory} {width height : Nat} {fill : Color}
    {image : ColorImage} :
    ColorImage.resized memory width height fill = .ok image ↔
      memory.Fits (width * height) ∧ image = ColorImage.plain width height fill := by
  have hcases := wholeOrNothing_setSize memory width height fill empty
  unfold resized
  generalize empty.setSize memory width height fill = result at hcases
  cases hcases with
  | whole hfits => simp [madeBy, hfits, eq_comm]
  | nothing hfull e => simp [madeBy, hfull]

/-! ## §2 Places in the buffer -/

namespace ColorImage

variable {image : ColorImage} {x y : Nat}

/-- The pixels of the image can be addressed. -/
def Addressable (image : ColorImage) : Prop := image.size * colorBytes ≤ addressLimit

/-- What a script relies on: the buffer has the size that the dimensions give, a count that does
not wrap, and there is a pixel for exactly the coordinates inside, at a place that is computed
without a wrap and is in the buffer. -/
structure Sound (image : ColorImage) : Prop where
  size_eq : image.size = image.width * image.height
  countable : image.width * image.height < sizeLimit
  pixel : ∀ x y, (image.pixel? x y).isSome ↔ x < image.width ∧ y < image.height
  place : ∀ x y, x < image.width → y < image.height →
    image.index? x y = some (y * image.width + x) ∧
    y * image.width < sizeLimit ∧ y * image.width + x < sizeLimit ∧
    y * image.width + x < image.size

/-- The rows before the pixel and the pixels before it in its row are fewer than all. -/
theorem index_lt_size (hx : x < image.width) (hy : y < image.height) :
    y * image.width + x < image.size := by
  have hsize : image.size = image.width * image.height := image.size_eq
  calc y * image.width + x
      < y * image.width + image.width := by omega
    _ = (y + 1) * image.width := by rw [Nat.add_mul, Nat.one_mul]
    _ ≤ image.height * image.width := Nat.mul_le_mul_right _ hy
    _ = image.size := by rw [hsize, Nat.mul_comm]

theorem index?_eq_some_iff {i : Nat} :
    image.index? x y = some i ↔ (x < image.width ∧ y < image.height) ∧ i = y * image.width + x := by
  unfold index?
  split
  · next hinside => simp [hinside, eq_comm]
  · next houtside => simp [houtside]

theorem isSome_pixel?_iff : (image.pixel? x y).isSome ↔ x < image.width ∧ y < image.height := by
  unfold pixel? index?
  split
  · next hinside =>
    have hplace : y * image.width + x < image.data.size := index_lt_size hinside.1 hinside.2
    simp [hinside, hplace]
  · next houtside => simp [houtside]

theorem Addressable.sound (h : image.Addressable) : image.Sound where
  size_eq := image.size_eq
  countable := by
    have hsize : image.size = image.width * image.height := image.size_eq
    rw [← hsize]
    exact lt_sizeLimit_of_addressed h
  pixel _ _ := isSome_pixel?_iff
  place x y hx hy := by
    have hplace := index_lt_size hx hy
    have hcountable := lt_sizeLimit_of_addressed h
    refine ⟨index?_eq_some_iff.mpr ⟨⟨hx, hy⟩, rfl⟩, ?_, ?_, hplace⟩ <;> omega

theorem addressable_default : Addressable {} := by
  show 0 * colorBytes ≤ addressLimit
  decide

theorem addressable_plain {memory : Memory} {width height : Nat} (fill : Color)
    (h : memory.Fits (width * height)) : (plain width height fill).Addressable := by
  show (Array.replicate (width * height) fill).size * colorBytes ≤ addressLimit
  rw [Array.size_replicate]
  exact h.1

theorem Addressable.setPixel (h : image.Addressable) (x y : Nat) (c : Color) :
    (image.setPixel x y c).2.Addressable := by
  unfold ColorImage.setPixel
  split
  · next i _ =>
    show (image.data.setIfInBounds i c).size * colorBytes ≤ addressLimit
    rw [Array.size_setIfInBounds]
    exact h
  · exact h

theorem Addressable.setSize (h : image.Addressable) (memory : Memory) (width height : Nat)
    (fill : Color) : (image.setSize memory width height fill).2.Addressable := by
  have hcases := wholeOrNothing_setSize memory width height fill image
  generalize image.setSize memory width height fill = result at hcases
  cases hcases with
  | whole hfits => exact addressable_plain fill hfits
  | nothing _ e => exact h

theorem Addressable.saturate (h : image.Addressable) (gamma : Float) (parallelMin : Nat) :
    (image.saturate gamma parallelMin).Addressable := by
  show (mapHalves (·.saturate gamma) parallelMin image.data).size * colorBytes ≤ addressLimit
  rw [mapHalves_eq_map, Array.size_map]
  exact h

end ColorImage

/-! ## §3 Steps on images -/

/-- An image in the payload can be addressed. -/
def Payload.ImageAddressable (p : Payload) : Prop :=
  ∀ image, p = .colorImage image → image.Addressable

theorem Payload.ImageAddressable.assign {target source : Payload} (h : target.ImageAddressable)
    (hsource : source.ImageAddressable) : (target.assign source).2.ImageAddressable := by
  unfold Payload.assign
  split
  · exact hsource
  · exact h

/-- The step makes a default image or works on images that are there. -/
inductive Step.OnImages : Step → Prop
  | default (ownership : Ownership) (into : String) :
      OnImages (.set (.finished (.colorImage {})) ownership into)
  | resize (var : String) (width height : Nat) (fill : Color) :
      OnImages (.imageSetSize var width height fill)
  | setPixel (var : String) (x y : Nat) (c : Color) : OnImages (.setPixel var x y c)
  | saturate (var : String) (gamma : Float) (parallelMin : Nat) :
      OnImages (.saturate var gamma parallelMin)
  | assign (var source : String) : OnImages (.assign var source)
  | clone (var : String) (into : Option String) : OnImages (.clone var into)

namespace Session

variable {s : Session} {var : String} {v : Value}

/-- Every image in a variable can be addressed. -/
def ImagesAddressable (s : Session) : Prop :=
  ∀ var v, s.valueOf? var = some v → v.payload.ImageAddressable

theorem ImagesAddressable.setVariable (h : s.ImagesAddressable) (name : String)
    (hv : v.payload.ImageAddressable) : (s.setVariable name v).ImagesAddressable := by
  intro var v' hv'
  rw [valueOf?_setVariable] at hv'
  split at hv'
  · cases hv'
    exact hv
  · exact h var v' hv'

theorem ImagesAddressable.store (h : s.ImagesAddressable) (into : Option String)
    (hv : v.payload.ImageAddressable) : (s.store into v).ImagesAddressable := by
  cases into with
  | none => exact h
  | some name => exact h.setVariable name hv

theorem ImagesAddressable.change {β : Type} (h : s.ImagesAddressable)
    {op : ColorImage → β × ColorImage} {reply : β → Payload → Reply}
    (hop : ∀ image, image.Addressable → (op image).2.Addressable) :
    (s.change var .colorImage op reply).2.ImagesAddressable := by
  obtain ⟨v, image, hv, -, himage, hstep⟩ | ⟨-, r, -, hstep⟩ :=
    change_cases s var .colorImage op reply
  · rw [hstep]
    refine h.setVariable var ?_
    rintro _ ⟨⟩
    exact hop image (h var v hv image himage)
  · rw [hstep]
    exact h

/-- What one step preserves. -/
theorem step_imagesAddressable {step : Step} (hstep : step.OnImages) (h : s.ImagesAddressable) :
    (s.step step).2.ImagesAddressable := by
  cases hstep with
  | default ownership into =>
    refine h.setVariable into fun image himage => ?_
    cases himage
    exact ColorImage.addressable_default
  | resize var width height fill =>
    exact h.change fun _ himage => himage.setSize s.memory width height fill
  | setPixel var x y c => exact h.change fun _ himage => himage.setPixel x y c
  | saturate var gamma parallelMin => exact h.change fun _ himage => himage.saturate gamma parallelMin
  | assign var source =>
    simp only [Session.step]
    cases hsource : s.valueOf? source with
    | none => exact h
    | some v' =>
      obtain ⟨v, hv, -, hstep⟩ | ⟨r, -, hstep⟩ :=
        mutate_cases s var .noVariable (·.assign v'.payload) fun taken _ => .flag taken
      · simp only [hstep]
        exact h.setVariable var ((h var v hv).assign (h source v' hsource))
      · simp only [hstep]
        exact h
  | clone var into =>
    simp only [Session.step]
    cases hv : s.valueOf? var with
    | none => exact h
    | some v => exact h.store into (h var v hv)

/-! ## §4 Runs -/

/-- The session after some steps, each made while the machine has the given room. -/
def afterSteps (s : Session) (steps : List (Memory × Step)) : Session :=
  steps.foldl (fun s (memory, step) => ({ s with memory := memory }.step step).2) s

/-- What a run preserves. -/
theorem afterSteps_imagesAddressable {steps : List (Memory × Step)}
    (hsteps : ∀ x ∈ steps, x.2.OnImages) (h : s.ImagesAddressable) :
    (s.afterSteps steps).ImagesAddressable := by
  induction steps generalizing s with
  | nil => exact h
  | cons first rest ih =>
    obtain ⟨memory, step⟩ := first
    refine ih (fun x hx => hsteps x (List.mem_cons_of_mem _ hx)) ?_
    have hroom : { s with memory := memory }.ImagesAddressable := h
    exact step_imagesAddressable (hsteps _ List.mem_cons_self) hroom

/-- A variable holds a payload of a kind that may be changed, and there is room for so many
colors. -/
def Offers (s : Session) (var : String) (kind : Kind) (count : Nat) : Prop :=
  (∃ v, s.valueOf? var = some v ∧ v.ownership = .owned ∧ v.payload.kind = kind) ∧
  s.memory.Fits count

/-- A step puts a payload in the place of what a variable holds, whole; or, when the reason for
that is not given, it replies with an objection and nothing is different. -/
structure AllOrNothing (s : Session) (step : Step) (var : String) (reason : Prop) (p : Payload) :
    Prop where
  all : reason → ∃ v, s.valueOf? var = some v ∧
    s.step step = (.payload p, s.setVariable var (v.withPayload p))
  nothing : ¬ reason → ¬ (s.step step).1.Taken ∧ (s.step step).2 = s

/-- What resizes come to. -/
structure Resizes (s : Session) : Prop where
  row : ∀ var count fill,
    s.AllOrNothing (.rowSetSize var count fill) var (s.Offers var .colorRow count)
      (.colorRow (ColorRow.plain count fill))
  image : ∀ var width height fill,
    s.AllOrNothing (.imageSetSize var width height fill) var
      (s.Offers var .colorImage (width * height)) (.colorImage (ColorImage.plain width height fill))
  /-- It is the operations themselves that either put in place all of the new buffer or leave the
  old one as it was. -/
  row_setSize : ∀ (row : ColorRow) count fill,
    WholeOrNothing (s.memory.Fits count) row (.plain count fill) (row.setSize s.memory count fill)
  image_setSize : ∀ (image : ColorImage) width height fill,
    WholeOrNothing (s.memory.Fits (width * height)) image (.plain width height fill)
      (image.setSize s.memory width height fill)

/-- A step that works on a buffer in place, by an operation that asks for nothing but room. -/
theorem allOrNothing_change {α : Type} (s : Session) (form : Form α) {step : Step} {count : Nat}
    {new : α} {op : α → Except Error Unit × α} (hstep : s.step step = s.change var form op .ofOutcome)
    (hop : ∀ a, WholeOrNothing (s.memory.Fits count) a new (op a)) :
    s.AllOrNothing step var (s.Offers var form.kind count) (form.wrap new) := by
  obtain ⟨v, a, hv, howned, ha, hchange⟩ | ⟨hnever, r, hr, hsame⟩ :=
    change_cases s var form op .ofOutcome
  · have hkind : v.payload.kind = form.kind := (form.exists_wrap _).mpr ⟨a, ha⟩
    have hcases := hop a
    rw [hchange] at hstep
    generalize op a = result at hcases hstep
    cases hcases with
    | whole hfits =>
      refine ⟨fun _ => ⟨v, hv, hstep⟩, fun hrefused => ?_⟩
      exact absurd ⟨⟨v, hv, howned, hkind⟩, hfits⟩ hrefused
    | nothing hfull e =>
      refine ⟨fun hoffers => absurd hoffers.2 hfull, fun _ => ?_⟩
      rw [hstep]
      exact ⟨id, setVariable_of_left hv ha⟩
  · rw [hsame] at hstep
    refine ⟨?_, fun _ => hstep ▸ ⟨hr, rfl⟩⟩
    rintro ⟨⟨v, hv, howned, hkind⟩, -⟩
    exact absurd hkind (hnever v hv howned)

theorem resizes (s : Session) : s.Resizes where
  row _ count fill :=
    allOrNothing_change s .colorRow rfl (ColorRow.wholeOrNothing_setSize s.memory count fill)
  image _ width height fill :=
    allOrNothing_change s .colorImage rfl
      (ColorImage.wholeOrNothing_setSize s.memory width height fill)
  row_setSize row count fill := ColorRow.wholeOrNothing_setSize s.memory count fill row
  image_setSize image width height fill :=
    ColorImage.wholeOrNothing_setSize s.memory width height fill image

/-- **Images are sound** after any steps on images in a session that began without any, and a
resize is all or nothing then. -/
theorem images_sound (s : Session) (steps : List (Memory × Step))
    (hstart : ∀ var v, s.valueOf? var = some v → v.payload.kind ≠ .colorImage)
    (hsteps : ∀ x ∈ steps, x.2.OnImages) :
    (∀ var v image, (s.afterSteps steps).valueOf? var = some v →
      v.payload = .colorImage image → image.Sound) ∧
    ∀ memory, { s.afterSteps steps with memory := memory }.Resizes := by
  refine ⟨fun var v image hv himage => ?_, fun memory => resizes _⟩
  have hnone : s.ImagesAddressable := by
    intro var v hv image himage
    refine absurd ?_ (hstart var v hv)
    rw [himage]
    rfl
  exact (afterSteps_imagesAddressable hsteps hnone var v hv image himage).sound

/-- An image of two pixels that is refused a larger size twice, once for want of room. -/
theorem images_sound_refused :
    let gray : Color := ⟨0.5, 0.5, 0.5⟩
    let s := Session.afterSteps {}
      [(.usual, .set (.finished (.colorImage {})) .owned "a"),
        (.usual, .imageSetSize "a" 2 1 gray),
        (⟨fun _ => false⟩, .imageSetSize "a" 3 3 gray),
        (.usual, .imageSetSize "a" maxSize 2 gray)]
    s.valueOf? "a" = some (.owned (.colorImage (ColorImage.plain 2 1 gray))) ∧
      (ColorImage.plain 2 1 gray).Sound := by
  intro gray s
  have hvalue : s.valueOf? "a" = some (.owned (.colorImage (ColorImage.plain 2 1 gray))) := rfl
  refine ⟨hvalue, (images_sound {} _ ?_ ?_).1 "a" _ _ hvalue rfl⟩
  · simp [valueOf?]
  · simp only [List.forall_mem_cons]
    exact ⟨.default .., .resize .., .resize .., .resize .., by simp⟩

end Session

end SceneScript
