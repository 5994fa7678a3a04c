/-
SceneScript.Proofs.DimensionTheorems — images of the dimensions that are asked for.

An image is asked for with two numbers, and a number is a dimension if it is a natural
number exactly (`natural?_eq_some_iff`). A dimension that is too large for a size is
the largest size; but then there is no image unless the other is zero
(`cut_product_le_iff`), and so the pixels that are asked for can be addressed exactly
if those that are made can.

`image_creation` says so of every engine on which `init1` has succeeded, as long as the
machine has room for what can be addressed: which numbers give an image, and that each
of its pixels has the color that was asked for.
-/
import SceneScript.Proofs.ImageTheorems
import SceneScript.Proofs.RenderTheorems

namespace SceneScript

namespace Number

/-! ## §1 Dimensions -/

/-- A quotient comes out even if its value is a natural number. -/
theorem Ratio.comes_out_iff (r : Ratio) (n : Nat) :
    r.num % r.den = 0 ∧ r.num / r.den = n ↔ r.value = n := by
  have hvalue : r.value = n ↔ r.num = n * r.den := by
    rw [Ratio.value, div_eq_iff r.den_cast_pos.ne']
    exact_mod_cast Iff.rfl
  rw [hvalue]
  constructor
  · rintro ⟨hmod, rfl⟩
    exact (Nat.div_mul_cancel (Nat.dvd_of_mod_eq_zero hmod)).symm
  · intro hnum
    rw [hnum]
    exact ⟨Nat.mul_mod_left _ _, Nat.mul_div_cancel _ r.den_pos⟩

/-- **A double is a natural number** if that is its exact value. -/
theorem natural?_eq_some_iff {x : Float} {n : Nat} :
    natural? x = some n ↔ exactValue? x = some (n : ℚ) := by
  cases hx : Binary.ofFloat x with
  | nan => simp [natural?, exactValue?, hx]
  | infinite negative => simp [natural?, exactValue?, hx]
  | finite negative significand exponent =>
    have hzero : significand = 0 ↔ (magnitude significand exponent).value = 0 := by
      rw [value_magnitude]
      simp [zpow_ne_zero]
    rw [exactValue?_of_finite hx, natural?, hx]
    dsimp only
    rw [Option.ite_none_right_eq_some, Option.some.injEq, Option.some.injEq, hzero]
    generalize magnitude significand exponent = r
    cases negative with
    | false =>
      rw [or_iff_left_of_imp fun _ => rfl, and_iff_left rfl]
      exact r.comes_out_iff n
    | true =>
      have hnonneg := r.value_nonneg
      have hn : (0 : ℚ) ≤ n := Nat.cast_nonneg n
      rw [or_iff_right Bool.noConfusion, and_right_comm, r.comes_out_iff, signed, if_pos rfl]
      constructor
      · rintro ⟨hr, hzero⟩
        rw [← hr, hzero, neg_zero]
      · intro hr
        have hzero : r.value = 0 := by linarith
        exact ⟨by linarith, hzero⟩

end Number

/-- From the largest size on, what is not zero times as many cannot be addressed. -/
theorem not_addressed_of_maxSize_le {m n : Nat} (hm : maxSize ≤ m) (hn : 0 < n) :
    ¬ m * n * colorBytes ≤ addressLimit := by
  have hle : maxSize ≤ m * n := hm.trans (Nat.le_mul_of_pos_right m hn)
  simp only [maxSize, sizeLimit] at hle
  simp only [colorBytes, addressLimit]
  omega

/-- Dimensions can be cut to the largest size without giving pixels that can be addressed for pixels
that cannot. -/
theorem cut_product_le_iff (m n : Nat) :
    min m maxSize * min n maxSize * colorBytes ≤ addressLimit ↔
      m * n * colorBytes ≤ addressLimit := by
  have hmax : 0 < maxSize := by decide
  rcases Nat.eq_zero_or_pos m with rfl | hm
  · simp
  rcases Nat.eq_zero_or_pos n with rfl | hn
  · simp
  rcases le_or_gt maxSize m with hlarge | hsmall
  · rw [min_eq_right hlarge]
    exact iff_of_false (not_addressed_of_maxSize_le le_rfl (lt_min hn hmax))
      (not_addressed_of_maxSize_le hlarge hn)
  rcases le_or_gt maxSize n with hlarge' | hsmall'
  · rw [min_eq_right hlarge', mul_comm m n, mul_comm (min m maxSize)]
    exact iff_of_false (not_addressed_of_maxSize_le le_rfl (lt_min hm hmax))
      (not_addressed_of_maxSize_le hlarge' hm)
  · rw [min_eq_left hsmall.le, min_eq_left hsmall'.le]

/-! ## §2 Images of one color -/

namespace ColorImage

theorem pixel?_plain {width height x y : Nat} (fill : Color) (hx : x < width) (hy : y < height) :
    (plain width height fill).pixel? x y = some fill := by
  have hinside : x < (plain width height fill).width := hx
  have hplace : y * width + x < width * height :=
    (index_lt_size hinside hy).trans_eq Array.size_replicate
  unfold pixel?
  rw [index?_eq_some_iff.mpr ⟨⟨hx, hy⟩, rfl⟩]
  simp [plain, hplace]

end ColorImage

namespace Standard

open Number

variable {host : Host} {signature : Signature} {args : Arguments} {w h c : Argument}
  {frame : Frame} {pw ph : Payload} {x y : Float} {fill : Color}

/-- What making an image comes to. -/
def imageOf (memory : Memory) (x y : Float) (fill : Color) : Except Error ColorImage :=
  match dimension imageName x with
  | .error e => .error e
  | .ok width =>
    match dimension imageName y with
    | .error e => .error e
    | .ok height => ColorImage.resized memory width height fill

theorem createImage_fst (hstocked : host.types.Stocked) (hargs : args.items = [w, h, c])
    (hw : w.outcome frame = .ok pw) (hx : pw.toNumber? = some x)
    (hh : h.outcome frame = .ok ph) (hy : ph.toNumber? = some y)
    (hc : c.outcome frame = .ok (.color fill)) :
    (createImage host signature args frame).1 =
      ((imageOf host.memory x y fill).mapError .error).map fun image =>
        .payload (.colorImage image) := by
  have hcount : checkCount signature args 3 = attempt (.ok ()) :=
    checkCount_of_length (by simp [hargs])
  have hargw : args.items[0]? = some w := by simp [hargs]
  have hargh : args.items[1]? = some h := by simp [hargs]
  have hargc : args.items[2]? = some c := by simp [hargs]
  rw [createImage, hcount, attempt_ok_bind, bind_apply, number_apply hargw hw hx]
  unfold imageOf
  dsimp only
  cases hwidth : dimension imageName x with
  | error e => rfl
  | ok width =>
    rw [attempt_ok_bind, bind_apply,
      number_apply hargh (by rw [Argument.outcome_eval, hh]) hy]
    dsimp only
    cases hheight : dimension imageName y with
    | error e => rfl
    | ok height =>
      obtain ⟨a, hbuild⟩ := build_eq .colorImage
        (fun _ => attempt (ColorImage.resized host.memory width height fill)) hstocked (by decide)
      have hcolor : c.outcome ((frame.eval w.slot).2.eval h.slot).2 =
          .ok (Form.color.wrap fill) := by
        rw [Argument.outcome_eval, Argument.outcome_eval, hc]
        rfl
      rw [attempt_ok_bind, bind_apply, content_apply .color hargc hcolor]
      dsimp only
      rw [hbuild, bind_apply]
      cases ColorImage.resized host.memory width height fill <;> rfl

theorem dimension_eq_ok_iff {caller : String} {width : Nat} : dimension caller x = .ok width ↔
    ∃ m : Nat, exactValue? x = some (m : ℚ) ∧ width = min m maxSize := by
  unfold dimension
  cases hnatural : natural? x with
  | none =>
    simp only [reduceCtorEq, false_iff]
    rintro ⟨m, hm, -⟩
    rw [natural?_eq_some_iff.mpr hm] at hnatural
    cases hnatural
  | some m =>
    have hm := natural?_eq_some_iff.mp hnatural
    simp only [Except.ok.injEq, hm, Option.some.injEq, Nat.cast_inj, eq_comm]
    simp

/-- An image is made if the two numbers are dimensions of pixels that can be addressed. -/
theorem imageOf_eq_ok_iff {memory : Memory}
    (hgrants : ∀ count, count * colorBytes ≤ addressLimit → memory.grants count = true)
    {image : ColorImage} : imageOf memory x y fill = .ok image ↔
      ∃ m n : Nat, exactValue? x = some (m : ℚ) ∧ exactValue? y = some (n : ℚ) ∧
        m * n * colorBytes ≤ addressLimit ∧
        image = ColorImage.plain (min m maxSize) (min n maxSize) fill := by
  have hfits (m n : Nat) : memory.Fits (min m maxSize * min n maxSize) ↔
      m * n * colorBytes ≤ addressLimit := by
    rw [← cut_product_le_iff]
    exact ⟨fun h => h.1, fun h => ⟨h, hgrants _ h⟩⟩
  constructor
  · intro h
    unfold imageOf at h
    cases hwidth : dimension imageName x with
    | error e => simp [hwidth] at h
    | ok width =>
      cases hheight : dimension imageName y with
      | error e => simp [hwidth, hheight] at h
      | ok height =>
        simp only [hwidth, hheight] at h
        obtain ⟨m, hm, rfl⟩ := dimension_eq_ok_iff.mp hwidth
        obtain ⟨n, hn, rfl⟩ := dimension_eq_ok_iff.mp hheight
        obtain ⟨hroom, himage⟩ := ColorImage.resized_eq_ok_iff.mp h
        exact ⟨m, n, hm, hn, (hfits m n).mp hroom, himage⟩
  · rintro ⟨m, n, hm, hn, hroom, himage⟩
    unfold imageOf
    rw [dimension_eq_ok_iff.mpr ⟨m, hm, rfl⟩, dimension_eq_ok_iff.mpr ⟨n, hn, rfl⟩]
    exact ColorImage.resized_eq_ok_iff.mpr ⟨(hfits m n).mpr hroom, himage⟩

/-- Everything else is objected to. -/
theorem imageOf_fails {memory : Memory} {e : Error} (h : imageOf memory x y fill = .error e) :
    ∃ name objection, e = .invalidArgument name objection := by
  have hdimension {x : Float} {e : Error} (h : dimension imageName x = .error e) :
      ∃ name objection, e = .invalidArgument name objection := by
    unfold dimension at h
    split at h <;> cases h
    exact ⟨_, _, rfl⟩
  unfold imageOf at h
  split at h
  · next hwidth =>
    cases h
    exact hdimension hwidth
  · split at h
    · next hheight =>
      cases h
      exact hdimension hheight
    · obtain ⟨objection, rfl⟩ := resized_fails h
      exact ⟨_, _, rfl⟩

end Standard

namespace Engine

open Number Standard

/-! ## §3 Calls -/

theorem parse_createImage :
    Signature.parse "color_image create_image( num width, num height, color fill )" =
      .ok ⟨some "color_image", "create_image",
        [⟨"num", "width"⟩, ⟨"num", "height"⟩, ⟨"color", "fill"⟩]⟩ := by
  decide

/-- What comes of asking for an image on an engine, wherever the numbers and the color come from. -/
def CreatesImage (engine : Engine) (clock : Float) (memory : Memory) (files : Tree) (x y : Float)
    (fill : Color) (answer : Except Failure Value) : Prop :=
  ∀ args frame w h c pw ph, args.items = [w, h, c] →
    w.outcome frame = .ok pw → pw.toNumber? = some x →
    h.outcome frame = .ok ph → ph.toNumber? = some y → c.outcome frame = .ok (.color fill) →
    (engine.call clock memory "create_image" args frame files).1 = answer

/-- What asking for an image comes to. -/
structure ImageMade (x y : Float) (fill : Color) (answer : Except Failure Value) : Prop where
  /-- There is an image if both numbers are natural and the pixels can be addressed. -/
  succeeds_iff : (∃ v, answer = .ok v) ↔ ∃ m n : Nat, exactValue? x = some (m : ℚ) ∧
    exactValue? y = some (n : ℚ) ∧ m * n * 24 ≤ 2 ^ 63 - 1
  /-- It is of one color, and of the dimensions that were asked for unless one of these is beyond
  every size. -/
  image : ∀ v (m n : Nat), answer = .ok v → exactValue? x = some (m : ℚ) →
    exactValue? y = some (n : ℚ) → ∃ image : ColorImage, v = .owned (.colorImage image) ∧
      (∀ i j, i < image.width → j < image.height → image.pixel? i j = some fill) ∧
      image.width = min m (2 ^ 64 - 1) ∧ image.height = min n (2 ^ 64 - 1) ∧
      (image.width = m ∧ image.height = n ↔ m < 2 ^ 64 ∧ n < 2 ^ 64)
  refused : ∀ failure, answer = .error failure →
    ∃ name objection, failure = .error (.invalidArgument name objection)

variable {config : Config} {events : List Event} {memory : Memory} {x y : Float} {fill : Color}

/-- What is made, as the answer of a call. -/
def imageAnswer (memory : Memory) (x y : Float) (fill : Color) : Except Failure Value :=
  match imageOf memory x y fill with
  | .ok image => .ok (.owned (.colorImage image))
  | .error e => .error (.error e)

theorem createsImage_imageAnswer (hinit : (run { config := config } events).initialized = true)
    (clock : Float) (memory : Memory) (files : Tree) (x y : Float) (fill : Color) :
    CreatesImage (run { config := config } events) clock memory files x y fill
      (imageAnswer memory x y fill) := by
  intro args frame w h c pw ph hargs hw hx hh hy hc
  have hspec : ⟨"color_image create_image( num width, num height, color fill )", createImage⟩ ∈
      specs := by
    simp [specs, imageSpecs]
  have hstocked := ((sound_run config events).complete hinit).stocked
  rw [call_standard hinit hspec parse_createImage,
    createImage_fst hstocked hargs hw hx hh hy hc]
  unfold imageAnswer
  show (((((imageOf memory x y fill).mapError Failure.error).map _).mapError _).map _) = _
  cases himage : imageOf memory x y fill with
  | ok image => rfl
  | error e =>
    obtain ⟨name, objection, rfl⟩ := imageOf_fails himage
    rfl

theorem imageMade_imageAnswer
    (hgrants : ∀ count, count * 24 ≤ 2 ^ 63 - 1 → memory.grants count = true) :
    ImageMade x y fill (imageAnswer memory x y fill) := by
  have hok {v : Value} : imageAnswer memory x y fill = .ok v ↔
      ∃ image, imageOf memory x y fill = .ok image ∧ v = .owned (.colorImage image) := by
    unfold imageAnswer
    cases imageOf memory x y fill <;> simp [eq_comm]
  constructor
  case succeeds_iff =>
    simp only [hok, imageOf_eq_ok_iff hgrants]
    constructor
    · rintro ⟨v, image, ⟨m, n, hm, hn, hroom, -⟩, -⟩
      exact ⟨m, n, hm, hn, hroom⟩
    · rintro ⟨m, n, hm, hn, hroom⟩
      exact ⟨_, _, ⟨m, n, hm, hn, hroom, rfl⟩, rfl⟩
  case image =>
    intro v m n hv hm hn
    obtain ⟨image, himage, rfl⟩ := hok.mp hv
    obtain ⟨m', n', hm', hn', -, rfl⟩ := (imageOf_eq_ok_iff hgrants).mp himage
    obtain rfl : m' = m := by
      rw [hm', Option.some.injEq] at hm
      exact_mod_cast hm
    obtain rfl : n' = n := by
      rw [hn', Option.some.injEq] at hn
      exact_mod_cast hn
    refine ⟨_, rfl, fun i j => ColorImage.pixel?_plain fill, rfl, rfl, ?_⟩
    show min m' maxSize = m' ∧ min n' maxSize = n' ↔ _
    simp only [maxSize, sizeLimit]
    omega
  case refused =>
    intro failure hfailure
    unfold imageAnswer at hfailure
    split at hfailure
    · cases hfailure
    · next himage =>
      cases hfailure
      obtain ⟨name, objection, rfl⟩ := imageOf_fails himage
      exact ⟨name, objection, rfl⟩

/-- **Images are made of natural dimensions** whose pixels can be addressed, on every engine on
which `init1` has succeeded and on every machine that has room for them. -/
theorem image_creation (config : Config) (events : List Event)
    (hinit : (run { config := config } events).initialized = true) (clock : Float)
    (memory : Memory) (files : Tree)
    (hgrants : ∀ count, count * 24 ≤ 2 ^ 63 - 1 → memory.grants count = true) (x y : Float)
    (fill : Color) :
    ∃ answer, CreatesImage (run { config := config } events) clock memory files x y fill answer ∧
      ImageMade x y fill answer :=
  ⟨_, createsImage_imageAnswer hinit clock memory files x y fill, imageMade_imageAnswer hgrants⟩

/-- A machine without limits, and a height that is no whole number. -/
theorem image_creation_fraction :
    (run {} [.signal .init1]).initialized = true ∧
      (∀ count, count * 24 ≤ 2 ^ 63 - 1 → (⟨fun _ => true⟩ : Memory).grants count = true) ∧
      ∃ answer, CreatesImage (run {} [.signal .init1]) 0 ⟨fun _ => true⟩ {}
          (Float.ofBits 0x4000000000000000) (Float.ofBits 0x3fe0000000000000) {} answer ∧
        ImageMade (Float.ofBits 0x4000000000000000) (Float.ofBits 0x3fe0000000000000) {} answer :=
  ⟨initialized_run_init1, fun _ _ => rfl,
    image_creation {} [.signal .init1] initialized_run_init1 0 ⟨fun _ => true⟩ {} (fun _ _ => rfl)
      _ _ {}⟩

/-- `2 ^ 64` columns and no rows: the number of columns is not the one that was asked for. -/
theorem image_beyond_size :
    let x := Float.ofBits 0x43f0000000000000
    let answer := ((run {} [.signal .init1]).call 0 ⟨fun _ => true⟩ "create_image" (.positional 3)
      ⟨[.ready (.number x), .ready (.number 0), .ready (.color {})]⟩ {}).1
    exactValue? x = some ((2 ^ 64 : Nat) : ℚ) ∧
      ∃ image : ColorImage, answer = .ok (.owned (.colorImage image)) ∧
        image.width = 2 ^ 64 - 1 ∧ image.height = 0 := by
  intro x answer
  have hx : exactValue? x = some ((2 ^ 64 : Nat) : ℚ) :=
    natural?_eq_some_iff.mp (by decide +kernel)
  have hy : exactValue? 0 = some ((0 : Nat) : ℚ) := natural?_eq_some_iff.mp (by decide +kernel)
  have himage : imageOf ⟨fun _ => true⟩ x 0 {} = .ok (ColorImage.plain (2 ^ 64 - 1) 0 {}) :=
    (imageOf_eq_ok_iff fun _ _ => rfl).mpr ⟨_, _, hx, hy, by decide, rfl⟩
  refine ⟨hx, ColorImage.plain (2 ^ 64 - 1) 0 {}, ?_, rfl, rfl⟩
  have hcall := createsImage_imageAnswer initialized_run_init1 0 ⟨fun _ => true⟩ {} x 0 {}
    (.positional 3) ⟨[.ready (.number x), .ready (.number 0), .ready (.color {})]⟩ ⟨0, none⟩
    ⟨1, none⟩ ⟨2, none⟩ (.number x) (.number 0) rfl rfl rfl rfl rfl rfl
  rw [imageAnswer, himage] at hcall
  exact hcall

end Engine

end SceneScript
