/-
SceneScript.Proofs.RadiusTheorems — which radii give a shape.

A radius is usable if it is a finite number and not zero (`Usable`); that is what
`isUnusableRadius` decides, for zeros of either sign (`isUnusableRadius_eq_true_iff`).
Making a shape looks at radii from the first on and objects to the first one that is not
usable (`Checks`): all radii of a quadric are looked at, but only the first radius of a
torus.

`radii_checked` says so of the six builtins that make shapes from radii, on every engine on
which `init1` has succeeded and for all arguments that come to numbers: when there is a
shape, when there is none, and which radius the message names.
-/
import SceneScript.Proofs.DimensionTheorems

namespace SceneScript

open Number

/-! ## §1 Usable radii -/

namespace Number

variable {x : Float}

/-- The doubles that are zero. -/
theorem exactValue?_eq_zero_iff : exactValue? x = some 0 ↔ x = 0 ∨ x = -0 := by
  constructor
  · intro h
    cases hbinary : Binary.ofFloat x with
    | nan => simp [exactValue?, hbinary] at h
    | infinite negative => simp [exactValue?, hbinary] at h
    | finite negative significand exponent =>
      rw [exactValue?_of_finite hbinary, Option.some.injEq, exact_eq_zero_iff] at h
      obtain ⟨-, -, -, hfull⟩ := canonical_of_finite hbinary
      obtain rfl : exponent = -1074 := hfull.resolve_right (by simp [h, exponentWeight])
      rw [← ofSignedBits_place hbinary, h]
      cases negative with
      | false => exact .inl (by decide)
      | true => exact .inr (by decide)
  · have hzero {negative : Bool} (hx : Binary.ofFloat x = .finite negative 0 (-1074)) :
        exactValue? x = some 0 := by
      rw [exactValue?_of_finite hx, exact_eq_zero_iff.mpr rfl]
    rintro (rfl | rfl)
    · exact @hzero false (by decide)
    · exact @hzero true (by decide)

theorem beq_zero_iff : (x == 0) = true ↔ exactValue? x = some 0 := by
  have hnan : (0 : Float) ≠ Float.nan := by decide
  rw [exactValue?_eq_zero_iff, Float.beq_iff_ne_nan_and_eq]
  constructor
  · rintro ⟨-, -, h | ⟨h, -⟩ | ⟨h, -⟩⟩
    · exact .inl h
    · exact .inl h
    · exact .inr h
  · rintro (rfl | rfl)
    · exact ⟨hnan, hnan, .inl rfl⟩
    · exact ⟨by decide, hnan, .inr (.inr ⟨rfl, rfl⟩)⟩

theorem isFinite_eq_true_iff : isFinite x = true ↔ ∃ q, exactValue? x = some q := by
  unfold isFinite exactValue?
  cases Binary.ofFloat x <;> simp

end Number

/-- A finite number that is not zero. -/
def Usable (radius : Float) : Prop := ∃ q, exactValue? radius = some q ∧ q ≠ 0

theorem isUnusableRadius_eq_true_iff {radius : Float} :
    isUnusableRadius radius = true ↔ ¬ Usable radius := by
  rw [isUnusableRadius, Bool.or_eq_true, beq_zero_iff, Bool.not_eq_true', ← Bool.not_eq_true,
    isFinite_eq_true_iff]
  unfold Usable
  cases exactValue? radius <;> simp

/-- Zero of either sign, an infinity, or no number. -/
theorem not_usable_iff {radius : Float} :
    ¬ Usable radius ↔ exactValue? radius = some 0 ∨ exactValue? radius = none := by
  unfold Usable
  cases exactValue? radius <;> simp

/-! ## §2 Looking at radii -/

/-- The radius is the first in the list that is not usable. -/
def FirstUnusable (radii : List Float) (radius : Float) : Prop :=
  ∃ before after, radii = before ++ radius :: after ∧ (∀ r ∈ before, Usable r) ∧ ¬ Usable radius

theorem FirstUnusable.mem {radii : List Float} {radius : Float} (h : FirstUnusable radii radius) :
    radius ∈ radii ∧ ¬ Usable radius := by
  obtain ⟨before, after, rfl, -, hradius⟩ := h
  exact ⟨List.mem_append_right _ List.mem_cons_self, hradius⟩

variable {α : Type} {objection : Float → Objection} {radius : Float} {radii : List Float}
  {made : Except Objection α}

/-- Something is made of usable radii, and there is an objection to the first that is not. -/
inductive Checks (objection : Float → Objection) (radii : List Float) : Except Objection α → Prop
  | made {a : α} (h : ∀ r ∈ radii, Usable r) : Checks objection radii (.ok a)
  | refused {radius : Float} (h : FirstUnusable radii radius) :
      Checks objection radii (.error (objection radius))

/-- One more radius is looked at first. -/
theorem Checks.cons (hradius : Usable radius) (h : Checks objection radii made) :
    Checks objection (radius :: radii) made := by
  cases h with
  | made hall => exact .made (List.forall_mem_cons.mpr ⟨hradius, hall⟩)
  | refused hfirst =>
    obtain ⟨before, after, rfl, hbefore, hnot⟩ := hfirst
    exact .refused ⟨radius :: before, after, rfl, List.forall_mem_cons.mpr ⟨hradius, hbefore⟩, hnot⟩

theorem Checks.head (hradius : ¬ Usable radius) :
    Checks objection (radius :: radii) (.error (objection radius) : Except Objection α) :=
  .refused ⟨[], radii, rfl, List.forall_mem_nil _, hradius⟩

namespace Squaroid

theorem checks_coefficient {next : Float → Except Objection α}
    (h : ∀ c, Checks .radius radii (next c)) :
    Checks .radius (radius :: radii) (coefficient radius >>= next) := by
  unfold coefficient
  split
  · next hunusable => exact .head (isUnusableRadius_eq_true_iff.mp hunusable)
  · next husable =>
    exact .cons (not_not.mp (mt isUnusableRadius_eq_true_iff.mpr husable)) (h _)

theorem checks_cylinder (rx ry : Float) : Checks .radius [rx, ry] (cylinder rx ry) :=
  checks_coefficient fun _ => checks_coefficient fun _ => .made (List.forall_mem_nil _)

theorem checks_ofRadii (make : Float → Float → Float → Squaroid) (rx ry rz : Float) :
    Checks .radius [rx, ry, rz] (ofRadii make rx ry rz) :=
  checks_coefficient fun _ => checks_coefficient fun _ => checks_coefficient fun _ =>
    .made (List.forall_mem_nil _)

end Squaroid

/-- A torus is made of any second radius. -/
theorem Torus.checks_ofRadii (radius1 radius2 margin : Float) :
    Checks .firstRadius [radius1] (ofRadii radius1 radius2 margin) := by
  unfold ofRadii
  split
  · next hunusable => exact .head (isUnusableRadius_eq_true_iff.mp hunusable)
  · next husable =>
    exact .cons (not_not.mp (mt isUnusableRadius_eq_true_iff.mpr husable))
      (.made (List.forall_mem_nil _))

/-! ## §3 The entries -/

namespace Standard

/-- An argument that comes to a number. -/
def ComesTo (frame : Frame) (arg : Argument) (x : Float) : Prop :=
  ∃ p, arg.outcome frame = .ok p ∧ p.toNumber? = some x

variable {β : Type} {host : Host} {signature : Signature} {args : Arguments} {arg : Argument}
  {frame : Frame} {x : Float} {caller : String} {rx ry rz : Float}

theorem ComesTo.eval (h : ComesTo frame arg x) (i : Nat) :
    ComesTo (frame.eval i).2 arg x := by
  obtain ⟨p, hp, hx⟩ := h
  exact ⟨p, by rw [Argument.outcome_eval, hp], hx⟩

theorem exists_pair {items : List Argument}
    (h : List.Forall₂ (ComesTo frame) items [rx, ry]) :
    ∃ a b, items = [a, b] ∧ ComesTo frame a rx ∧ ComesTo frame b ry := by
  obtain ⟨a, rest, ha, hrest, rfl⟩ := List.forall₂_cons_right_iff.mp h
  obtain ⟨b, rest', hb, hnil, rfl⟩ := List.forall₂_cons_right_iff.mp hrest
  obtain rfl := List.forall₂_nil_right_iff.mp hnil
  exact ⟨a, b, rfl, ha, hb⟩

/-- A number is asked for, and the rest goes on from the next frame. -/
theorem number_bind_apply {i : Nat} (harg : args.items[i]? = some arg) (h : ComesTo frame arg x)
    (k : Float → Call β) : (number args i >>= k) frame = k x (frame.eval arg.slot).2 := by
  obtain ⟨p, hp, hx⟩ := h
  rw [bind_apply, number_apply harg hp hx]

/-- What a builtin comes to that makes a shape. -/
def shapeAnswer (form : Form α) (caller : String) (made : Except Objection α) :
    Except Failure Answer :=
  match made with
  | .ok shape => .ok (.payload (form.wrap shape))
  | .error objection => .error (.error (.invalidArgument caller objection))

theorem shape_build_fst (form : Form α) (hstocked : host.types.Stocked)
    (hkind : form.kind.isHosted = false) (caller : String) (made : Except Objection α) (frame : Frame) :
    ((shape caller made >>= fun made => build form host fun _ => return made) frame).1 =
      shapeAnswer form caller made := by
  cases made with
  | error objection => rfl
  | ok shape =>
    obtain ⟨fresh, hbuild⟩ := build_eq form (fun _ => Pure.pure shape) hstocked hkind
    show ((build form host fun _ => Pure.pure shape) frame).1 = _
    rw [hbuild]
    rfl

theorem createCylinder_fst (hstocked : host.types.Stocked)
    (h : List.Forall₂ (ComesTo frame) args.items [rx, ry]) :
    (createCylinder host signature args frame).1 =
      shapeAnswer .squaroid "create_cylinder" (Squaroid.cylinder rx ry) := by
  obtain ⟨a, b, hargs, ha, hb⟩ := exists_pair h
  rw [createCylinder, checkCount_of_length (by simp [hargs]), attempt_ok_bind,
    number_bind_apply (by simp [hargs]) ha, number_bind_apply (by simp [hargs]) (hb.eval _)]
  exact shape_build_fst .squaroid hstocked (by decide) _ _ _

theorem createTorus_fst (hstocked : host.types.Stocked)
    (h : List.Forall₂ (ComesTo frame) args.items [rx, ry]) :
    (createTorus host signature args frame).1 =
      shapeAnswer .torus "create_torus" (Torus.ofRadii rx ry host.config.envelopeMargin) := by
  obtain ⟨a, b, hargs, ha, hb⟩ := exists_pair h
  rw [createTorus, checkCount_of_length (by simp [hargs]), attempt_ok_bind,
    number_bind_apply (by simp [hargs]) ha, number_bind_apply (by simp [hargs]) (hb.eval _)]
  exact shape_build_fst .torus hstocked (by decide) _ _ _

theorem quadric_fst (make : Float → Float → Float → Except Objection Squaroid)
    (hstocked : host.types.Stocked) (h : List.Forall₂ (ComesTo frame) args.items [rx, ry, rz]) :
    (quadric caller make host signature args frame).1 =
      shapeAnswer .squaroid caller (make rx ry rz) := by
  obtain ⟨a, rest, ha, hrest, hargs⟩ := List.forall₂_cons_right_iff.mp h
  obtain ⟨b, c, rfl, hb, hc⟩ := exists_pair hrest
  rw [quadric, checkCount_of_length (by simp [hargs]), attempt_ok_bind,
    number_bind_apply (by simp [hargs]) ha, number_bind_apply (by simp [hargs]) (hb.eval _),
    number_bind_apply (by simp [hargs]) ((hc.eval _).eval _)]
  exact shape_build_fst .squaroid hstocked (by decide) _ _ _

end Standard

/-! ## §4 Calls -/

namespace Engine

open Standard

/-- A builtin that makes shapes from radii. -/
structure Shaper where
  name : String
  /-- How many radii it takes. -/
  count : Nat
  /-- How many of them it looks at, from the first on. -/
  checked : Nat
  /-- What it calls a radius that it looks at. -/
  subject : String
  /-- What it makes. -/
  kind : Kind

/-- The builtins that make shapes from radii. -/
def shapers : List Shaper := [
  ⟨"create_cylinder", 2, 2, "radius", .squaroid⟩,
  ⟨"create_ellipsoid", 3, 3, "radius", .squaroid⟩,
  ⟨"create_hyperboloid1", 3, 3, "radius", .squaroid⟩,
  ⟨"create_hyperboloid2", 3, 3, "radius", .squaroid⟩,
  ⟨"create_cone", 3, 3, "radius", .squaroid⟩,
  ⟨"create_torus", 2, 1, "radius1", .torus⟩]

/-- What a call of the builtin on the radii comes to. -/
structure Shaper.Validates (b : Shaper) (radii : List Float) (answer : Except Failure Value) :
    Prop where
  /-- There is a shape if all radii that are looked at are usable. -/
  made_iff : (∃ v, answer = .ok v ∧ v.payload.kind = b.kind) ↔
    ∀ radius ∈ radii.take b.checked, Usable radius
  refused_iff : (∃ failure, answer = .error failure) ↔
    ∃ radius ∈ radii.take b.checked, exactValue? radius = some 0 ∨ exactValue? radius = none
  /-- The first radius that is not usable is objected to on behalf of the builtin. -/
  refusal : ∀ failure, answer = .error failure → ∃ radius objection,
    FirstUnusable (radii.take b.checked) radius ∧
    failure = .error (.invalidArgument b.name objection) ∧
    (Error.invalidArgument b.name objection).code = "C006" ∧
    (Error.invalidArgument b.name objection).message = "`" ++ b.name ++ "`: " ++
      (b.subject ++ " must be finite and non-zero, got " ++ plain radius)

/-- The call of the builtin on arguments that come to the radii, wherever these come from. -/
def Shaper.Makes (engine : Engine) (clock : Float) (memory : Memory) (files : Tree) (b : Shaper)
    (radii : List Float) : Prop :=
  ∀ args frame, List.Forall₂ (ComesTo frame) args.items radii →
    b.Validates radii (engine.call clock memory b.name args frame files).1

variable {config : Config} {events : List Event} {types : Registry} {files : Tree} {b : Shaper}

theorem Shaper.Validates.of_checks (form : Form α) (hkind : form.kind = b.kind)
    (hmessage : ∀ radius, (objection radius).message =
      b.subject ++ " must be finite and non-zero, got " ++ plain radius)
    (h : Checks objection (radii.take b.checked) made) :
    b.Validates radii (((shapeAnswer form b.name made).mapError (nameTypes types)).map fun answer =>
      (answer.settle files).1) := by
  cases h with
  | @made shape hall =>
    have hmade : (((shapeAnswer form b.name (.ok shape)).mapError (nameTypes types)).map
        fun answer => (answer.settle files).1) = .ok (.owned (form.wrap shape)) := rfl
    rw [hmade]
    constructor
    case made_iff => exact iff_of_true ⟨_, rfl, (form.kind_wrap shape).trans hkind⟩ hall
    case refused_iff =>
      refine iff_of_false (fun ⟨_, h⟩ => nomatch h) ?_
      rintro ⟨radius, hmem, hnot⟩
      exact not_usable_iff.mpr hnot (hall radius hmem)
    case refusal => exact nofun
  | @refused radius hfirst =>
    have hrefused : (((shapeAnswer form b.name
          (.error (objection radius) : Except Objection α)).mapError (nameTypes types)).map
            fun answer => (answer.settle files).1) =
        .error (.error (.invalidArgument b.name (objection radius))) := rfl
    obtain ⟨hmem, hnot⟩ := hfirst.mem
    rw [hrefused]
    constructor
    case made_iff => exact iff_of_false (fun ⟨_, h, _⟩ => nomatch h) fun hall => hnot (hall _ hmem)
    case refused_iff => exact iff_of_true ⟨_, rfl⟩ ⟨radius, hmem, not_usable_iff.mp hnot⟩
    case refusal =>
      intro failure hfailure
      cases hfailure
      refine ⟨radius, _, hfirst, rfl, rfl, ?_⟩
      show "`" ++ b.name ++ "`: " ++ (objection radius).message = _
      rw [hmessage]

theorem declares_createTorus :
    Declares "torus create_torus( num radius1, num radius2 )" fun s => s.name = "create_torus" :=
  .of_chars rfl (by decide)

theorem Shaper.Makes.of_entry {source : String} {entry : Entry} {clock : Float} {memory : Memory}
    (hinit : (run { config := config } events).initialized = true)
    (hspec : ⟨source, entry⟩ ∈ specs) (hdeclares : Declares source fun s => s.name = b.name)
    (form : Form α) (hkind : form.kind = b.kind)
    (hmessage : ∀ radius, (objection radius).message =
      b.subject ++ " must be finite and non-zero, got " ++ plain radius)
    (hchecks : Checks objection (radii.take b.checked) made)
    (hentry : ∀ signature args frame, List.Forall₂ (ComesTo frame) args.items radii →
      (entry ((run { config := config } events).host clock memory) signature args frame).1 =
        shapeAnswer form b.name made) :
    b.Makes (run { config := config } events) clock memory files radii := by
  intro args frame hcomes
  obtain ⟨signature, hparse, hname⟩ := hdeclares
  rw [← hname, call_standard hinit hspec hparse, hentry signature args frame hcomes]
  exact .of_checks form hkind hmessage hchecks

theorem mem_specs_of_object {spec : Spec} (h : spec ∈ objectSpecs) : spec ∈ specs := by
  simp [specs, h]

theorem quadric_makes (source : String) {name : String}
    (make : Float → Float → Float → Except Objection Squaroid)
    (hchecks : ∀ rx ry rz, Checks .radius [rx, ry, rz] (make rx ry rz))
    (hinit : (run { config := config } events).initialized = true)
    (hspec : ⟨source, quadric name make⟩ ∈ objectSpecs)
    (hdeclares : Declares source fun s => s.name = name) (clock : Float) (memory : Memory)
    (files : Tree) (hradii : radii.length = 3) :
    Shaper.Makes (run { config := config } events) clock memory files
      ⟨name, 3, 3, "radius", .squaroid⟩ radii := by
  obtain ⟨rx, ry, rz, rfl⟩ := List.length_eq_three.mp hradii
  exact .of_entry hinit (mem_specs_of_object hspec) hdeclares .squaroid rfl (fun _ => rfl)
    (hchecks rx ry rz) fun signature args frame =>
      quadric_fst make ((sound_run config events).complete hinit).stocked

/-- **Radii are looked at in their order** by the builtins that make shapes from them: all radii of
a quadric, but only the first radius of a torus. On every engine on which `init1` has succeeded,
there is a shape if the radii that are looked at are usable, and the first that is not is objected
to if there is one. -/
theorem radii_checked (config : Config) (events : List Event)
    (hinit : (run { config := config } events).initialized = true) (clock : Float)
    (memory : Memory) (files : Tree) :
    ∀ b ∈ shapers, ∀ radii : List Float, radii.length = b.count →
      b.Makes (run { config := config } events) clock memory files radii := by
  have hstocked := ((sound_run config events).complete hinit).stocked
  simp only [shapers, List.forall_mem_cons]
  refine ⟨?cylinder, ?ellipsoid, ?hyperboloid1, ?hyperboloid2, ?cone, ?torus,
    List.forall_mem_nil _⟩
  case cylinder =>
    intro radii hradii
    obtain ⟨rx, ry, rfl⟩ := List.length_eq_two.mp hradii
    have hspec : ⟨"squaroid create_cylinder( num radius_x, num radius_y )", createCylinder⟩ ∈
        specs := mem_specs_of_object (by simp [objectSpecs])
    exact .of_entry hinit hspec (.of_chars rfl (by decide)) .squaroid rfl (fun _ => rfl)
      (Squaroid.checks_cylinder rx ry) fun signature args frame => createCylinder_fst hstocked
  case torus =>
    intro radii hradii
    obtain ⟨radius1, radius2, rfl⟩ := List.length_eq_two.mp hradii
    exact .of_entry hinit (mem_specs_of_object (by simp [objectSpecs])) declares_createTorus
      .torus rfl (fun _ => rfl) (Torus.checks_ofRadii radius1 radius2 _) fun signature args frame =>
        createTorus_fst hstocked
  case ellipsoid =>
    exact fun radii => quadric_makes
      "squaroid create_ellipsoid( num radius_x, num radius_y, num radius_z )"
      Squaroid.ellipsoid (Squaroid.checks_ofRadii _) hinit (by simp [objectSpecs])
      (.of_chars rfl (by decide)) clock memory files
  case hyperboloid1 =>
    exact fun radii => quadric_makes
      "squaroid create_hyperboloid1( num radius_x, num radius_y, num radius_z )"
      Squaroid.hyperboloid1 (Squaroid.checks_ofRadii _) hinit (by simp [objectSpecs])
      (.of_chars rfl (by decide)) clock memory files
  case hyperboloid2 =>
    exact fun radii => quadric_makes
      "squaroid create_hyperboloid2( num radius_x, num radius_y, num radius_z )"
      Squaroid.hyperboloid2 (Squaroid.checks_ofRadii _) hinit (by simp [objectSpecs])
      (.of_chars rfl (by decide)) clock memory files
  case cone =>
    exact fun radii => quadric_makes
      "squaroid create_cone( num radius_x, num radius_y, num radius_z )"
      Squaroid.cone (Squaroid.checks_ofRadii _) hinit (by simp [objectSpecs])
      (.of_chars rfl (by decide)) clock memory files

/-- A double cone whose second radius is no number and whose third is zero. -/
theorem radii_checked_cone :
    (run {} [.signal .init1]).initialized = true ∧
      ⟨"create_cone", 3, 3, "radius", .squaroid⟩ ∈ shapers ∧ [1, Float.nan, 0].length = 3 ∧
      Shaper.Makes (run {} [.signal .init1]) 0 .usual {}
        ⟨"create_cone", 3, 3, "radius", .squaroid⟩ [1, Float.nan, 0] := by
  have hmem : ⟨"create_cone", 3, 3, "radius", .squaroid⟩ ∈ shapers := by
    simp [shapers]
  exact ⟨initialized_run_init1, hmem, rfl,
    radii_checked {} [.signal .init1] initialized_run_init1 0 .usual {} _ hmem _ rfl⟩

/-- Any second radius goes with a usable first radius. -/
theorem torus_of_usable (hinit : (run { config := config } events).initialized = true)
    (clock : Float) (memory : Memory) (files : Tree) {args : Arguments} {frame : Frame}
    {radius1 radius2 : Float} (husable : Usable radius1)
    (hcomes : List.Forall₂ (ComesTo frame) args.items [radius1, radius2]) :
    ∃ torus : Torus, ((run { config := config } events).call clock memory "create_torus" args frame
      files).1 = .ok (.owned (.torus torus)) := by
  have hstocked := ((sound_run config events).complete hinit).stocked
  have hspec : ⟨"torus create_torus( num radius1, num radius2 )", createTorus⟩ ∈ specs :=
    mem_specs_of_object (by simp [objectSpecs])
  obtain ⟨signature, hparse, hname⟩ := declares_createTorus
  have hcall := call_standard hinit hspec hparse clock memory args frame files
  have hradius : ¬ isUnusableRadius radius1 = true := fun hunusable =>
    isUnusableRadius_eq_true_iff.mp hunusable husable
  rw [hname, createTorus_fst hstocked hcomes, Torus.ofRadii, if_neg hradius] at hcall
  exact ⟨_, hcall⟩

/-- A torus whose tube has the radius zero is made. -/
theorem torus_without_tube :
    let answer := ((run {} [.signal .init1]).call 0 .usual "create_torus" (.positional 2)
      ⟨[.ready (.number 1), .ready (.number 0)]⟩ {}).1
    exactValue? 0 = some 0 ∧ ∃ torus : Torus, answer = .ok (.owned (.torus torus)) := by
  intro answer
  have husable : Usable 1 :=
    not_not.mp (mt isUnusableRadius_eq_true_iff.mpr (by decide))
  have hcomes : List.Forall₂ (ComesTo ⟨[.ready (.number 1), .ready (.number 0)]⟩)
      (Arguments.positional 2).items [1, 0] :=
    .cons ⟨.number 1, rfl, rfl⟩ (.cons ⟨.number 0, rfl, rfl⟩ .nil)
  exact ⟨exactValue?_eq_zero_iff.mpr (.inl rfl),
    torus_of_usable initialized_run_init1 0 .usual {} husable hcomes⟩

end Engine

end SceneScript
