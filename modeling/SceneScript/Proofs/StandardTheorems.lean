/-
SceneScript.Proofs.StandardTheorems — every standard builtin keeps to its signature.

A builtin conforms to its signature if it counts its arguments, reads them in
their declared ways and in their order, and then comes to nothing but what its
declaration allows (`Conforms`, `Allowed`). The entries are written in different
shapes: some have a value made first and fill it as they read, others look at one
argument before they ask for the next. Each shape has its lemma, and the tables of
builtins are gone through with these (`conforms_of_mem_specs`).

What makes values come out right is that the registry constructs the standard
types (`Registry.Stocked`); what builtins find in a fresh value is then of the
form they expect (`Pulls.build`).

Five builtins look at the clock or at files (`worldly`); the others do the same at
any time (`entry_clock`) and ask nothing of files (`result_ne_bool`).
-/
import SceneScript.Proofs.PullTheorems
import SceneScript.Proofs.RegistryTheorems
import SceneScript.Engine

namespace SceneScript

/-- The registry has every standard type under its own name and constructs its default. -/
def Registry.Stocked (r : Registry) : Prop :=
  ∀ kind : Kind, kind.isHosted = false →
    ∃ e, r.find? kind.key = some e ∧ e.name = kind.typeName ∧ e.fresh = kind.default

/-! ## §1 Writing by a format -/

namespace Format

/-- The ways in which writing an argument by a format can fail. -/
inductive Fails (caller : String) (arg : Payload) : Failure → Prop
  | beyondLayout : Fails caller arg .beyondLayout
  | objection {objection : Objection} :
      Fails caller arg (.error (.invalidArgument caller objection))
  /-- The argument cannot be read as a directive wants it. -/
  | mismatch {reading : Reading} {expected : String}
      (h : reading.fault? arg = some (.mismatch expected arg.typeName)) :
      Fails caller arg (.error (.mismatch expected arg.typeName))

variable {caller : String} {arg : Payload} {failure : Failure} {d : Directive}

theorem pad_fails {numeric : Bool} {body : List Char}
    (h : pad d numeric body = .error failure) : failure = .beyondLayout := by
  unfold pad at h
  dsimp only at h
  split at h
  · cases h
  · split at h
    · cases h
      rfl
    · split at h
      · cases h
      · split at h <;> cases h

theorem numberBody_fails {x : Float} (h : numberBody d x = .error failure) :
    failure = .beyondLayout := by
  unfold numberBody fixedText scientificText generalText at h
  dsimp only at h
  split at h
  case h_4 => cases h
  all_goals
    split at h
    · cases h
      rfl
    · cases h

/-- How a directive reads its argument. -/
def Directive.reading (d : Directive) : Reading := if d.conversion = .s then .text else .number

/-- What a directive expects and does not get. -/
theorem expected_of_fault {e : Error} (h : d.reading.fault? arg = some e) :
    (d.conversion = .s ∧ arg.toText? = none ∧ e = .mismatch "string" arg.typeName) ∨
    (d.conversion ≠ .s ∧ arg.toNumber? = none ∧ e = .mismatch "number" arg.typeName) := by
  unfold Directive.reading at h
  split at h
  · next hconversion => exact .inl ⟨hconversion, Reading.fault?_text_eq_some_iff.mp h⟩
  · next hconversion => exact .inr ⟨hconversion, Reading.fault?_number_eq_some_iff.mp h⟩

/-- An argument that cannot be read as its directive wants it is not written. -/
theorem render_of_fault {e : Error} (h : d.reading.fault? arg = some e) :
    d.render arg = .error (.error e) := by
  obtain ⟨hconversion, hnone, rfl⟩ | ⟨hconversion, hnone, rfl⟩ := expected_of_fault h
  · simp only [Directive.render, hconversion, textOf, hnone, if_true]
  · simp only [Directive.render, hconversion, numberOf, hnone, if_false]

/-- One that can be read is written, unless that is beyond what can be laid out. -/
theorem render_of_readable (h : d.reading.fault? arg = none) :
    (∃ text, d.render arg = .ok text) ∨ d.render arg = .error .beyondLayout := by
  have hresult {outcome : Except Failure (List Char)}
      (hfails : ∀ failure, outcome = .error failure → failure = .beyondLayout) :
      (∃ text, outcome = .ok text) ∨ outcome = .error .beyondLayout := by
    cases outcome with
    | ok text => exact .inl ⟨text, rfl⟩
    | error failure => exact .inr (congrArg _ (hfails failure rfl))
  unfold Directive.reading at h
  split at h
  · next hconversion =>
    obtain ⟨s, hs⟩ := Reading.fault?_text_eq_none_iff.mp h
    simp only [Directive.render, hconversion, textOf, hs, if_true]
    exact hresult fun _ => pad_fails
  · next hconversion =>
    obtain ⟨x, hx⟩ := Reading.fault?_number_eq_none_iff.mp h
    simp only [Directive.render, hconversion, numberOf, hx, if_false]
    cases hbody : numberBody d x with
    | error failure => exact .inr (congrArg _ (numberBody_fails hbody))
    | ok body => exact hresult fun _ => pad_fails

theorem render_fails (h : d.render arg = .error failure) : Fails caller arg failure := by
  cases hfault : d.reading.fault? arg with
  | none =>
    obtain ⟨text, hok⟩ | hbeyond := render_of_readable hfault
    · rw [hok] at h
      cases h
    · rw [hbeyond] at h
      cases h
      exact .beyondLayout
  | some e =>
    rw [render_of_fault hfault] at h
    cases h
    obtain ⟨-, -, rfl⟩ | ⟨-, -, rfl⟩ := expected_of_fault hfault
    · exact .mismatch hfault
    · exact .mismatch hfault

theorem fill_fails {fault : Option Fault} {pieces : List Piece} : ∀ {used : Bool},
    fill caller arg fault used pieces = .error failure → Fails caller arg failure := by
  have hmap : ∀ {outcome : Except Failure (List Char)} {g : List Char → List Char},
      outcome.map g = .error failure → outcome = .error failure := by
    intro outcome g h
    cases outcome with
    | error _ => exact h
    | ok _ => cases h
  induction pieces with
  | nil =>
    intro used h
    unfold fill at h
    split at h
    · cases h
    · cases h
      exact .objection
  | cons piece rest ih =>
    intro used h
    cases piece with
    | literal c => exact ih (hmap h)
    | percent => exact ih (hmap h)
    | directive d =>
      unfold fill at h
      split at h
      · cases h
        exact .objection
      · split at h
        · next hrender =>
          cases h
          exact render_fails hrender
        · exact ih (hmap h)

theorem apply_fails {format : String} (h : apply caller format arg = .error failure) :
    Fails caller arg failure := by
  unfold apply at h
  dsimp only at h
  cases hfill : fill caller arg (Template.read format.toList).fault false
      (Template.read format.toList).pieces with
  | error _ =>
    rw [hfill] at h
    cases h
    exact fill_fails hfill
  | ok _ =>
    rw [hfill] at h
    cases h

end Format

namespace Standard

/-! ## §2 Conforming -/

/-- What a builtin with the given signature may come to when its arguments have come to the given
payloads. -/
inductive Allowed (types : Registry) (signature : Signature) :
    List Payload → Except Failure Answer → Prop
  /-- A payload of the declared type. -/
  | made {values : List Payload} {p : Payload} (h : signature.result = some p.typeName) :
      Allowed types signature values (.ok (.payload p))
  /-- An operation on files, which comes to a truth value. -/
  | file {values : List Payload} {op : FileOp} (h : signature.result = some "bool") :
      Allowed types signature values (.ok (.file op))
  | objection {values : List Payload} {name : String} {objection : Objection} :
      Allowed types signature values (.error (.error (.invalidArgument name objection)))
  /-- What the registry constructs for the type that the argument names. -/
  | object {p : Payload} {name : String} {e : TypeEntry} (hname : signature.name = "create_object")
      (htext : p.toText? = some name) (hfind : types.findNamed? name = some e) :
      Allowed types signature [p] (.ok (.payload e.fresh))
  | unknown {p : Payload} {name : String} (hname : signature.name = "create_object")
      (htext : p.toText? = some name) :
      Allowed types signature [p] (.error (.error (.unknownType name)))
  /-- A number of either type. -/
  | numeral {values : List Payload} {p : Payload} (hname : signature.name = "string_to_num")
      (hkind : p.kind = .number ∨ p.kind = .integer) :
      Allowed types signature values (.ok (.payload p))
  /-- An argument that a format wants to have read in another way. -/
  | unreadable {values : List Payload} {p : Payload} {reading : Reading} {expected : String}
      (hmem : p ∈ values) (h : reading.fault? p = some (.mismatch expected p.typeName)) :
      Allowed types signature values (.error (.error (.mismatch expected p.typeName)))
  | beyond {values : List Payload} (hname : signature.name = "create_string_fa") :
      Allowed types signature values (.error .beyondLayout)

/-- The entry counts its arguments, reads them as its signature declares them, and comes to
something allowed. -/
def Conforms (host : Host) (signature : Signature) (entry : Entry) : Prop :=
  ∀ args, ∃ c,
    entry host signature args = (checkCount signature args signature.arity >>= fun _ => c) ∧
    Pulls args 0 signature.readings (Allowed host.types signature) c

variable {host : Host} {signature : Signature} {entry : Entry}

theorem Conforms.of_readings {readings : List Reading} (hreadings : signature.readings = readings)
    (h : ∀ args, ∃ c,
      entry host signature args = (checkCount signature args readings.length >>= fun _ => c) ∧
      Pulls args 0 readings (Allowed host.types signature) c) : Conforms host signature entry := by
  subst hreadings
  rwa [signature.length_readings] at h

/-- A fresh value of a standard type is of the form that is expected of it, so that building is
filling. -/
theorem build_eq {α : Type} (form : Form α) (fill : α → Call α) (hstocked : host.types.Stocked)
    (hkind : form.kind.isHosted = false) : ∃ a, Standard.build form host fill =
      fill a >>= fun filled => Pure.pure (Answer.payload (form.wrap filled)) := by
  obtain ⟨e, hfind, -, hfresh⟩ := hstocked form.kind hkind
  obtain ⟨a, ha⟩ := (form.exists_wrap form.kind.default).mp form.kind.kind_default
  have hcreate : Value.create host.types form.kind.key = .ok (.owned (form.wrap a)) := by
    rw [Value.create, Registry.construct, hfind, ← ha, ← hfresh]
    rfl
  have hcontent : (Value.owned (form.wrap a)).ownContent form = .ok a := by
    simp [Value.ownContent, Value.owned, Value.wrap, Value.content, form.content?_wrap]
  have hsame : ∀ filled, (Value.owned (form.wrap a)).withPayload (form.wrap filled) =
      Value.owned (form.wrap filled) := by
    intro filled
    simp [Value.withPayload, Value.owned, Value.wrap, Payload.typeKey, Payload.typeName,
      form.kind_wrap]
  refine ⟨a, ?_⟩
  rw [Standard.build, hcreate, attempt_ok_bind, hcontent, attempt_ok_bind]
  simp only [hsame]
  rfl

theorem Pulls.build {α : Type} {form : Form α} {args : Arguments} {i : Nat}
    {readings : List Reading} {Q : List Payload → Except Failure Answer → Prop}
    {fill : α → Call α} (hstocked : host.types.Stocked) (hkind : form.kind.isHosted = false)
    (h : ∀ a, Pulls args i readings Q
      (fill a >>= fun filled => Pure.pure (Answer.payload (form.wrap filled)))) :
    Pulls args i readings Q (Standard.build form host fill) := by
  obtain ⟨a, hbuild⟩ := build_eq form fill hstocked hkind
  rw [hbuild]
  exact h a

/-- A fresh value that is filled without asking for anything. -/
theorem Pulls.build_pure {α : Type} {form : Form α} {args : Arguments} {i : Nat}
    {Q : List Payload → Except Failure Answer → Prop} {filled : α → α}
    (hstocked : host.types.Stocked) (hkind : form.kind.isHosted = false)
    (hmade : ∀ a, Q [] (.ok (.payload (form.wrap a)))) :
    Pulls args i [] Q (Standard.build form host fun a => Pure.pure (filled a)) := by
  refine .build hstocked hkind fun a => ?_
  rw [pure_bind]
  exact .pure (hmade _)

theorem Allowed.wrap {α : Type} {types : Registry} {values : List Payload} (form : Form α) (a : α)
    (h : signature.result = some form.kind.typeName) :
    Allowed types signature values (.ok (.payload (form.wrap a))) := by
  refine .made ?_
  rw [h, Payload.typeName, form.kind_wrap]

/-! ## §3 Vectors, colors and rotations -/

/-- A fresh value with one number set. -/
theorem conforms_of_one {α : Type} (form : Form α) (hkind : form.kind.isHosted = false)
    (h : host.types.Stocked) (set : α → Float → α)
    (hentry : entry = fun host signature args => do
      checkCount signature args 1
      build form host fun a => do
        let x ← number args 0
        return set a x)
    (hs : signature.result = some form.kind.typeName ∧ signature.readings = [.number]) :
    Conforms host signature entry := by
  subst hentry
  refine .of_readings hs.2 fun args => ⟨_, rfl, .build h hkind fun a => ?_⟩
  simp only [bind_assoc, pure_bind]
  exact .number fun _ x _ => .pure (.wrap form _ hs.1)

/-- A fresh value with three numbers set, one after the other. -/
theorem conforms_of_three {α : Type} (form : Form α) (hkind : form.kind.isHosted = false)
    (h : host.types.Stocked) (set : α → Float → Float → Float → α)
    (hentry : entry = fun host signature args => do
      checkCount signature args 3
      build form host fun a => do
        let x ← number args 0
        let y ← number args 1
        let z ← number args 2
        return set a x y z)
    (hs : signature.result = some form.kind.typeName ∧
      signature.readings = [.number, .number, .number]) : Conforms host signature entry := by
  subst hentry
  refine .of_readings hs.2 fun args => ⟨_, rfl, .build h hkind fun a => ?_⟩
  simp only [bind_assoc, pure_bind]
  exact .number fun _ x _ => .number fun _ y _ => .number fun _ z _ => .pure (.wrap form _ hs.1)

theorem rotation_conforms (h : host.types.Stocked) (axis : Axis)
    (hs : signature.result = some "m3d" ∧ signature.readings = [.number]) :
    Conforms host signature (rotation axis) :=
  .of_readings hs.2 fun _ => ⟨_, rfl, .number fun _ _ _ =>
    .build_pure h (by decide) fun m => .wrap .mat3 m hs.1⟩

/-! ## §4 Text and numbers -/

theorem createString_conforms
    (hs : signature.name = "create_string_fa" ∧ signature.result = some "string" ∧
      signature.readings = [.text, .anything]) : Conforms host signature createString := by
  obtain ⟨hname, hresult, hreadings⟩ := hs
  refine .of_readings hreadings fun args => ⟨_, rfl, .text fun _ format _ => ?_⟩
  refine .anything (fun v v' hv => by rw [hv]) fun p => ?_
  cases happly : Format.apply formatName format (Value.shared p).payload with
  | ok out => exact .done (.ok _) (.made hresult)
  | error failure =>
    refine .done (.error failure) ?_
    cases Format.apply_fails happly with
    | beyondLayout => exact .beyond hname
    | objection => exact .objection
    | mismatch h => exact .unreadable (List.mem_cons_of_mem _ List.mem_cons_self) h

theorem numberIn_kind {text : String} {p : Payload} (h : numberIn text = .ok p) :
    p.kind = .number ∨ p.kind = .integer := by
  unfold numberIn at h
  dsimp only at h
  split at h
  · cases h
  · split at h
    · split at h
      · cases h
        exact .inl rfl
      · cases h
    · split at h
      · cases h
        exact .inr rfl
      · cases h

theorem stringToNum_conforms
    (hs : signature.name = "string_to_num" ∧ signature.readings = [.text]) :
    Conforms host signature stringToNum := by
  refine .of_readings hs.2 fun args => ⟨_, rfl, .text fun _ source _ => ?_⟩
  refine .attempt (fun e he => ?_) fun p hp => .pure ?_
  · cases hsource : numberIn source with
    | ok _ => rw [hsource] at he; cases he
    | error _ => rw [hsource] at he; cases he; exact .objection
  · cases hsource : numberIn source with
    | ok _ => rw [hsource] at hp; cases hp; exact .numeral hs.1 (numberIn_kind hsource)
    | error _ => rw [hsource] at hp; cases hp

theorem function_conforms (f : Float → Float)
    (hs : signature.result = some "f64" ∧ signature.readings = [.number]) :
    Conforms host signature (function f) :=
  .of_readings hs.2 fun _ => ⟨_, rfl, .number fun _ _ _ => .pure (.made hs.1)⟩

theorem power_conforms
    (hs : signature.result = some "f64" ∧ signature.readings = [.number, .number]) :
    Conforms host signature power :=
  .of_readings hs.2 fun _ => ⟨_, rfl, .number fun _ _ _ => .number fun _ _ _ =>
    .pure (.made hs.1)⟩

/-! ## §5 Files, objects, images and time -/

theorem onPath_conforms (op : String → FileOp)
    (hs : signature.result = some "bool" ∧ signature.readings = [.text]) :
    Conforms host signature (onPath op) :=
  .of_readings hs.2 fun _ => ⟨_, rfl, .text fun _ _ _ => .pure (.file hs.1)⟩

theorem fileRename_conforms
    (hs : signature.result = some "bool" ∧ signature.readings = [.text, .text]) :
    Conforms host signature fileRename :=
  .of_readings hs.2 fun _ => ⟨_, rfl, .text fun _ _ _ => .text fun _ _ _ =>
    .pure (.file hs.1)⟩

/-- A type that is found by name is constructed, and one that is not is unknown. -/
theorem createNamed_cases {types : Registry} (hvalid : types.Valid) (name : String) :
    (∃ e, types.findNamed? name = some e ∧
      Value.createNamed types name = .ok (.owned e.fresh)) ∨
    Value.createNamed types name = .error (.unknownType name) := by
  cases hfind : types.findNamed? name with
  | none =>
    refine .inr ?_
    simp only [Value.createNamed, Registry.constructNamed, Registry.resolve, hfind]
    rfl
  | some e =>
    obtain ⟨he, -⟩ := hvalid.findNamed?_iff.mp hfind
    refine .inl ⟨e, rfl, ?_⟩
    simp only [Value.createNamed, Registry.constructNamed, Registry.resolve, hfind,
      Registry.construct, hvalid.find?_key he]
    rfl

theorem createObject_conforms (hvalid : host.types.Valid)
    (hs : signature.name = "create_object" ∧ signature.readings = [.text]) :
    Conforms host signature createObject := by
  refine .of_readings hs.2 fun args => ⟨_, rfl, .text fun p name hname => ?_⟩
  rcases createNamed_cases hvalid name with ⟨e, hfind, hcreate⟩ | hcreate
  · rw [hcreate]
    exact .pure (.object hs.1 hname hfind)
  · rw [hcreate]
    exact .done (.error _) (.unknown hs.1 hname)

theorem createPlane_conforms (h : host.types.Stocked)
    (hs : signature.result = some "plane" ∧ signature.readings = []) :
    Conforms host signature createPlane :=
  .of_readings hs.2 fun _ => ⟨_, rfl, .build_pure h (by decide) fun p => .wrap .plane p hs.1⟩

theorem createSphere_conforms (h : host.types.Stocked)
    (hs : signature.result = some "sphere" ∧ signature.readings = [.number]) :
    Conforms host signature createSphere :=
  .of_readings hs.2 fun _ => ⟨_, rfl, .number fun _ _ _ =>
    .build_pure h (by decide) fun s => .wrap .sphere s hs.1⟩

theorem createSquaroid_conforms (h : host.types.Stocked)
    (hs : signature.result = some "squaroid" ∧
      signature.readings = [.number, .number, .number, .number]) :
    Conforms host signature createSquaroid :=
  .of_readings hs.2 fun _ => ⟨_, rfl, .number fun _ _ _ => .number fun _ _ _ =>
    .number fun _ _ _ => .number fun _ _ _ =>
      .build_pure h (by decide) fun s => .wrap .squaroid s hs.1⟩

/-- A shape is made, or there is an objection to its radii. -/
theorem Pulls.shape {α β : Type} {args : Arguments} {i : Nat} {caller : String}
    {made : Except Objection β} {Q : List Payload → Except Failure α → Prop} {k : β → Call α}
    (hobjection : ∀ objection, Q [] (.error (.error (.invalidArgument caller objection))))
    (hmade : ∀ b, Pulls args i [] Q (k b)) :
    Pulls args i [] Q (Standard.shape caller made >>= k) := by
  cases made with
  | error objection => exact .done (.error _) (hobjection objection)
  | ok b => exact hmade b

theorem createCylinder_conforms (h : host.types.Stocked)
    (hs : signature.result = some "squaroid" ∧ signature.readings = [.number, .number]) :
    Conforms host signature createCylinder :=
  .of_readings hs.2 fun _ => ⟨_, rfl, .number fun _ _ _ => .number fun _ _ _ =>
    .shape (fun _ => .objection) fun _ =>
      .build_pure h (by decide) fun s => .wrap .squaroid s hs.1⟩

theorem createTorus_conforms (h : host.types.Stocked)
    (hs : signature.result = some "torus" ∧ signature.readings = [.number, .number]) :
    Conforms host signature createTorus :=
  .of_readings hs.2 fun _ => ⟨_, rfl, .number fun _ _ _ => .number fun _ _ _ =>
    .shape (fun _ => .objection) fun _ =>
      .build_pure h (by decide) fun t => .wrap .torus t hs.1⟩

theorem quadric_conforms (h : host.types.Stocked) (caller : String)
    (make : Float → Float → Float → Except Objection Squaroid)
    (hs : signature.result = some "squaroid" ∧
      signature.readings = [.number, .number, .number]) :
    Conforms host signature (quadric caller make) :=
  .of_readings hs.2 fun _ => ⟨_, rfl, .number fun _ _ _ => .number fun _ _ _ =>
    .number fun _ _ _ => .shape (fun _ => .objection) fun _ =>
      .build_pure h (by decide) fun s => .wrap .squaroid s hs.1⟩

theorem resized_fails {memory : Memory} {width height : Nat} {fill : Color} {e : Error}
    (h : ColorImage.resized memory width height fill = .error e) :
    ∃ objection, e = .invalidArgument "set_size_2d" objection := by
  unfold ColorImage.resized ColorImage.setSize at h
  split at h
  · cases h
    exact ⟨_, rfl⟩
  · split at h
    · cases h
    · cases h
      exact ⟨_, rfl⟩

theorem createImage_conforms (h : host.types.Stocked)
    (hs : signature.result = some "color_image" ∧
      signature.readings = [.dimension, .dimension, .color]) :
    Conforms host signature createImage := by
  refine .of_readings hs.2 fun args => ⟨_, rfl, .dimension fun _ width => .dimension
    fun _ height => .content (fun _ => rfl) fun _ fill => .build h (by decide) fun _ => ?_⟩
  refine .attempt (fun e he => ?_) fun image _ => .pure (.wrap .colorImage image hs.1)
  obtain ⟨objection, rfl⟩ := resized_fails he
  exact .objection

theorem saturate_conforms (h : host.types.Stocked)
    (hs : signature.result = some "color_image" ∧ signature.readings = [.image, .number]) :
    Conforms host signature saturate :=
  .of_readings hs.2 fun _ => ⟨_, rfl, .content (fun _ => rfl) fun _ _ => .number fun _ _ _ =>
    .build_pure h (by decide) fun image => .wrap .colorImage image hs.1⟩

theorem getTime_conforms (hs : signature.result = some "f64" ∧ signature.readings = []) :
    Conforms host signature getTime :=
  .of_readings hs.2 fun _ => ⟨_, rfl, .pure (.made hs.1)⟩

/-! ## §6 The tables -/

/-- The text declares a builtin with such a signature. -/
def Declares (source : String) (P : Signature → Prop) : Prop :=
  ∃ signature, Signature.parse source = .ok signature ∧ P signature

instance decidableOk {ε α : Type} (outcome : Except ε α) (P : α → Prop) [DecidablePred P] :
    Decidable (∃ a, outcome = .ok a ∧ P a) :=
  match outcome with
  | .ok a => decidable_of_iff (P a) ⟨fun h => ⟨a, rfl, h⟩, fun ⟨_, ha, h⟩ => by cases ha; exact h⟩
  | .error _ => isFalse fun ⟨_, ha, _⟩ => nomatch ha

/-- `Signature.parse` on the characters of a text. -/
def parseChars (source : List Char) : Except SignatureFault Signature :=
  match Text.cut? (· == '(') source with
  | none => .error .noOpen
  | some (head, tail) =>
    if ')' ∉ source then .error .noClose
    else
      match Text.cutLast? (· == ')') tail with
      | none => .error .afterClose
      | some (inner, after) =>
        if (Text.trim after).isEmpty then
          match Signature.readHead head with
          | .error fault => .error fault
          | .ok (result, name) =>
            (Signature.readInner inner).map fun params => ⟨result, name, params⟩
        else .error .afterClose

/-- What a text declares is computed from its characters. They are taken from the text by
unification here, which is cheap, where `String.toList` would decode them one by one. -/
theorem Declares.of_chars {source : String} {chars : List Char} {P : Signature → Prop}
    (hsource : source = String.ofList chars)
    (hchars : ∃ signature, parseChars chars = .ok signature ∧ P signature) :
    Declares source P := by
  have hlist : source.toList = chars := by rw [hsource, String.toList_ofList]
  subst hlist
  exact hchars

/-- A specification's builtin has the signature that its text declares, and its entry. -/
theorem Spec.builtin_eq_ok {spec : Spec} {b : Builtin} (h : spec.builtin = .ok b) :
    Signature.parse spec.signature = .ok b.signature ∧ b.entry = spec.entry := by
  unfold Spec.builtin Builtin.ofText at h
  split at h
  · next signature hparse =>
    cases h
    exact ⟨hparse, rfl⟩
  · cases h

/-- The specification gives a builtin that conforms to its signature. -/
def Spec.Conforms (host : Host) (spec : Spec) : Prop :=
  ∃ b, spec.builtin = .ok b ∧ Standard.Conforms host b.signature b.entry

theorem Spec.conforms_of_declares {source : String} {chars : List Char} {P : Signature → Prop}
    (hsource : source = String.ofList chars)
    (hchars : ∃ signature, parseChars chars = .ok signature ∧ P signature)
    (hconforms : ∀ signature, P signature → Standard.Conforms host signature entry) :
    Spec.Conforms host ⟨source, entry⟩ := by
  obtain ⟨signature, hparse, hP⟩ := Declares.of_chars hsource hchars
  refine ⟨⟨signature, entry⟩, ?_, hconforms signature hP⟩
  simp only [Spec.builtin, Builtin.ofText, hparse]

open Spec (conforms_of_declares)

theorem vectorSpecs_conform (h : host.types.Stocked) :
    ∀ spec ∈ vectorSpecs, spec.Conforms host := by
  simp only [vectorSpecs, List.forall_mem_cons]
  refine ⟨?create_vec, ?vecx, ?vecy, ?vecz, ?create_color, ?colr, ?colg, ?colb, ?rotx, ?roty,
    ?rotz, List.forall_mem_nil _⟩
  case create_vec =>
    exact conforms_of_declares rfl (by decide) fun _ =>
      conforms_of_three .vec3 (by decide) h _ rfl
  case create_color =>
    exact conforms_of_declares rfl (by decide) fun _ =>
      conforms_of_three .color (by decide) h _ rfl
  case vecx | vecy | vecz =>
    exact conforms_of_declares rfl (by decide) fun _ =>
      conforms_of_one .vec3 (by decide) h _ rfl
  case colr | colg | colb =>
    exact conforms_of_declares rfl (by decide) fun _ =>
      conforms_of_one .color (by decide) h _ rfl
  case rotx | roty | rotz =>
    exact conforms_of_declares rfl (by decide) fun _ => rotation_conforms h _

theorem stringSpecs_conform : ∀ spec ∈ stringSpecs, spec.Conforms host := by
  simp only [stringSpecs, List.forall_mem_cons]
  exact ⟨conforms_of_declares rfl (by decide) fun _ => createString_conforms,
    conforms_of_declares rfl (by decide) fun _ => stringToNum_conforms,
    List.forall_mem_nil _⟩

theorem arithmeticSpecs_conform : ∀ spec ∈ arithmeticSpecs, spec.Conforms host := by
  simp only [arithmeticSpecs, List.forall_mem_cons]
  refine ⟨?_, ?_, ?_, ?_, ?_, ?_, ?_, ?_, ?_, ?_, ?_, ?_, ?_, ?_, ?_, ?pow, ?_, ?_,
    List.forall_mem_nil _⟩
  case pow => exact conforms_of_declares rfl (by decide) fun _ => power_conforms
  all_goals exact conforms_of_declares rfl (by decide) fun _ => function_conforms _

theorem fileSpecs_conform : ∀ spec ∈ fileSpecs, spec.Conforms host := by
  simp only [fileSpecs, List.forall_mem_cons]
  refine ⟨?_, ?_, ?_, ?rename, List.forall_mem_nil _⟩
  case rename => exact conforms_of_declares rfl (by decide) fun _ => fileRename_conforms
  all_goals exact conforms_of_declares rfl (by decide) fun _ => onPath_conforms _

theorem objectSpecs_conform (h : host.types.Stocked) (hvalid : host.types.Valid) :
    ∀ spec ∈ objectSpecs, spec.Conforms host := by
  simp only [objectSpecs, List.forall_mem_cons]
  exact ⟨conforms_of_declares rfl (by decide) fun _ => createObject_conforms hvalid,
    conforms_of_declares rfl (by decide) fun _ => createPlane_conforms h,
    conforms_of_declares rfl (by decide) fun _ => createSphere_conforms h,
    conforms_of_declares rfl (by decide) fun _ => createSquaroid_conforms h,
    conforms_of_declares rfl (by decide) fun _ => createCylinder_conforms h,
    conforms_of_declares rfl (by decide) fun _ => createTorus_conforms h,
    conforms_of_declares rfl (by decide) fun _ => quadric_conforms h _ _,
    conforms_of_declares rfl (by decide) fun _ => quadric_conforms h _ _,
    conforms_of_declares rfl (by decide) fun _ => quadric_conforms h _ _,
    conforms_of_declares rfl (by decide) fun _ => quadric_conforms h _ _,
    List.forall_mem_nil _⟩

theorem imageSpecs_conform (h : host.types.Stocked) :
    ∀ spec ∈ imageSpecs, spec.Conforms host := by
  simp only [imageSpecs, List.forall_mem_cons]
  exact ⟨conforms_of_declares rfl (by decide) fun _ => createImage_conforms h,
    conforms_of_declares rfl (by decide) fun _ => saturate_conforms h,
    List.forall_mem_nil _⟩

theorem timeSpecs_conform : ∀ spec ∈ timeSpecs, spec.Conforms host := by
  simp only [timeSpecs, List.forall_mem_cons]
  exact ⟨conforms_of_declares rfl (by decide) fun _ => getTime_conforms,
    List.forall_mem_nil _⟩

/-- Every standard builtin keeps to its signature on a host with the standard types. -/
theorem conforms_of_mem_specs (host : Host) (h : host.types.Stocked)
    (hvalid : host.types.Valid) :
    ∀ spec ∈ specs, spec.Conforms host := by
  intro spec hspec
  simp only [specs, List.mem_append] at hspec
  rcases hspec with (((((hspec | hspec) | hspec) | hspec) | hspec) | hspec) | hspec
  · exact vectorSpecs_conform h spec hspec
  · exact stringSpecs_conform spec hspec
  · exact arithmeticSpecs_conform spec hspec
  · exact fileSpecs_conform spec hspec
  · exact objectSpecs_conform h hvalid spec hspec
  · exact imageSpecs_conform h spec hspec
  · exact timeSpecs_conform spec hspec

example : specs.length = 48 := rfl

/-! ## §7 The clock and files -/

/-- The builtins that look at the clock or at files. -/
def worldly : List String :=
  ["get_time", "file_exists", "file_touch", "file_delete", "file_rename"]

variable {spec : Spec} {b : Builtin}

/-- Only these come to truth values, which is what operations on files come to. -/
theorem declares_worldly : ∀ spec ∈ specs,
    Declares spec.signature fun s => s.result = some "bool" → s.name ∈ worldly := by
  simp only [specs, List.forall_mem_append]
  refine ⟨⟨⟨⟨⟨⟨?_, ?_⟩, ?_⟩, ?_⟩, ?_⟩, ?_⟩, ?_⟩
  all_goals
    repeat refine List.forall_mem_cons.mpr ⟨.of_chars rfl (by decide), ?_⟩
    exact List.forall_mem_nil _

theorem result_ne_bool (hspec : spec ∈ specs) (hb : spec.builtin = .ok b)
    (hname : b.name ∉ worldly) : b.signature.result ≠ some "bool" := by
  obtain ⟨signature, hparse, hbool⟩ := declares_worldly spec hspec
  rw [(Spec.builtin_eq_ok hb).1] at hparse
  cases hparse
  exact fun h => hname (hbool h)

/-- All entries but the one that tells the time do the same whatever the time is. -/
theorem entry_clock_of_mem (host : Host) (clock : Float) :
    ∀ spec ∈ vectorSpecs ++ stringSpecs ++ arithmeticSpecs ++ fileSpecs ++ objectSpecs ++
      imageSpecs, spec.entry { host with clock := clock } = spec.entry host := by
  simp only [List.forall_mem_append]
  refine ⟨⟨⟨⟨⟨?_, ?_⟩, ?_⟩, ?_⟩, ?_⟩, ?_⟩
  all_goals
    repeat refine List.forall_mem_cons.mpr ⟨rfl, ?_⟩
    exact List.forall_mem_nil _

theorem entry_clock (hspec : spec ∈ specs) (hb : spec.builtin = .ok b) (hname : b.name ∉ worldly)
    (host : Host) (clock : Float) : b.entry { host with clock := clock } = b.entry host := by
  obtain ⟨hparse, hentry⟩ := Spec.builtin_eq_ok hb
  rw [hentry]
  rcases List.mem_append.mp hspec with hspec | hspec
  · exact entry_clock_of_mem host clock spec hspec
  · obtain rfl := List.mem_singleton.mp hspec
    have htime : Declares "f64 get_time()" fun s => s.name ∈ worldly :=
      .of_chars rfl (by decide)
    obtain ⟨signature, hparse', hmem⟩ := htime
    rw [hparse] at hparse'
    cases hparse'
    exact absurd hmem hname

end Standard

end SceneScript
