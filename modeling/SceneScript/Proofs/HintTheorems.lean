/-
SceneScript.Proofs.HintTheorems — how errors call types.

An argument that is not of the type it was declared to be of is objected to with the key
of that type, as text; a call reads the text back and puts the type's name in its place.
`Relayed` says what becomes of any failure on the way: a mismatch whose expected text is
read as the key of a registered type gets that type's name, everything else stays as it
is. In a registry with its books in order this is what `nameTypes` does, and nothing else
(`relayed_iff`).

The text that is written for a key is read as that key (`Key.parse?_render`), so what comes
out for a declared type is its name if it has one, and sixteen hexadecimal digits if not
(`Called`). `hint_errors_name_types` is about all calls: of a standard builtin on arguments
the first fault of which is a wrong type, and of any builtin on anything.
-/
import SceneScript.Proofs.DispatchTheorems
import SceneScript.Proofs.KeyTheorems

namespace SceneScript

/-! ## §1 Failures on their way out -/

namespace Engine

/-- What becomes of a failure when types are named in it. -/
inductive Relayed (types : Registry) : Failure → Failure → Prop
  /-- The expected text is read as the key of a registered type, whose name takes its place. -/
  | named {expected got : String} {e : TypeEntry} (he : e ∈ types.entries)
      (hread : Key.parse? expected = some e.key) :
      Relayed types (.error (.mismatch expected got)) (.error (.mismatch e.name got))
  /-- Anything else stays as it is. -/
  | unchanged {failure : Failure}
      (hnone : ∀ expected got, failure = .error (.mismatch expected got) →
        ∀ e ∈ types.entries, Key.parse? expected ≠ some e.key) :
      Relayed types failure failure

variable {types : Registry} {failure failure' : Failure} {hint : Key} {text got : String}

theorem nameTypes_of_not_mismatch (h : ∀ expected got, failure ≠ .error (.mismatch expected got)) :
    nameTypes types failure = failure := by
  unfold nameTypes
  split
  · next expected got => exact absurd rfl (h expected got)
  · rfl

theorem relayed_nameTypes (h : types.Valid) (failure : Failure) :
    Relayed types failure (nameTypes types failure) := by
  by_cases hmismatch : ∃ expected got, failure = .error (.mismatch expected got)
  · obtain ⟨expected, got, rfl⟩ := hmismatch
    cases hnamed : (Key.parse? expected).bind types.nameOf? with
    | some name =>
      obtain ⟨key, hread, hname⟩ := Option.bind_eq_some_iff.mp hnamed
      obtain ⟨e, hfind, rfl⟩ := Option.map_eq_some_iff.mp hname
      obtain ⟨he, rfl⟩ := h.find?_iff_mem.mp hfind
      simp only [nameTypes, hnamed]
      exact .named he hread
    | none =>
      simp only [nameTypes, hnamed]
      refine .unchanged fun expected' got' hsame e he hread => ?_
      cases hsame
      rw [hread, Option.bind_some, Registry.nameOf?, h.find?_key he] at hnamed
      cases hnamed
  · have hother : ∀ expected got, failure ≠ .error (.mismatch expected got) :=
      fun expected got hsame => hmismatch ⟨expected, got, hsame⟩
    rw [nameTypes_of_not_mismatch hother]
    exact .unchanged fun expected got hsame => absurd hsame (hother expected got)

/-- A failure does not become two things: no two types have one key. -/
theorem Relayed.unique {failure'' : Failure} (h : types.Valid)
    (hrelayed : Relayed types failure failure') (hrelayed' : Relayed types failure failure'') :
    failure' = failure'' := by
  cases hrelayed with
  | @named expected got e he hread =>
    cases hrelayed' with
    | @named _ _ e' he' hread' =>
      have hkey : e.key = e'.key := Option.some.inj (hread.symm.trans hread')
      rw [h.eq_of_key he he' hkey]
    | unchanged hnone => exact absurd hread (hnone expected got rfl e he)
  | unchanged hnone =>
    cases hrelayed' with
    | named he' hread' => exact absurd hread' (hnone _ _ rfl _ he')
    | unchanged _ => rfl

/-- Types are named in failures in just this way. -/
theorem relayed_iff (h : types.Valid) :
    Relayed types failure failure' ↔ nameTypes types failure = failure' := by
  constructor
  · intro hrelayed
    exact (relayed_nameTypes h failure).unique h hrelayed
  · intro hsame
    rw [← hsame]
    exact relayed_nameTypes h failure

/-! ## §2 Declared types -/

/-- What an error calls the type with the given key. -/
inductive Called (types : Registry) (key : Key) : String → Prop
  /-- The name that is registered for the key. -/
  | name {e : TypeEntry} (he : e ∈ types.entries) (hkey : e.key = key) : Called types key e.name
  /-- The digits of the key, if no type has it. -/
  | digits {text : String} (hnone : ∀ e ∈ types.entries, e.key ≠ key)
      (htext : key.Displays text) : Called types key text

/-- A type that is registered is called by its name. -/
theorem Called.eq_name (h : types.Valid) {e : TypeEntry} (he : e ∈ types.entries)
    (hkey : e.key = hint) (hcalled : Called types hint text) : text = e.name := by
  cases hcalled with
  | name he' hkey' => rw [h.eq_of_key he' he (hkey'.trans hkey.symm)]
  | digits hnone _ => exact absurd hkey (hnone e he)

/-- A mismatch with a key as it is written becomes one with what the type is called. -/
theorem Relayed.exists_called
    (h : Relayed types (.error (.mismatch hint.render got)) failure) :
    ∃ expected, Called types hint expected ∧ failure = .error (.mismatch expected got) := by
  cases h with
  | @named _ _ e he hread =>
    have hkey : hint = e.key := Option.some.inj ((Key.parse?_render hint).symm.trans hread)
    exact ⟨e.name, .name he hkey.symm, rfl⟩
  | unchanged hnone =>
    refine ⟨hint.render, .digits (fun e he hkey => ?_) (Key.displays_iff.mpr rfl), rfl⟩
    have hread : Key.parse? hint.render = some e.key := by rw [hkey, Key.parse?_render]
    exact hnone _ _ rfl e he hread

/-- The fault of an argument that is of another type than it was declared to be of. -/
theorem fault?_of_hint {arg : Argument} {frame : Frame} {p : Payload}
    (hhint : arg.hint = some hint) (hp : frame.outcome arg.slot = .ok p)
    (hkey : p.typeKey ≠ hint) (reading : Reading) :
    arg.fault? frame reading = some (.mismatch hint.render p.typeName) := by
  simp only [Argument.fault?, Argument.outcome, hp, hhint, if_neg hkey]

/-! ## §3 Calls -/

/-- If the first argument with a fault is one of another type than it was declared to be of, the
call comes to a mismatch that says what the declared type is called. -/
def ObjectsByName (types : Registry) (readings : List Reading) (args : Arguments) (frame : Frame)
    (outcome : Except Failure Answer) : Prop :=
  ∀ front arg reading back hint p,
    args.items.zip readings = front ++ (arg, reading) :: back →
    (∀ x ∈ front, x.1.fault? frame x.2 = none) →
    arg.hint = some hint → frame.outcome arg.slot = .ok p → p.typeKey ≠ hint →
    ∃ expected, Called types hint expected ∧
      outcome = .error (.error (.mismatch expected p.typeName))

/-- What a call makes of the run of an entry: failures are relayed, and nothing else is
different. -/
structure Relays (types : Registry) (entered called : Except Failure Answer × Frame) : Prop where
  frame : called.2 = entered.2
  answer : ∀ answer, called.1 = .ok answer ↔ entered.1 = .ok answer
  failure : ∀ failure', called.1 = .error failure' ↔
    ∃ failure, entered.1 = .error failure ∧ Relayed types failure failure'

theorem relays_mapError (h : types.Valid) (entered : Except Failure Answer × Frame) :
    Relays types entered (entered.1.mapError (nameTypes types), entered.2) := by
  obtain ⟨outcome, frame⟩ := entered
  constructor
  case frame => rfl
  case answer =>
    intro answer
    cases outcome with
    | ok answer' => exact Iff.rfl
    | error failure => exact ⟨nofun, nofun⟩
  case failure =>
    intro failure'
    cases outcome with
    | ok answer => exact ⟨nofun, nofun⟩
    | error failure =>
      constructor
      · intro hcalled
        exact ⟨failure, rfl, (relayed_iff h).mpr (Except.error.inj hcalled)⟩
      · intro ⟨failure₀, hentered, hrelayed⟩
        cases hentered
        exact congrArg Except.error ((relayed_iff h).mp hrelayed)

/-- **Errors name types.** Once `init1` has succeeded, whatever else has been registered, a call of
a standard builtin whose first fault is an argument of another type than declared says what the
declared type is called: its name, or its key in digits if it has none. And whatever has happened
to an engine, a call of any builtin passes on what the entry comes to, except that a mismatch whose
expected text is read as the key of a registered type gets the type's name. -/
theorem hint_errors_name_types (config : Config) (events : List Event) :
    ((run { config := config } events).initialized = true →
      ∀ spec ∈ Standard.specs, ∃ b, spec.builtin = .ok b ∧
        (run { config := config } events).builtins.get? b.name = some b ∧
        ∀ (clock : Float) (memory : Memory) (args : Arguments) (frame : Frame),
          args.size = b.signature.arity →
          ObjectsByName (run { config := config } events).types b.signature.readings args frame
            ((run { config := config } events).dispatch clock memory b.name args frame).1) ∧
    ∀ (name : String) (b : Builtin),
      (run { config := config } events).builtins.get? name = some b →
      ∀ (clock : Float) (memory : Memory) (args : Arguments) (frame : Frame),
        Relays (run { config := config } events).types
          (b.entry ((run { config := config } events).host clock memory) b.signature args frame)
          ((run { config := config } events).dispatch clock memory name args frame) := by
  have hvalid := (sound_run config events).valid.types
  constructor
  · intro hinit spec hspec
    obtain ⟨b, hbuiltin, hget, hconforms⟩ := conforms_of_initialized hinit hspec
    refine ⟨b, hbuiltin, hget, fun clock memory args frame hsize => ?_⟩
    intro front arg reading back hint p hzip hfront hhint hp hkey
    have horder : InOrder _ b.signature.readings args frame _ _ :=
      inOrder_dispatch hget (hconforms clock memory) hsize
    have hfault := fault?_of_hint hhint hp hkey reading
    obtain ⟨houtcome, -, -⟩ := horder.first_fault front arg reading back _ hzip hfront hfault
    obtain ⟨expected, hcalled, hnamed⟩ := Relayed.exists_called (relayed_nameTypes hvalid
      (.error (.mismatch hint.render p.typeName)))
    exact ⟨expected, hcalled, houtcome.trans (congrArg Except.error hnamed)⟩
  · intro name b hget clock memory args frame
    rw [dispatch_of_get? hget]
    exact relays_mapError hvalid _

/-- One argument, declared to be a vector. -/
def oneVector : Arguments := ⟨[⟨0, some (Key.ofName "v3d")⟩]⟩

/-- A frame with a number in it. -/
def oneNumber : Frame := ⟨[.ready (.number 2)]⟩

/-- A call of `vecx` on a number where a vector was declared. -/
theorem hint_errors_name_types_vecx : ∃ b,
    (run {} [.signal .init1]).initialized = true ∧
    Standard.Spec.builtin ⟨"v3d vecx( num v )",
      Standard.component fun v x => { v with x := x }⟩ = .ok b ∧
    (run {} [.signal .init1]).builtins.get? b.name = some b ∧
    oneVector.size = b.signature.arity ∧
    ((run {} [.signal .init1]).dispatch 0 .usual b.name oneVector oneNumber).1 =
      .error (.error (.mismatch "v3d" "f64")) ∧
    Relays (run {} [.signal .init1]).types
      (b.entry ((run {} [.signal .init1]).host 0 .usual) b.signature oneVector oneNumber)
      ((run {} [.signal .init1]).dispatch 0 .usual b.name oneVector oneNumber) := by
  obtain ⟨hstandard, hany⟩ := hint_errors_name_types {} [.signal .init1]
  obtain ⟨b, hb, hget, hcall⟩ := hstandard initialized_run_init1
    ⟨"v3d vecx( num v )", Standard.component fun v x => { v with x := x }⟩
    (by simp [Standard.specs, Standard.vectorSpecs])
  have hdeclared : b.signature = ⟨some "v3d", "vecx", [⟨"num", "v"⟩]⟩ := by
    simp only [Standard.Spec.builtin, Builtin.ofText, parse_vecx] at hb
    cases hb
    rfl
  have hsize : oneVector.size = b.signature.arity := by
    rw [hdeclared]
    rfl
  have hzip : oneVector.items.zip b.signature.readings =
      [] ++ (⟨0, some (Key.ofName "v3d")⟩, .number) :: [] := by
    rw [hdeclared]
    rfl
  have hkey : (Payload.number 2).typeKey ≠ Key.ofName "v3d" := by decide +kernel
  obtain ⟨expected, hcalled, houtcome⟩ := hcall 0 .usual oneVector oneNumber hsize [] _ _ _ _ _
    hzip (fun x hx => absurd hx List.not_mem_nil) rfl rfl hkey
  have hsound := sound_run {} [.signal .init1]
  obtain ⟨e, hfind, hname, -⟩ :=
    (hsound.complete initialized_run_init1).stocked .vec3 (by decide)
  obtain ⟨he, hekey⟩ := hsound.valid.types.find?_iff_mem.mp hfind
  have hexpected : expected = "v3d" := (hcalled.eq_name hsound.valid.types he hekey).trans hname
  rw [hexpected] at houtcome
  exact ⟨b, initialized_run_init1, hb, hget, hsize, houtcome, hany b.name b hget 0 .usual _ _⟩

end Engine

end SceneScript
