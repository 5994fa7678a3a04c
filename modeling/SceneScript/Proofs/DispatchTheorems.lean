/-
SceneScript.Proofs.DispatchTheorems — calls of the standard builtins.

Three results about every call of a standard builtin, on any engine that has got
there by whatever events, on any frame and with any arguments.

`dispatch_in_order` is about how arguments are asked for: from the left to the
right and up to the first with a fault, which the call then ends with, and beyond
which no slot is touched. `call_typed` is about what comes out: a value of the
declared type, or one of a few errors that the arguments are to blame for. That
the builtin has a value made by the registry and then looks into it never fails.
`dispatch_counts_arguments` is about how many arguments there are: as many as the
signature has, or the call comes to nothing else.
-/
import SceneScript.Proofs.InstallTheorems

namespace SceneScript

/-! ## §1 Entries on a frame -/

namespace Standard

variable {host : Host} {signature : Signature} {entry : Entry} {args : Arguments} {frame : Frame}

/-- Any other number of arguments is objected to before anything is asked for. -/
theorem Conforms.run_of_count (h : Conforms host signature entry)
    (hsize : args.size ≠ signature.arity) :
    entry host signature args frame =
      (.error (.error (.arity signature.name signature.arity args.size)), frame) := by
  obtain ⟨c, hentry, -⟩ := h args
  rw [hentry, checkCount, if_neg hsize, attempt_error_bind]
  rfl

theorem Conforms.pulls (h : Conforms host signature entry) (hsize : args.size = signature.arity) :
    Pulls args 0 signature.readings (Allowed host.types signature)
      (entry host signature args) := by
  obtain ⟨c, hentry, hpulls⟩ := h args
  rw [hentry, checkCount, if_pos hsize, attempt_ok_bind]
  exact hpulls

/-- The first argument with a fault ends the call. -/
theorem Conforms.run_of_fault (h : Conforms host signature entry)
    (hsize : args.size = signature.arity) {front back : List (Argument × Reading)}
    {arg : Argument} {reading : Reading} {e : Error}
    (hzip : args.items.zip signature.readings = front ++ (arg, reading) :: back)
    (hfront : ∀ x ∈ front, x.1.fault? frame x.2 = none)
    (hfault : arg.fault? frame reading = some e) :
    entry host signature args frame =
      (.error (.error e), frame.evalAll (front.map (·.1.slot) ++ [arg.slot])) :=
  (h.pulls hsize).run_of_fault hzip hfront hfault

/-- Without a fault all arguments are asked for, and something allowed comes out. -/
theorem Conforms.run_of_complete (h : Conforms host signature entry)
    (hsize : args.size = signature.arity)
    (hclean : ∀ x ∈ args.items.zip signature.readings, x.1.fault? frame x.2 = none) :
    ∃ payloads outcome,
      List.Forall₂ (fun arg p => arg.outcome frame = .ok p) args.items payloads ∧
      Allowed host.types signature payloads outcome ∧
      entry host signature args frame = (outcome, frame.evalAll (args.items.map (·.slot))) :=
  (h.pulls hsize).run_of_complete (hsize.trans signature.length_readings.symm) hclean

end Standard

/-- Either no argument has a fault, or there is a first one that has. -/
theorem Argument.fault?_cases (frame : Frame) (l : List (Argument × Reading)) :
    (∀ x ∈ l, x.1.fault? frame x.2 = none) ∨
    ∃ front arg reading back e, l = front ++ (arg, reading) :: back ∧
      (∀ x ∈ front, x.1.fault? frame x.2 = none) ∧ arg.fault? frame reading = some e := by
  induction l with
  | nil => exact .inl fun x hx => absurd hx List.not_mem_nil
  | cons x rest ih =>
    cases hx : x.1.fault? frame x.2 with
    | some e => exact .inr ⟨[], x.1, x.2, rest, e, rfl, fun y hy => absurd hy List.not_mem_nil, hx⟩
    | none =>
      rcases ih with hclean | ⟨front, arg, reading, back, e, rfl, hfront, hfault⟩
      · exact .inl (List.forall_mem_cons.mpr ⟨hx, hclean⟩)
      · exact .inr ⟨x :: front, arg, reading, back, e, rfl,
          List.forall_mem_cons.mpr ⟨hx, hfront⟩, hfault⟩

/-- A builtin that keeps to its signature objects to the number of its arguments, or fails with the
fault of one of them, or comes to something allowed. -/
theorem Standard.Conforms.outcome_cases {host : Host} {signature : Signature} {entry : Entry}
    (h : Conforms host signature entry) (args : Arguments) (frame : Frame) :
    (args.size ≠ signature.arity ∧
      (entry host signature args frame).1 =
        .error (.error (.arity signature.name signature.arity args.size))) ∨
    (∃ arg ∈ args.items, ∃ reading e, arg.fault? frame reading = some e ∧
      (entry host signature args frame).1 = .error (.error e)) ∨
    ∃ payloads, List.Forall₂ (fun arg p => arg.outcome frame = .ok p) args.items payloads ∧
      Allowed host.types signature payloads (entry host signature args frame).1 := by
  by_cases hsize : args.size = signature.arity
  · rcases Argument.fault?_cases frame (args.items.zip signature.readings) with
      hclean | ⟨front, arg, reading, back, e, hzip, hfront, hfault⟩
    · obtain ⟨payloads, outcome, hpayloads, hallowed, hrun⟩ := h.run_of_complete hsize hclean
      rw [hrun]
      exact .inr (.inr ⟨payloads, hpayloads, hallowed⟩)
    · have hmem : (arg, reading) ∈ args.items.zip signature.readings := by
        rw [hzip]
        exact List.mem_append_right _ List.mem_cons_self
      rw [h.run_of_fault hsize hzip hfront hfault]
      exact .inr (.inl ⟨arg, (List.of_mem_zip hmem).1, reading, e, hfault, rfl⟩)
  · rw [h.run_of_count hsize]
    exact .inl ⟨hsize, rfl⟩

/-- A builtin that does not come to truth values asks nothing of files. -/
theorem Standard.Conforms.answer_value {host : Host} {signature : Signature} {entry : Entry}
    (h : Conforms host signature entry) (hresult : signature.result ≠ some "bool")
    {args : Arguments} {frame : Frame} {answer : Answer}
    (hrun : (entry host signature args frame).1 = .ok answer) : ∃ v, answer = .value v := by
  have hcases := h.outcome_cases args frame
  rw [hrun] at hcases
  rcases hcases with ⟨-, herror⟩ | ⟨_, -, _, _, -, herror⟩ | ⟨payloads, -, hallowed⟩
  · cases herror
  · cases herror
  · cases hallowed with
    | made _ => exact ⟨_, rfl⟩
    | file hbool => exact absurd hbool hresult
    | object _ _ _ => exact ⟨_, rfl⟩
    | numeral _ _ => exact ⟨_, rfl⟩

namespace Engine

variable {engine : Engine} {clock : Float} {memory : Memory} {name : String} {b : Builtin}
  {args : Arguments} {frame : Frame}

theorem dispatch_of_get? (hget : engine.builtins.get? name = some b) :
    engine.dispatch clock memory name args frame =
      (((b.entry (engine.host clock memory) b.signature args frame).1.mapError
        (nameTypes engine.types)),
        (b.entry (engine.host clock memory) b.signature args frame).2) := by
  simp only [dispatch, hget]
  rfl

/-! ## §2 The order of evaluation -/

/-- How a call asks for its arguments, which are read in the given ways: what it comes to and the
frame that it leaves behind. -/
structure InOrder (types : Registry) (readings : List Reading) (args : Arguments) (frame : Frame)
    (outcome : Except Failure Answer) (frame' : Frame) : Prop where
  /-- If an argument is the first with a fault, the call ends with that. Its slot and those of the
  arguments before it were asked for in their order, and the others are as they were. -/
  first_fault : ∀ front arg reading back e,
    args.items.zip readings = front ++ (arg, reading) :: back →
    (∀ x ∈ front, x.1.fault? frame x.2 = none) → arg.fault? frame reading = some e →
    outcome = .error (nameTypes types (.error e)) ∧
    frame' = frame.evalAll (front.map (·.1.slot) ++ [arg.slot]) ∧
    ∀ i, i ≠ arg.slot → (∀ x ∈ front, x.1.slot ≠ i) → frame'.slots[i]? = frame.slots[i]?
  /-- If no argument has a fault, all slots were asked for in the order of the arguments, and each
  of them holds its value. -/
  complete : (∀ x ∈ args.items.zip readings, x.1.fault? frame x.2 = none) →
    frame' = frame.evalAll (args.items.map (·.slot)) ∧
    ∀ arg ∈ args.items, ∃ p, frame.outcome arg.slot = .ok p ∧ frame'.cached? arg.slot = some p

theorem inOrder_dispatch (hget : engine.builtins.get? name = some b)
    (hconforms : Standard.Conforms (engine.host clock memory) b.signature b.entry)
    (hsize : args.size = b.signature.arity) :
    InOrder engine.types b.signature.readings args frame
      (engine.dispatch clock memory name args frame).1
      (engine.dispatch clock memory name args frame).2 := by
  rw [dispatch_of_get? hget]
  constructor
  case first_fault =>
    intro front arg reading back e hzip hfront hfault
    rw [hconforms.run_of_fault hsize hzip hfront hfault]
    refine ⟨rfl, rfl, fun i hslot hslots => Frame.getElem?_evalAll fun hmem => ?_⟩
    rcases List.mem_append.mp hmem with hmem | hmem
    · obtain ⟨x, hx, hxi⟩ := List.mem_map.mp hmem
      exact hslots x hx hxi
    · exact hslot (List.mem_singleton.mp hmem)
  case complete =>
    intro hclean
    obtain ⟨payloads, outcome, hpayloads, -, hrun⟩ := hconforms.run_of_complete hsize hclean
    rw [hrun]
    refine ⟨rfl, fun arg harg => ?_⟩
    obtain ⟨p, -, hp⟩ := exists_mem_of_forall₂ hpayloads arg harg
    have hslot := arg.outcome_slot hp
    exact ⟨p, hslot, Frame.cached?_evalAll (List.mem_map_of_mem harg) hslot⟩

/-- **Calls in order.** Once `init1` has succeeded, whatever else has happened, every standard
builtin asks for its arguments from the left to the right and stops at the first with a fault.
Expressions in the frame are taken to be pure, as `Slot` has it: each comes to the same whenever
it is computed and asks for no slot of the frame itself, so that slots are only asked for by the
call. -/
theorem dispatch_in_order (config : Config) (events : List Event)
    (hinit : (run { config := config } events).initialized = true) :
    ∀ spec ∈ Standard.specs, ∃ b, spec.builtin = .ok b ∧
      ∀ (clock : Float) (memory : Memory) (args : Arguments) (frame : Frame),
        args.size = b.signature.arity →
        InOrder (run { config := config } events).types b.signature.readings args frame
          ((run { config := config } events).dispatch clock memory b.name args frame).1
          ((run { config := config } events).dispatch clock memory b.name args frame).2 := by
  have hsound := sound_run config events
  generalize run { config := config } events = engine at hinit hsound
  obtain ⟨hstocked, hall⟩ := hsound.complete hinit
  intro spec hspec
  obtain ⟨b, hb, hbuiltin⟩ := hall spec hspec
  refine ⟨b, hbuiltin, fun clock memory args frame hsize => ?_⟩
  have hget : engine.builtins.get? b.name = some b :=
    hsound.valid.builtins.get?_iff.mpr ⟨hb, rfl⟩
  obtain ⟨b', hb', hconforms⟩ := Standard.conforms_of_mem_specs
    (engine.host clock memory) hstocked hsound.valid.types spec hspec
  rw [hbuiltin] at hb'
  cases hb'
  exact inOrder_dispatch hget hconforms hsize

/-- With `init1` come all standard builtins. -/
theorem installed_run_init1 : ∀ spec ∈ Standard.specs,
    ∃ b ∈ Engine.installed {} [.signal .init1], spec.builtin = .ok b := by
  intro spec hspec
  obtain ⟨b, hb, hbuiltin⟩ :=
    ((sound_run {} [.signal .init1]).complete initialized_run_init1).builtins spec hspec
  have hnone : ({} : Engine).builtins.builtins.length = 0 := rfl
  refine ⟨b, ?_, hbuiltin⟩
  rw [installed_signal, hnone, List.drop_zero]
  exact hb

theorem parse_vecx : Signature.parse "v3d vecx( num v )" =
    .ok ⟨some "v3d", "vecx", [⟨"num", "v"⟩]⟩ := by
  decide

/-- A call of `vecx` on an expression that fails. -/
theorem dispatch_in_order_vecx : ∃ b,
    (run {} [.signal .init1]).initialized = true ∧
    Standard.Spec.builtin ⟨"v3d vecx( num v )",
      Standard.component fun v x => { v with x := x }⟩ = .ok b ∧
    (Arguments.positional 1).size = b.signature.arity ∧
    InOrder (run {} [.signal .init1]).types b.signature.readings (.positional 1)
      ⟨[.suspended (.error (.unknownType "spline"))]⟩
      ((run {} [.signal .init1]).dispatch 0 .usual b.name (.positional 1)
        ⟨[.suspended (.error (.unknownType "spline"))]⟩).1
      ((run {} [.signal .init1]).dispatch 0 .usual b.name (.positional 1)
        ⟨[.suspended (.error (.unknownType "spline"))]⟩).2 := by
  obtain ⟨b, hb, hcall⟩ := dispatch_in_order {} [.signal .init1] initialized_run_init1
    ⟨"v3d vecx( num v )", Standard.component fun v x => { v with x := x }⟩
    (by simp [Standard.specs, Standard.vectorSpecs])
  have hsize : (Arguments.positional 1).size = b.signature.arity := by
    simp only [Standard.Spec.builtin, Builtin.ofText, parse_vecx] at hb
    cases hb
    rfl
  exact ⟨b, initialized_run_init1, hb, hsize, hcall 0 .usual _ _ hsize⟩

/-! ## §3 What comes out -/

/-- An argument that came to a payload is not what is expected: it has to be of another type, or
it cannot be read in one of the ways in which builtins read. -/
def Refuses (arg : Argument) (p : Payload) (expected : String) : Prop :=
  (∃ hint, arg.hint = some hint ∧ p.typeKey ≠ hint ∧ expected = hint.render) ∨
    (expected ∈ ["number", "string", "Color", "ColorImage"] ∧
      ∃ reading : Reading, reading.fault? p = some (.mismatch expected p.typeName))

/-- What a call of a builtin with the given signature may come to. -/
inductive Typed (types : Registry) (signature : Signature) (args : Arguments) (frame : Frame) :
    Except Failure Value → Prop
  /-- A value of its own, of the declared type. -/
  | declared {v : Value} (howned : v.ownership = .owned)
      (htype : signature.result = some v.typeName) : Typed types signature args frame (.ok v)
  /-- What the registry constructs for the type that the argument names. -/
  | object {arg : Argument} {p : Payload} {name : String} {e : TypeEntry}
      (hname : signature.name = "create_object") (hargs : args.items = [arg])
      (hp : frame.outcome arg.slot = .ok p) (htext : p.toText? = some name)
      (hfind : types.findNamed? name = some e) :
      Typed types signature args frame (.ok (.owned e.fresh))
  | numeral {v : Value} (hname : signature.name = "string_to_num") (howned : v.ownership = .owned)
      (htype : v.typeName = "f64" ∨ v.typeName = "i64") : Typed types signature args frame (.ok v)
  | arity (hsize : args.size ≠ signature.arity) :
      Typed types signature args frame
        (.error (.error (.arity signature.name signature.arity args.size)))
  | argumentIndex {arg : Argument} (harg : arg ∈ args.items) :
      Typed types signature args frame (.error (.error (.argumentIndex arg.slot frame.size)))
  | mismatch {arg : Argument} {p : Payload} {expected : String} (harg : arg ∈ args.items)
      (hp : frame.outcome arg.slot = .ok p) (hrefuses : Refuses arg p expected) :
      Typed types signature args frame
        (.error (nameTypes types (.error (.mismatch expected p.typeName))))
  | invalidArgument {name : String} {objection : Objection} :
      Typed types signature args frame (.error (.error (.invalidArgument name objection)))
  | unknownType {name : String} (hname : signature.name = "create_object") :
      Typed types signature args frame (.error (.error (.unknownType name)))
  | beyondLayout (hname : signature.name = "create_string_fa") :
      Typed types signature args frame (.error .beyondLayout)

variable {types : Registry} {signature : Signature} {reading : Reading} {e : Error}

/-- The fault of an argument, as an error of a call. -/
theorem typed_of_fault (hthunks : frame.Objecting) {arg : Argument} (harg : arg ∈ args.items)
    (hfault : arg.fault? frame reading = some e) :
    Typed types signature args frame (.error (nameTypes types (.error e))) := by
  rcases Argument.fault?_eq_some hfault with houtcome |
    ⟨p, hp, ⟨hint, hhint, hkey, rfl⟩ | hreading⟩
  · rcases Frame.outcome_error_cases hthunks houtcome with rfl | ⟨name, objection, rfl⟩
    · exact .argumentIndex harg
    · exact .invalidArgument
  · exact .mismatch harg hp (.inl ⟨hint, hhint, hkey, rfl⟩)
  · rcases reading.fault?_cases hreading with ⟨expected, hexpected, rfl⟩ | ⟨name, objection, rfl⟩
    · exact .mismatch harg hp (.inr ⟨hexpected, reading, hreading⟩)
    · exact .invalidArgument

/-- What is allowed to a builtin, as the outcome of a call. -/
theorem typed_of_allowed {payloads : List Payload} {outcome : Except Failure Answer}
    (hpayloads : List.Forall₂ (fun arg p => arg.outcome frame = .ok p) args.items payloads)
    (h : Standard.Allowed types signature payloads outcome) (files : Tree) :
    Typed types signature args frame
      ((outcome.mapError (nameTypes types)).map fun answer => (answer.settle files).1) := by
  cases h with
  | made h => exact .declared rfl h
  | file h => exact .declared rfl h
  | objection => exact .invalidArgument
  | object hname htext hfind =>
    cases hargs : args.items with
    | nil => rw [hargs] at hpayloads; cases hpayloads
    | cons arg rest =>
      rw [hargs] at hpayloads
      cases hpayloads with
      | cons hp hrest =>
        cases hrest
        exact .object hname hargs (arg.outcome_slot hp) htext hfind
  | unknown hname _ => exact .unknownType hname
  | numeral hname hkind =>
    refine .numeral hname rfl ?_
    rcases hkind with hkind | hkind
    · exact .inl (congrArg Kind.typeName hkind)
    · exact .inr (congrArg Kind.typeName hkind)
  | unreadable hmem h =>
    obtain ⟨arg, harg, hp⟩ := exists_mem_of_forall₂ hpayloads.flip _ hmem
    exact .mismatch harg (arg.outcome_slot hp) (.inr ⟨Reading.expected_of_mismatch h, _, h⟩)
  | beyond hname => exact .beyondLayout hname

/-- The value that a call comes to is the answer of the entry, after what it asks of files. -/
theorem call_fst (engine : Engine) (clock : Float) (memory : Memory) (name : String)
    (args : Arguments) (frame : Frame) (files : Tree) :
    (engine.call clock memory name args frame files).1 =
      (engine.dispatch clock memory name args frame).1.map fun answer =>
        (answer.settle files).1 := by
  unfold call
  rcases engine.dispatch clock memory name args frame with ⟨_ | _, _⟩ <;> rfl

theorem typed_call (hget : engine.builtins.get? name = some b)
    (hconforms : Standard.Conforms (engine.host clock memory) b.signature b.entry)
    (hthunks : frame.Objecting) (files : Tree) :
    Typed engine.types b.signature args frame
      (engine.call clock memory name args frame files).1 := by
  rw [call_fst, dispatch_of_get? hget]
  rcases hconforms.outcome_cases args frame with
    ⟨hsize, hrun⟩ | ⟨arg, harg, reading, e, hfault, hrun⟩ | ⟨payloads, hpayloads, hallowed⟩
  · rw [hrun]
    exact .arity hsize
  · rw [hrun]
    exact typed_of_fault hthunks harg hfault
  · exact typed_of_allowed hpayloads hallowed files

/-- **Calls are typed.** Whatever has happened to an engine, a call that finds a builtin which a
stage has added comes to a value of the declared type or to an error for which its arguments are
to blame. -/
theorem call_typed (config : Config) (events : List Event) (name : String) (b : Builtin)
    (hinstalled : b ∈ Engine.installed { config := config } events)
    (hget : (run { config := config } events).builtins.get? name = some b)
    (clock : Float) (memory : Memory) (args : Arguments) (frame : Frame)
    (hthunks : frame.Objecting) (files : Tree) :
    Typed (run { config := config } events).types b.signature args frame
      ((run { config := config } events).call clock memory name args frame files).1 := by
  have hsound := sound_run config events
  generalize run { config := config } events = engine at hget hsound
  obtain ⟨spec, hspec, hbuiltin⟩ := hsound.described b hinstalled
  obtain ⟨b', hb', hconforms⟩ := Standard.conforms_of_mem_specs
    (engine.host clock memory) (hsound.stocked (List.ne_nil_of_mem hinstalled))
    hsound.valid.types spec hspec
  rw [hbuiltin] at hb'
  cases hb'
  exact typed_call hget hconforms hthunks files

/-- A call of `vecx` on a number that has yet to be computed. -/
theorem call_typed_vecx : ∃ b,
    b ∈ Engine.installed {} [.signal .init1] ∧
    (run {} [.signal .init1]).builtins.get? "vecx" = some b ∧
    Frame.Objecting ⟨[.suspended (.ok (.number 2))]⟩ ∧
    Typed (run {} [.signal .init1]).types b.signature (.positional 1)
      ⟨[.suspended (.ok (.number 2))]⟩
      ((run {} [.signal .init1]).call 0 .usual "vecx" (.positional 1)
        ⟨[.suspended (.ok (.number 2))]⟩ {}).1 := by
  have hsound := sound_run {} [.signal .init1]
  obtain ⟨b, hb, hbuiltin⟩ := (hsound.complete initialized_run_init1).builtins
    ⟨"v3d vecx( num v )", Standard.component fun v x => { v with x := x }⟩
    (by simp [Standard.specs, Standard.vectorSpecs])
  have hname : b.name = "vecx" := by
    simp only [Standard.Spec.builtin, Builtin.ofText, parse_vecx] at hbuiltin
    cases hbuiltin
    rfl
  have hget : (run {} [.signal .init1]).builtins.get? "vecx" = some b :=
    hsound.valid.builtins.get?_iff.mpr ⟨hb, hname⟩
  have hinstalled : b ∈ Engine.installed {} [.signal .init1] := by
    have hnone : ({} : Engine).builtins.builtins.length = 0 := rfl
    rw [installed_signal, hnone, List.drop_zero]
    exact hb
  have hthunks : Frame.Objecting ⟨[.suspended (.ok (.number 2))]⟩ := by
    intro s hs e he
    obtain rfl := List.mem_singleton.mp hs
    cases he
  exact ⟨b, hinstalled, hget, hthunks,
    call_typed {} [.signal .init1] "vecx" b hinstalled hget 0 .usual _ _ hthunks {}⟩

/-! ## §4 The number of arguments -/

/-- The error objects to the number of arguments. -/
def CountsWrong : Error → Prop
  | .arity _ _ _ => True
  | _ => False

/-- Naming a type in an error does not make it an objection to the number of arguments. -/
theorem nameTypes_countsWrong {failure : Failure} (h : nameTypes types failure = .error e)
    (he : CountsWrong e) : failure = .error e := by
  unfold nameTypes at h
  split at h
  · split at h
    · cases h
      exact False.elim he
    · cases h
      exact False.elim he
  · exact h

/-- The fault of an argument is no objection to the number of arguments, unless an expression
fails with one. -/
theorem not_countsWrong_of_fault {arg : Argument}
    (hthunks : ∀ s ∈ frame.slots, ∀ e, s.expression = some (.error e) → ¬ CountsWrong e)
    (hfault : arg.fault? frame reading = some e) : ¬ CountsWrong e := by
  rcases Argument.fault?_eq_some hfault with houtcome |
    ⟨p, -, ⟨hint, -, -, rfl⟩ | hreading⟩
  · rcases Frame.outcome_eq_error houtcome with rfl | ⟨s, hs, hexpr⟩
    · exact id
    · exact hthunks s hs e hexpr
  · exact id
  · rcases reading.fault?_cases hreading with ⟨_, _, rfl⟩ | ⟨_, _, rfl⟩
    · exact id
    · exact id

/-- Nothing that is allowed to a builtin objects to the number of arguments. -/
theorem not_countsWrong_of_allowed {payloads : List Payload} {outcome : Except Failure Answer}
    (h : Standard.Allowed types signature payloads outcome) (he : outcome = .error (.error e)) :
    ¬ CountsWrong e := by
  cases h with
  | made _ => cases he
  | file _ => cases he
  | object _ _ _ => cases he
  | numeral _ _ => cases he
  | beyond _ => cases he
  | objection | unknown | unreadable =>
    cases he
    exact id

/-- How calls of a builtin count their arguments: the number has to be the one in its signature,
and nothing else is objected to as a wrong number. -/
structure CountsArguments (engine : Engine) (b : Builtin) : Prop where
  found : engine.builtins.get? b.name = some b
  /-- The signature is the one that its standard text declares. -/
  declared : ∃ spec ∈ Standard.specs, Signature.parse spec.signature = .ok b.signature
  /-- Any other number is objected to, and no slot is asked for. -/
  refused : ∀ (clock : Float) (memory : Memory) (args : Arguments) (frame : Frame),
    args.size ≠ b.signature.arity →
    engine.dispatch clock memory b.name args frame =
      (.error (.error (.arity b.name b.signature.arity args.size)), frame)
  /-- The right number never is, whatever else the call comes to. -/
  accepted : ∀ (clock : Float) (memory : Memory) (args : Arguments) (frame : Frame),
    args.size = b.signature.arity →
    (∀ s ∈ frame.slots, ∀ e, s.expression = some (.error e) → ¬ CountsWrong e) →
    ∀ e, (engine.dispatch clock memory b.name args frame).1 = .error (.error e) →
      ¬ CountsWrong e

theorem countsArguments_of_conforms {spec : Standard.Spec}
    (hget : engine.builtins.get? b.name = some b) (hspec : spec ∈ Standard.specs)
    (hbuiltin : spec.builtin = .ok b)
    (hconforms : ∀ clock memory,
      Standard.Conforms (engine.host clock memory) b.signature b.entry) :
    CountsArguments engine b := by
  constructor
  case found => exact hget
  case declared => exact ⟨spec, hspec, (Standard.Spec.builtin_eq_ok hbuiltin).1⟩
  case refused =>
    intro clock memory args frame hsize
    rw [dispatch_of_get? hget, (hconforms clock memory).run_of_count hsize]
    rfl
  case accepted =>
    intro clock memory args frame hsize hthunks e he hwrong
    rw [dispatch_of_get? hget] at he
    -- The entry itself fails in this way, before types are named.
    have hentry : (b.entry (engine.host clock memory) b.signature args frame).1 =
        .error (.error e) := by
      cases hrun : (b.entry (engine.host clock memory) b.signature args frame).1 with
      | ok answer =>
        rw [hrun] at he
        cases he
      | error failure =>
        rw [hrun] at he
        exact congrArg _ (nameTypes_countsWrong (Except.error.inj he) hwrong)
    rcases (hconforms clock memory).outcome_cases args frame with
      ⟨hne, -⟩ | ⟨arg, -, reading, e', hfault, hrun⟩ | ⟨payloads, -, hallowed⟩
    · exact hne hsize
    · rw [hentry] at hrun
      cases hrun
      exact not_countsWrong_of_fault hthunks hfault hwrong
    · exact not_countsWrong_of_allowed hallowed hentry hwrong

/-- **Calls count their arguments.** Whatever has happened to an engine, a builtin that a stage has
added objects to any other number of arguments than its signature has, before it asks for any, and
never to that number; and once `init1` has succeeded, this goes for every standard builtin. -/
theorem dispatch_counts_arguments (config : Config) (events : List Event) :
    (∀ b ∈ Engine.installed { config := config } events,
      CountsArguments (run { config := config } events) b) ∧
    ((run { config := config } events).initialized = true →
      ∀ spec ∈ Standard.specs, ∃ b, spec.builtin = .ok b ∧
        CountsArguments (run { config := config } events) b) := by
  have hsound := sound_run config events
  constructor
  · intro b hb
    obtain ⟨spec, hspec, hbuiltin⟩ := hsound.described b hb
    exact countsArguments_of_conforms (get?_of_installed hb) hspec hbuiltin
      (conforms_of_installed hb)
  · intro hinit spec hspec
    obtain ⟨hstocked, hall⟩ := hsound.complete hinit
    obtain ⟨b, hb, hbuiltin⟩ := hall spec hspec
    refine ⟨b, hbuiltin, countsArguments_of_conforms
      (hsound.valid.builtins.get?_iff.mpr ⟨hb, rfl⟩) hspec hbuiltin fun clock memory => ?_⟩
    obtain ⟨b', hb', hconforms⟩ := Standard.conforms_of_mem_specs
      ((run { config := config } events).host clock memory) hstocked hsound.valid.types spec hspec
    rw [hbuiltin] at hb'
    cases hb'
    exact hconforms

end Engine

end SceneScript
