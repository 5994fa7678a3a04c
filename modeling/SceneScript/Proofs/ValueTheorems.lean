/-
SceneScript.Proofs.ValueTheorems — what values may rely on, whatever steps a host makes.

A value carries the key of its type beside its payload, and nothing but the
discipline of the operations keeps the two together. `Effect` says all that a step
can do to the variables of a session: nothing, a change in place of an owned payload
to another of its kind, a value put into a variable, or a variable taken away
(`effect_step`). So keys fit after any run of steps (`afterSteps_keyed`), and what
is not changed in place by name is not changed at all (`Effect.kept`).

That a value put into a variable has the right key is clear for all but one kind of
step: a call stores what the builtin answers. The builtins of a session are standard
ones and probes, and all of these answer with payloads of their own
(`answer_of_call`), which needs the history of the engine (`Hosted`).
-/
import SceneScript.Proofs.ConversionTheorems
import SceneScript.Proofs.DispatchTheorems
import SceneScript.Proofs.FieldTheorems
import SceneScript.Proofs.ImageTheorems

namespace SceneScript

/-! ## §1 Values -/

namespace Value

variable {v v' : Value} {p : Payload} {r : Registry} {type : Key}

/-- The key of the value is that of its payload's type. -/
def Keyed (v : Value) : Prop := v.key = Key.ofName v.payload.typeName

/-- The other value differs at most in what its payload holds: the type of the payload, the key and
the ownership are the same. -/
structure Alike (v v' : Value) : Prop where
  kind : v'.payload.kind = v.payload.kind
  key : v'.key = v.key
  ownership : v'.ownership = v.ownership

theorem Alike.refl (v : Value) : v.Alike v := ⟨rfl, rfl, rfl⟩

theorem alike_withPayload (hkind : p.kind = v.payload.kind) : v.Alike (v.withPayload p) :=
  ⟨hkind, rfl, rfl⟩

theorem Alike.keyed (h : v.Alike v') (hkeyed : v.Keyed) : v'.Keyed := by
  have hname : v'.payload.typeName = v.payload.typeName := congrArg Kind.typeName h.kind
  rw [Keyed, h.key, hname]
  exact hkeyed

theorem payload_intoOwned (v : Value) : v.intoOwned.payload = v.payload := by
  unfold intoOwned
  split <;> rfl

theorem ownership_intoOwned (v : Value) : v.intoOwned.ownership = .owned := by
  unfold intoOwned
  split
  · assumption
  · rfl
  · rfl

theorem Keyed.intoOwned (h : v.Keyed) : v.intoOwned.Keyed := by
  unfold Value.intoOwned
  split
  · exact h
  · rfl
  · rfl

/-- A value that is made has the key that fits. -/
theorem keyed_create (h : create r type = .ok v) : v.ownership = .owned ∧ v.Keyed := by
  obtain ⟨p, -, rfl⟩ := exists_of_map_eq_ok h
  exact ⟨rfl, rfl⟩

theorem keyed_createNamed {name : String} (h : createNamed r name = .ok v) : v.Keyed := by
  obtain ⟨p, -, rfl⟩ := exists_of_map_eq_ok h
  rfl

/-- What a conversion gives is owned and has the key that fits. -/
theorem keyed_convert (h : v.convert r type = .ok v') : v'.ownership = .owned ∧ v'.Keyed := by
  unfold convert at h
  split at h
  · cases h
  · next fresh hfresh =>
    obtain ⟨howned, hkeyed⟩ := keyed_create hfresh
    obtain ⟨p, hp, rfl⟩ := exists_of_map_eq_ok h
    exact ⟨howned, (alike_withPayload (Registry.copyConvert_spec hp).1).keyed hkeyed⟩

/-- What is not owned cannot be had for changing. -/
theorem expectOwned_of_not_owned (h : v.ownership ≠ .owned) (kind : Kind) :
    ∃ e, v.expectOwned kind = .error e := by
  rw [expectOwned, if_neg h]
  exact ⟨_, rfl⟩

end Value

/-! ## §2 Operations in place -/

theorem Payload.kind_assign (target source : Payload) :
    (target.assign source).2.kind = target.kind := by
  unfold assign
  split
  · assumption
  · rfl

theorem Registry.kind_writeField (r : Registry) (p : Payload) (path : String) (x : Float) :
    (r.writeField p path x).2.kind = p.kind := by
  unfold writeField
  split
  · rfl
  · split
    · rfl
    · split
      · exact p.kind_setSlots _
      · rfl

/-- All operations in place that can fail leave what they were given when they do, and those that
work on payloads of any type leave a payload of the same type. -/
structure Registry.Careful (r : Registry) (memory : Memory) : Prop where
  rowSetSize : ∀ count fill, Harmless (ColorRow.setSize memory count fill)
  imageSetSize : ∀ width height fill, Harmless (ColorImage.setSize memory width height fill)
  setPixel : ∀ x y c, Harmless? (ColorImage.setPixel · x y c)
  assign : ∀ source, Harmless? (Payload.assign · source)
  setSlots : ∀ slots, Harmless? (Payload.setSlots · slots)
  setField : ∀ path x, Harmless (r.writeField · path x)
  copyConvert : ∀ source, Harmless (r.copyOnto · source)
  kind_assign : ∀ target source : Payload, (target.assign source).2.kind = target.kind
  kind_setSlots : ∀ (p : Payload) slots, (p.setSlots slots).2.kind = p.kind
  kind_setField : ∀ p path x, (r.writeField p path x).2.kind = p.kind
  kind_copyConvert : ∀ target source, (r.copyOnto target source).2.kind = target.kind

theorem Registry.careful (r : Registry) (memory : Memory) : r.Careful memory where
  rowSetSize := ColorRow.harmless_setSize memory
  imageSetSize := ColorImage.harmless_setSize memory
  setPixel := ColorImage.harmless_setPixel
  assign := Payload.harmless_assign
  setSlots := Payload.harmless_setSlots
  setField := r.harmless_writeField
  copyConvert := r.harmless_copyOnto
  kind_assign := Payload.kind_assign
  kind_setSlots := Payload.kind_setSlots
  kind_setField := r.kind_writeField
  kind_copyConvert := r.kind_copyOnto

/-! ## §3 What calls come to -/

/-- The answer is a payload of its own, or the outcome of an operation on files. -/
def Answer.Own (answer : Answer) : Prop := (∃ p, answer = .payload p) ∨ ∃ op, answer = .file op

theorem Answer.Own.settle {answer : Answer} (h : answer.Own) (files : Tree) :
    ∃ p, (answer.settle files).1 = .owned p := by
  rcases h with ⟨p, rfl⟩ | ⟨op, rfl⟩
  · exact ⟨p, rfl⟩
  · exact ⟨.boolean (files.perform op).1, rfl⟩

/-- Whatever it is called with, the builtin answers with what is its own. -/
def Builtin.AnswersOwn (b : Builtin) (host : Host) : Prop :=
  ∀ args frame answer, (b.entry host b.signature args frame).1 = .ok answer → answer.Own

theorem Standard.Conforms.answersOwn {host : Host} {b : Builtin}
    (h : Conforms host b.signature b.entry) : b.AnswersOwn host := by
  intro args frame answer hrun
  have hcases := h.outcome_cases args frame
  rw [hrun] at hcases
  rcases hcases with ⟨-, herror⟩ | ⟨_, -, _, _, -, herror⟩ | ⟨payloads, -, hallowed⟩
  · cases herror
  · cases herror
  · cases hallowed with
    | made _ => exact .inl ⟨_, rfl⟩
    | file _ => exact .inr ⟨_, rfl⟩
    | object _ _ _ => exact .inl ⟨_, rfl⟩
    | numeral _ _ => exact .inl ⟨_, rfl⟩

/-- The builtin is one that a session can add. -/
def Builtin.IsProbe (b : Builtin) : Prop := ∃ probe : Probe, b.entry = probe.entry

theorem Builtin.IsProbe.answersOwn {b : Builtin} (h : b.IsProbe) (host : Host) :
    b.AnswersOwn host := by
  obtain ⟨probe, hentry⟩ := h
  intro args frame answer hrun
  rw [hentry] at hrun
  cases probe with
  | argumentCount =>
    cases hrun
    exact .inl ⟨_, rfl⟩
  | ownName =>
    cases hrun
    exact .inl ⟨_, rfl⟩
  | sum =>
    simp only [Probe.entry] at hrun
    split at hrun
    · split at hrun
      · cases hrun
        exact .inl ⟨_, rfl⟩
      · cases hrun
    · cases hrun
  | complaint =>
    simp only [Probe.entry] at hrun
    split at hrun
    · cases hrun
    · split at hrun <;> cases hrun

namespace Engine

/-- The engine began empty, and the builtins that a host has added to it are probes. -/
def Hosted (engine : Engine) : Prop :=
  ∃ config events, engine = run { config := config } events ∧
    ∀ b, .builtin b ∈ events → b.IsProbe

variable {engine : Engine}

theorem hosted_new (config : Config) : Hosted { config := config } :=
  ⟨config, [], rfl, fun _ hb => absurd hb List.not_mem_nil⟩

theorem Hosted.after (h : engine.Hosted) {event : Event}
    (hprobe : ∀ b, event = .builtin b → b.IsProbe) : (engine.after event).Hosted := by
  obtain ⟨config, events, rfl, hevents⟩ := h
  refine ⟨config, events ++ [event], ?_, fun b hb => ?_⟩
  · rw [run, run, List.foldl_append, List.foldl_cons, List.foldl_nil]
  · rcases List.mem_append.mp hb with hb | hb
    · exact hevents b hb
    · exact hprobe b (List.mem_singleton.mp hb).symm

theorem Hosted.signal (h : engine.Hosted) (s : Signal) : (engine.signal s).2.Hosted := by
  have hafter : (engine.after (.signal s)).Hosted := h.after fun _ hb => nomatch hb
  exact hafter

/-- What a call comes to is a payload of its own. -/
theorem Hosted.call (h : engine.Hosted) {clock : Float} {memory : Memory} {name : String}
    {args : Arguments} {frame : Frame} {files : Tree} {v : Value}
    (hcall : (engine.call clock memory name args frame files).1 = .ok v) :
    ∃ p, v = .owned p := by
  obtain ⟨config, events, rfl, hevents⟩ := h
  rw [call_fst] at hcall
  cases hget : (run { config := config } events).builtins.get? name with
  | none => simp [dispatch, hget, Except.map] at hcall
  | some b =>
    have hown : b.AnswersOwn ((run { config := config } events).host clock memory) := by
      rcases installed_or_added hget with hinstalled | hadded
      · exact (conforms_of_installed hinstalled clock memory).answersOwn
      · exact (hevents b hadded).answersOwn _
    rw [dispatch_of_get? hget] at hcall
    cases hrun : (b.entry ((run { config := config } events).host clock memory) b.signature args
        frame).1 with
    | error failure => simp [hrun, Except.mapError, Except.map] at hcall
    | ok answer =>
      obtain ⟨p, hp⟩ := (hown args frame answer hrun).settle files
      simp only [hrun, Except.mapError, Except.map, Except.ok.injEq] at hcall
      exact ⟨p, hcall.symm.trans hp⟩

end Engine

/-! ## §4 What a step does to variables -/

/-- The variable in which a step puts a value in place of what was there, or which it takes
away. -/
def Step.replaced? : Step → Option String
  | .dispatch _ _ _ into => into
  | .create _ into => into
  | .set _ _ into => some into
  | .clone _ into => into
  | .intoOwned var => some var
  | .release var => some var
  | .convert _ _ into => into
  | .argsGet _ _ _ into => into
  | _ => none

namespace Session

variable {s s' : Session} {step : Step} {var : String} {v : Value}

/-- The keys of all values in variables fit. -/
def Keyed (s : Session) : Prop := ∀ var v, s.valueOf? var = some v → v.Keyed

/-- All that a step can do to the variables and to the engine of a session. -/
inductive Effect (s : Session) (step : Step) (s' : Session) : Prop
  | same (hvars : s'.vars = s.vars) (hengine : s'.engine = s.engine)
  /-- Something happens to the engine. -/
  | hosted (event : Engine.Event) (hvars : s'.vars = s.vars)
      (hengine : s'.engine = s.engine.after event) (hprobe : ∀ b, event = .builtin b → b.IsProbe)
  /-- An owned payload is changed to another of its kind. -/
  | changed (var : String) (v : Value) (p : Payload) (htarget : step.target? = some var)
      (hv : s.valueOf? var = some v) (howned : v.ownership = .owned)
      (hkind : p.kind = v.payload.kind) (hvars : s'.vars = putNamed var (v.withPayload p) s.vars)
      (hengine : s'.engine = s.engine)
  /-- A value is put into a variable. -/
  | placed (var : String) (v : Value) (hreplaced : step.replaced? = some var)
      (hv : s.Keyed → v.Keyed) (hvars : s'.vars = putNamed var v s.vars)
      (hengine : s'.engine = s.engine)
  /-- A variable is taken away. -/
  | released (var : String) (hreplaced : step.replaced? = some var)
      (hvars : s'.vars = s.vars.filter fun (n, _) => n ≠ var) (hengine : s'.engine = s.engine)

theorem Effect.refl (s : Session) (step : Step) : Effect s step s := .same rfl rfl

theorem Effect.setFrame (h : Effect s step s') (name : String) (f : Frame) :
    Effect s step (s'.setFrame name f) := by
  cases h with
  | same hvars hengine => exact .same hvars hengine
  | hosted event hvars hengine hprobe => exact .hosted event hvars hengine hprobe
  | changed var v p htarget hv howned hkind hvars hengine =>
    exact .changed var v p htarget hv howned hkind hvars hengine
  | placed var v hreplaced hv hvars hengine => exact .placed var v hreplaced hv hvars hengine
  | released var hreplaced hvars hengine => exact .released var hreplaced hvars hengine

theorem effect_ask (f : Value → Reply) : Effect s step (s.ask var f).2 := by
  unfold ask
  split <;> exact .refl s step

theorem effect_change {α β : Type} {form : Form α} {op : α → β × α} {reply : β → Payload → Reply}
    (htarget : step.target? = some var) : Effect s step (s.change var form op reply).2 := by
  obtain ⟨v, a, hv, howned, ha, hstep⟩ | ⟨-, r, -, hstep⟩ := change_cases s var form op reply
  · rw [hstep]
    have hkind : (form.wrap (op a).2).kind = v.payload.kind := by
      rw [ha, form.kind_wrap, form.kind_wrap]
    exact .changed var v _ htarget hv howned hkind rfl rfl
  · rw [hstep]
    exact .refl s step

theorem effect_mutate {β : Type} {absent : Refusal} {op : Payload → β × Payload}
    {reply : β → Payload → Reply} (htarget : step.target? = some var)
    (hkind : ∀ p, (op p).2.kind = p.kind) : Effect s step (s.mutate var absent op reply).2 := by
  obtain ⟨v, hv, howned, hstep⟩ | ⟨r, -, hstep⟩ := mutate_cases s var absent op reply
  · rw [hstep]
    exact .changed var v _ htarget hv howned (hkind v.payload) rfl rfl
  · rw [hstep]
    exact .refl s step

theorem effect_store {into : Option String} (hreplaced : step.replaced? = into)
    (hv : s.Keyed → v.Keyed) (hvars : s'.vars = s.vars) (hengine : s'.engine = s.engine) :
    Effect s step (s'.store into v) := by
  cases into with
  | none => exact .same hvars hengine
  | some name => exact .placed name v hreplaced hv (congrArg (putNamed name v) hvars) hengine

theorem effect_keep {into : Option String} {made : Except Error Value}
    (hreplaced : step.replaced? = into) (hv : ∀ v, made = .ok v → v.Keyed) :
    Effect s step (s.keep into made).2 := by
  cases made with
  | error e => exact .refl s step
  | ok v => exact effect_store hreplaced (fun _ => hv v rfl) rfl rfl

theorem effect_callOn (h : s.engine.Hosted) {name : String} {args : Option Arguments}
    {into : Option String} {frame : Frame} (hreplaced : step.replaced? = into) :
    Effect s step (s.callOn name args into frame).2.2 := by
  unfold callOn
  cases hcall : s.engine.call s.clock s.memory name (args.getD frame.arguments) frame s.files with
  | mk outcome rest =>
    obtain ⟨frame', files⟩ := rest
    cases outcome with
    | error failure => exact .same rfl rfl
    | ok v =>
      obtain ⟨p, rfl⟩ := h.call (congrArg Prod.fst hcall)
      exact effect_store hreplaced (fun _ => rfl) rfl rfl

theorem effect_dispatch (h : s.engine.Hosted) {name : String} {source : CallSource}
    {args : Option Arguments} {into : Option String} (hreplaced : step.replaced? = into) :
    Effect s step (s.dispatch name source args into).2 := by
  unfold dispatch
  cases source with
  | named frameName =>
    cases hframe : s.frame? frameName with
    | none =>
      simp only [hframe]
      exact .refl s step
    | some frame =>
      simp only [hframe]
      exact (effect_callOn h hreplaced).setFrame _ _
  | fresh slots =>
    cases hslots : slots.mapM s.slotOf with
    | error reply =>
      simp only [hslots]
      exact .refl s step
    | ok slots =>
      simp only [hslots]
      exact effect_callOn h hreplaced

/-- What an argument comes to is a shared view of a slot. -/
theorem get_eq_shared {args : Arguments} {i : Nat} {f : Frame} (h : (args.get i f).1 = .ok v) :
    ∃ p, v = .shared p := by
  have heval : ∀ slot v, (f.eval slot).1 = .ok v → ∃ p, v = .shared p := by
    intro slot v hv
    rw [Frame.eval_fst] at hv
    obtain ⟨p, -, hp⟩ := exists_of_map_eq_ok hv
    exact ⟨p, hp.symm⟩
  unfold Arguments.get at h
  split at h
  · cases h
  · next arg _ =>
    split at h
    · cases h
    · next v' f' hslot =>
      have hshared := heval arg.slot v' (by rw [hslot])
      split at h
      · cases h
        exact hshared
      · split at h
        · cases h
          exact hshared
        · cases h

theorem effect_argsGet {frame : String} {index : Nat} {args : Option Arguments}
    {into : Option String} :
    Effect s (.argsGet frame index args into) (s.step (.argsGet frame index args into)).2 := by
  simp only [Session.step]
  cases s.frame? frame with
  | none => exact .refl s _
  | some f =>
    simp only
    split
    · exact .same rfl rfl
    · next v hget =>
      obtain ⟨p, rfl⟩ := get_eq_shared hget
      exact effect_store rfl (fun _ => rfl) rfl rfl

/-- **Effects.** No step does anything else to the variables. -/
theorem effect_step (h : s.engine.Hosted) (step : Step) : Effect s step (s.step step).2 := by
  cases step with
  | signal stage => exact .hosted (.signal stage) rfl rfl (fun _ hb => by cases hb)
  | dispatch name source args into => exact effect_dispatch h rfl
  | registerBuiltin signature probe =>
    simp only [Session.step]
    cases hb : Builtin.ofText signature probe.entry with
    | error e => exact .refl s _
    | ok b =>
      refine .hosted (.builtin b) rfl rfl fun b' hb' => ⟨probe, ?_⟩
      cases hb'
      unfold Builtin.ofText at hb
      split at hb
      · cases hb
        rfl
      · cases hb
  | tableRegister signature probe =>
    simp only [Session.step]
    split <;> exact .same rfl rfl
  | registerType request => exact .hosted (.type request) rfl rfl (fun _ hb => by cases hb)
  | shareConversion type source =>
    simp only [Session.step]
    split
    · exact .refl s _
    · next conversion _ =>
      exact .hosted (.type (.conversion type conversion)) rfl rfl (fun _ hb => by cases hb)
  | create type into =>
    refine effect_keep rfl fun v hv => ?_
    cases type with
    | named name => exact Value.keyed_createNamed hv
    | keyed key => exact (Value.keyed_create hv).2
  | set d ownership into =>
    simp only [Session.step]
    split
    · exact .refl s _
    · next p _ => exact .placed into (.wrap ownership p) rfl (fun _ => rfl) rfl rfl
  | clone var into =>
    simp only [Session.step]
    cases hv : s.valueOf? var with
    | none => exact .refl s _
    | some v => exact effect_store rfl (fun hs => hs var v hv) rfl rfl
  | intoOwned var =>
    simp only [Session.step]
    cases hv : s.valueOf? var with
    | none => exact .refl s _
    | some v => exact .placed var _ rfl (fun hs => (hs var v hv).intoOwned) rfl rfl
  | release var =>
    simp only [Session.step]
    split
    · exact .refl s _
    · exact .released var rfl rfl rfl
  | convert var type into =>
    simp only [Session.step]
    cases s.valueOf? var with
    | none => exact .refl s _
    | some v => exact effect_keep rfl fun w hw => (Value.keyed_convert hw).2
  | copyConvert var source =>
    simp only [Session.step]
    cases s.valueOf? source with
    | none => exact .refl s _
    | some v => exact effect_mutate rfl (s.engine.types.kind_copyOnto · v.payload)
  | assign var source =>
    simp only [Session.step]
    cases s.valueOf? source with
    | none => exact .refl s _
    | some v => exact effect_mutate rfl (Payload.kind_assign · v.payload)
  | setSlots var slots => exact effect_mutate rfl (Payload.kind_setSlots · slots)
  | setField var path x => exact effect_mutate rfl (s.engine.types.kind_writeField · path x)
  | rowSetSize var size fill => exact effect_change rfl
  | imageSetSize var width height fill => exact effect_change rfl
  | setPixel var x y c => exact effect_change rfl
  | saturate var gamma parallelMin => exact effect_change rfl
  | setRadius var radius pos => exact effect_change rfl
  | framePush frame slot =>
    simp only [Session.step]
    split
    · exact .refl s _
    · split
      · exact .refl s _
      · exact .same rfl rfl
  | frameEval frame slot =>
    simp only [Session.step]
    split
    · exact .refl s _
    · exact .same rfl rfl
  | argsGet frame index args into => exact effect_argsGet
  | frameInfo frame =>
    simp only [Session.step]
    split <;> exact .refl s _
  | get var => exact effect_ask _
  | toNumber var => exact effect_ask _
  | toBool var => exact effect_ask _
  | toText var => exact effect_ask _
  | display var => exact effect_ask _
  | print var => exact effect_ask _
  | isKind var kind => exact effect_ask _
  | expect var kind => exact effect_ask _
  | expectOwned var kind => exact effect_ask _
  | slots var => exact effect_ask _
  | getField var path => exact effect_ask _
  | pixel var x y => exact effect_ask _
  | element var index => exact effect_ask _
  | _ => exact .same rfl rfl

/-! ## §5 What steps preserve -/

/-- What becomes of a variable that is not replaced. -/
theorem Effect.kept (h : Effect s step s') (hreplaced : step.replaced? ≠ some var)
    (hv : s.valueOf? var = some v) : ∃ v', s'.valueOf? var = some v' ∧ v.Alike v' ∧
      (step.target? ≠ some var ∨ v.ownership ≠ .owned → v' = v) := by
  have hsame : s'.valueOf? var = some v → ∃ v', s'.valueOf? var = some v' ∧ v.Alike v' ∧
      (step.target? ≠ some var ∨ v.ownership ≠ .owned → v' = v) :=
    fun hv' => ⟨v, hv', .refl v, fun _ => rfl⟩
  cases h with
  | same hvars _ => exact hsame (by rw [valueOf?, hvars]; exact hv)
  | hosted event hvars _ _ => exact hsame (by rw [valueOf?, hvars]; exact hv)
  | changed target w p htarget hw howned hkind hvars _ =>
    by_cases hvar : var = target
    · subst hvar
      obtain rfl : v = w := Option.some.inj (hv.symm.trans hw)
      refine ⟨v.withPayload p, ?_, Value.alike_withPayload hkind, fun hno => ?_⟩
      · rw [valueOf?, hvars, lookup_putNamed, if_pos rfl]
      · exact absurd howned (hno.resolve_left fun hne => hne htarget)
    · refine hsame ?_
      rw [valueOf?, hvars, lookup_putNamed, if_neg hvar]
      exact hv
  | placed target w htarget _ hvars _ =>
    have hvar : var ≠ target := by
      rintro rfl
      exact hreplaced htarget
    refine hsame ?_
    rw [valueOf?, hvars, lookup_putNamed, if_neg hvar]
    exact hv
  | released target htarget hvars _ =>
    have hvar : var ≠ target := by
      rintro rfl
      exact hreplaced htarget
    refine hsame ?_
    rw [valueOf?, hvars, lookup_filter_name, if_neg hvar]
    exact hv

/-- Keys that fit go on fitting. -/
theorem Effect.keyed (h : Effect s step s') (hkeyed : s.Keyed) : s'.Keyed := by
  have hsame : s'.vars = s.vars → s'.Keyed := by
    intro hvars other v hv
    rw [valueOf?, hvars] at hv
    exact hkeyed other v hv
  have hput : ∀ var w, Value.Keyed w → s'.vars = putNamed var w s.vars → s'.Keyed := by
    intro var w hw hvars other v hv
    rw [valueOf?, hvars, lookup_putNamed] at hv
    split at hv
    · cases hv
      exact hw
    · exact hkeyed other v hv
  cases h with
  | same hvars _ => exact hsame hvars
  | hosted event hvars _ _ => exact hsame hvars
  | changed var v p _ hv _ hkind hvars _ =>
    exact hput var _ ((Value.alike_withPayload hkind).keyed (hkeyed var v hv)) hvars
  | placed var v _ hv hvars _ => exact hput var v (hv hkeyed) hvars
  | released var _ hvars _ =>
    intro other v hv
    rw [valueOf?, hvars, lookup_filter_name] at hv
    split at hv
    · cases hv
    · exact hkeyed other v hv

theorem Effect.engine_hosted (h : Effect s step s') (hhosted : s.engine.Hosted) :
    s'.engine.Hosted := by
  cases h with
  | same _ hengine => exact hengine ▸ hhosted
  | hosted event _ hengine hprobe => exact hengine ▸ hhosted.after hprobe
  | changed _ _ _ _ _ _ _ _ hengine => exact hengine ▸ hhosted
  | placed _ _ _ _ _ hengine => exact hengine ▸ hhosted
  | released _ _ _ hengine => exact hengine ▸ hhosted

/-- A run preserves both, whatever the machine grants. -/
theorem afterSteps_keyed {steps : List (Memory × Step)} (hhosted : s.engine.Hosted)
    (hkeyed : s.Keyed) : (s.afterSteps steps).engine.Hosted ∧ (s.afterSteps steps).Keyed := by
  induction steps generalizing s with
  | nil => exact ⟨hhosted, hkeyed⟩
  | cons first rest ih =>
    obtain ⟨memory, step⟩ := first
    have hroom : { s with memory := memory }.Keyed := hkeyed
    have heffect := effect_step (s := { s with memory := memory }) hhosted step
    exact ih (heffect.engine_hosted hhosted) (heffect.keyed hroom)

theorem hosted_start (config : Config) (standard : Bool) :
    (start config standard).engine.Hosted := by
  have hstandard : (Engine.standard config).2.Hosted := by
    rw [Engine.standard]
    exact (Engine.hosted_new config).signal .init1
  have hpick : ∀ engine engine' : Engine, engine.Hosted → engine'.Hosted →
      (if standard then engine else engine').Hosted := by
    intro engine engine' h h'
    split
    · exact h
    · exact h'
  exact hpick _ _ hstandard (Engine.hosted_new config)

/-! ## §6 Discipline -/

/-- What holds of the values in the variables of a session, and of what steps do to them. -/
structure Disciplined (s : Session) : Prop where
  /-- A value's key is that of its payload's type. -/
  keyed : s.Keyed
  /-- A variable that is not given another value keeps type, key and ownership of the one it has,
  and all of the value unless it is the one that the step changes and is owned. -/
  kept : ∀ step var v, s.valueOf? var = some v → step.replaced? ≠ some var →
    ∃ v', (s.step step).2.valueOf? var = some v' ∧ v.Alike v' ∧
      (step.target? ≠ some var ∨ v.ownership ≠ .owned → v' = v)
  /-- A value that is shared or borrowed is not to be had for changing. -/
  guarded : ∀ var v, s.valueOf? var = some v → v.ownership ≠ .owned →
    (∀ kind, ∃ e, v.expectOwned kind = .error e) ∧
    ∀ step, step.target? = some var → ¬ (s.step step).1.Taken
  /-- The operations in place leave what they were given when they fail, and never change a
  type. -/
  careful : s.engine.types.Careful s.memory
  /-- A change that is not made leaves everything as it was. -/
  failed : ∀ step var, step.target? = some var → ¬ (s.step step).1.Taken → (s.step step).2 = s
  clone : ∀ var into v, s.valueOf? var = some v → ∃ w,
    (s.step (.clone var into)).2 = s.store into w ∧ w.payload = v.payload ∧
      w.ownership = v.ownership ∧ w.Keyed
  intoOwned : ∀ var v, s.valueOf? var = some v → ∃ w,
    (s.step (.intoOwned var)).2 = s.setVariable var w ∧ w.payload = v.payload ∧
      w.ownership = .owned ∧ w.Keyed
  convert : ∀ var type into v, s.valueOf? var = some v →
    (∃ w, s.step (.convert var type into) = (.payload w.payload, s.store into w) ∧
      w.ownership = .owned ∧ w.Keyed) ∨
    ∃ e, s.step (.convert var type into) = (.error e, s)

theorem disciplined (hhosted : s.engine.Hosted) (hkeyed : s.Keyed) : s.Disciplined where
  keyed := hkeyed
  kept step var v hv hreplaced := (effect_step hhosted step).kept hreplaced hv
  guarded var v hv hshared := by
    refine ⟨Value.expectOwned_of_not_owned hshared, fun step htarget => ?_⟩
    have hcases := step_inPlace s htarget
    generalize s.step step = result at hcases
    cases hcases with
    | refused hreply => exact hreply
    | taken p hw howned _ =>
      rw [hv] at hw
      cases hw
      exact absurd howned hshared
  careful := s.engine.types.careful s.memory
  failed step var htarget := step_of_not_taken htarget
  clone var into v hv := by
    refine ⟨v, ?_, rfl, rfl, hkeyed var v hv⟩
    simp only [Session.step, hv]
    rfl
  intoOwned var v hv := by
    refine ⟨v.intoOwned, ?_, v.payload_intoOwned, v.ownership_intoOwned, (hkeyed var v hv).intoOwned⟩
    simp only [Session.step, hv]
  convert var type into v hv := by
    simp only [Session.step, hv]
    cases hw : v.convert s.engine.types type with
    | error e => exact .inr ⟨e, rfl⟩
    | ok w =>
      obtain ⟨howned, hfits⟩ := Value.keyed_convert hw
      exact .inl ⟨w, rfl, howned, hfits⟩

/-- **Values are disciplined**, whatever steps a host has made, and whatever room there is. -/
theorem values_disciplined (config : Config) (standard : Bool) (steps : List (Memory × Step))
    (memory : Memory) :
    { (start config standard).afterSteps steps with memory := memory }.Disciplined := by
  have hnone : (start config standard).Keyed := fun var v hv => nomatch hv
  obtain ⟨hhosted, hkeyed⟩ := afterSteps_keyed (hosted_start config standard) hnone
  exact disciplined hhosted hkeyed

end Session

end SceneScript
