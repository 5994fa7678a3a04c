/-
SceneScript.Proofs.PullTheorems — how steps of a call ask for arguments.

A builtin reads each of its arguments in one of a few ways (`Reading`), and an
argument that cannot be had or cannot be read that way has a fault, which
`Argument.fault?` tells from the frame before the call. `Pulls` is the shape that
all standard builtins have once their arguments are counted: they ask for the
arguments in order, each once, stop at the first with a fault, and then come to
something without looking at the frame again.

From the shape follows what a call does to a frame: up to the first fault its
slots are asked for and no others (`Pulls.run_of_fault`), and without a fault all
are (`Pulls.run_of_complete`).
-/
import SceneScript.Proofs.FrameTheorems
import SceneScript.Standard.Objects
import Mathlib.Data.List.Forall2

namespace SceneScript

/-! ## §1 Readings -/

/-- What a builtin makes of an argument. -/
inductive Reading
  | number
  | text
  | color
  | image
  /-- A number that is the width or height of an image. -/
  | dimension
  /-- The argument as it is. -/
  | anything
deriving DecidableEq, Repr

namespace Reading

/-- Why a payload cannot be read in the given way, if it cannot. -/
def fault? (p : Payload) : Reading → Option Error
  | number =>
    match p.toNumber? with
    | some _ => none
    | none => some (.mismatch "number" p.typeName)
  | text =>
    match p.toText? with
    | some _ => none
    | none => some (.mismatch "string" p.typeName)
  | color => if p.kind = .color then none else some (.mismatch "Color" p.typeName)
  | image => if p.kind = .colorImage then none else some (.mismatch "ColorImage" p.typeName)
  | dimension =>
    match p.toNumber? with
    | none => some (.mismatch "number" p.typeName)
    | some x =>
      if (Number.natural? x).isSome then none
      else some (.invalidArgument "create_image" (.dimension x))
  | anything => none

theorem fault?_text_eq_some_iff {p : Payload} {e : Error} :
    text.fault? p = some e ↔ p.toText? = none ∧ e = .mismatch "string" p.typeName := by
  unfold fault?
  cases p.toText? <;> simp [eq_comm]

theorem fault?_text_eq_none_iff {p : Payload} :
    text.fault? p = none ↔ ∃ s, p.toText? = some s := by
  unfold fault?
  cases p.toText? <;> simp

theorem fault?_number_eq_some_iff {p : Payload} {e : Error} :
    number.fault? p = some e ↔ p.toNumber? = none ∧ e = .mismatch "number" p.typeName := by
  unfold fault?
  cases p.toNumber? <;> simp [eq_comm]

theorem fault?_number_eq_none_iff {p : Payload} :
    number.fault? p = none ↔ ∃ x, p.toNumber? = some x := by
  unfold fault?
  cases p.toNumber? <;> simp

/-- A reading fails because something else is expected, or because it objects to what it reads. -/
theorem fault?_cases {reading : Reading} {p : Payload} {e : Error}
    (h : reading.fault? p = some e) :
    (∃ expected ∈ ["number", "string", "Color", "ColorImage"],
      e = .mismatch expected p.typeName) ∨
    ∃ name objection, e = .invalidArgument name objection := by
  cases reading with
  | number | text =>
    simp only [fault?] at h
    split at h
    · cases h
    · cases h
      exact .inl ⟨_, by simp, rfl⟩
  | color | image =>
    simp only [fault?] at h
    split at h
    · cases h
    · cases h
      exact .inl ⟨_, by simp, rfl⟩
  | dimension =>
    simp only [fault?] at h
    split at h
    · cases h
      exact .inl ⟨_, by simp, rfl⟩
    · split at h
      · cases h
      · cases h
        exact .inr ⟨_, _, rfl⟩
  | anything => cases h

theorem expected_of_mismatch {reading : Reading} {p : Payload} {expected got : String}
    (h : reading.fault? p = some (.mismatch expected got)) :
    expected ∈ ["number", "string", "Color", "ColorImage"] := by
  rcases fault?_cases h with ⟨expected', hexpected, he⟩ | ⟨_, _, he⟩
  · cases he
    exact hexpected
  · cases he

/-- How an argument of a declared type is read. -/
def ofType (type : String) : Reading :=
  if type = "num" then .number
  else if type = "string" then .text
  else if type = "color" then .color
  else if type = "color_image" then .image
  else .anything

end Reading

/-- How the arguments of a builtin are read: by their declared types, except that the numbers for
`create_image` are dimensions. -/
def Signature.readings (s : Signature) : List Reading :=
  s.params.map fun p =>
    if s.name = "create_image" ∧ p.type = "num" then .dimension else .ofType p.type

theorem Signature.length_readings (s : Signature) : s.readings.length = s.arity :=
  List.length_map _

/-- What an argument comes to on a frame: what its slot comes to, if that is of the type that it
has to be of. -/
def Argument.outcome (f : Frame) (arg : Argument) : Except Error Payload :=
  match f.outcome arg.slot with
  | .error e => .error e
  | .ok p =>
    match arg.hint with
    | none => .ok p
    | some hint =>
      if p.typeKey = hint then .ok p else .error (.mismatch hint.render p.typeName)

/-- Why an argument fails on a frame when it is read in the given way, if it does: it comes to no
value, or to one that cannot be read. -/
def Argument.fault? (f : Frame) (reading : Reading) (arg : Argument) : Option Error :=
  match arg.outcome f with
  | .error e => some e
  | .ok p => reading.fault? p

theorem Argument.outcome_eval (f : Frame) (i : Nat) (arg : Argument) :
    arg.outcome (f.eval i).2 = arg.outcome f := by
  simp only [outcome, Frame.outcome_eval]

theorem Argument.fault?_eval (f : Frame) (i : Nat) (reading : Reading) (arg : Argument) :
    arg.fault? (f.eval i).2 reading = arg.fault? f reading := by
  simp only [fault?, outcome_eval]

theorem Argument.outcome_slot {f : Frame} {arg : Argument} {p : Payload}
    (h : arg.outcome f = .ok p) : f.outcome arg.slot = .ok p := by
  unfold outcome at h
  split at h
  · cases h
  · next p' hp =>
    rw [hp]
    split at h
    · exact h
    · split at h
      · exact h
      · cases h

theorem Argument.outcome_of_fault?_eq_none {f : Frame} {reading : Reading} {arg : Argument}
    (h : arg.fault? f reading = none) : ∃ p, arg.outcome f = .ok p ∧ reading.fault? p = none := by
  unfold fault? at h
  split at h
  · cases h
  · next p hp => exact ⟨p, hp, h⟩

/-- An argument has a fault because its slot comes to no value, or to one of another type than it
has to be of, or to one that cannot be read. -/
theorem Argument.fault?_eq_some {f : Frame} {reading : Reading} {arg : Argument} {e : Error}
    (h : arg.fault? f reading = some e) :
    f.outcome arg.slot = .error e ∨
    ∃ p, f.outcome arg.slot = .ok p ∧
      ((∃ hint, arg.hint = some hint ∧ p.typeKey ≠ hint ∧
        e = .mismatch hint.render p.typeName) ∨ reading.fault? p = some e) := by
  unfold fault? outcome at h
  cases hslot : f.outcome arg.slot with
  | error e' =>
    simp only [hslot, Option.some.injEq] at h
    exact .inl (congrArg _ h)
  | ok p =>
    refine .inr ⟨p, rfl, ?_⟩
    simp only [hslot] at h
    cases hhint : arg.hint with
    | none =>
      simp only [hhint] at h
      exact .inr h
    | some hint =>
      simp only [hhint] at h
      by_cases hkey : p.typeKey = hint
      · simp only [if_pos hkey] at h
        exact .inr h
      · simp only [if_neg hkey, Option.some.injEq] at h
        exact .inl ⟨hint, rfl, hkey, h.symm⟩

/-- The value of an argument is what it comes to, shared with all who ask. -/
theorem Arguments.get_eq {args : Arguments} {i : Nat} {arg : Argument}
    (harg : args.items[i]? = some arg) (f : Frame) :
    args.get i f = ((arg.outcome f).map Value.shared, (f.eval arg.slot).2) := by
  have heval : f.eval arg.slot = ((f.outcome arg.slot).map Value.shared, (f.eval arg.slot).2) :=
    Prod.ext (f.eval_fst arg.slot) rfl
  generalize (f.eval arg.slot).2 = f' at heval
  unfold get Argument.outcome
  simp only [harg, heval]
  cases f.outcome arg.slot with
  | error e => rfl
  | ok p =>
    simp only [Except.map]
    cases arg.hint with
    | none => rfl
    | some hint =>
      show (if p.typeKey = hint then _ else _) = _
      by_cases hkey : p.typeKey = hint
      · simp only [if_pos hkey]
      · simp only [if_neg hkey]
        rfl

/-! ## §2 Steps -/

variable {α β : Type}

namespace Standard

theorem bind_apply (c : Call α) (k : α → Call β) (f : Frame) :
    (c >>= k) f =
      match c f with
      | (.ok a, f') => k a f'
      | (.error failure, f') => (.error failure, f') := by
  show (match c f with | (a, f') => ExceptT.bindCont k a f') = _
  rcases c f with ⟨_ | _, _⟩ <;> rfl

theorem attempt_ok_bind (a : α) (k : α → Call β) : (attempt (.ok a) >>= k) = k a := rfl

theorem attempt_error_bind (e : Error) (k : α → Call β) :
    (attempt (.error e) >>= k) = settled (.error (.error e)) := rfl

/-- Asking for an argument, up to the point where it cannot be read. -/
def pull (args : Arguments) (i : Nat) (reading : Reading) : Call Payload := do
  let v ← argument args i
  match reading.fault? v.payload with
  | some e => attempt (.error e)
  | none => return v.payload

variable {args : Arguments} {i : Nat} {arg : Argument} {reading : Reading} {f : Frame}

theorem argument_apply (harg : args.items[i]? = some arg) :
    argument args i f =
      (((arg.outcome f).map Value.shared).mapError .error, (f.eval arg.slot).2) := by
  unfold argument
  rw [Arguments.get_eq harg]

/-- An argument with a fault ends the call with the fault; its slot was asked for. -/
theorem pull_of_fault {e : Error} (harg : args.items[i]? = some arg)
    (h : arg.fault? f reading = some e) :
    pull args i reading f = (.error (.error e), (f.eval arg.slot).2) := by
  rw [pull, bind_apply, argument_apply harg]
  unfold Argument.fault? at h
  cases houtcome : arg.outcome f with
  | error e' =>
    rw [houtcome] at h
    cases h
    rfl
  | ok p =>
    rw [houtcome] at h
    show (match reading.fault? p with | some e => attempt (.error e) | none => pure p) _ = _
    rw [show reading.fault? p = some e from h]
    rfl

/-- An argument without a fault gives what it comes to. -/
theorem pull_of_outcome {p : Payload} (harg : args.items[i]? = some arg)
    (hp : arg.outcome f = .ok p) (h : reading.fault? p = none) :
    pull args i reading f = (.ok p, (f.eval arg.slot).2) := by
  rw [pull, bind_apply, argument_apply harg, hp]
  show (match reading.fault? p with | some e => attempt (.error e) | none => pure p) _ = _
  rw [h]
  rfl

/-! ## §3 The shape of a builtin -/

/-- The step asks for the arguments from the `i`-th on, each in the given way, and stops at the
first with a fault. When all are there it comes, whatever the frame, to something that fits
them. -/
inductive Pulls (args : Arguments) :
    Nat → List Reading → (List Payload → Except Failure α → Prop) → Call α → Prop
  | done {i : Nat} {Q : List Payload → Except Failure α → Prop} (outcome : Except Failure α)
      (h : Q [] outcome) : Pulls args i [] Q (settled outcome)
  | step {i : Nat} {reading : Reading} {readings : List Reading}
      {Q : List Payload → Except Failure α → Prop} {next : Payload → Call α}
      (hnext : ∀ p, reading.fault? p = none →
        Pulls args (i + 1) readings (fun rest => Q (p :: rest)) (next p)) :
      Pulls args i (reading :: readings) Q (pull args i reading >>= next)

variable {readings : List Reading} {Q : List Payload → Except Failure α → Prop} {c : Call α}

theorem drop_eq_cons {items : List Argument} {rest : List Argument}
    (h : items.drop i = arg :: rest) : items[i]? = some arg ∧ items.drop (i + 1) = rest := by
  constructor
  · have hhead := congrArg (·[0]?) h
    rwa [List.getElem?_drop, Nat.add_zero, List.getElem?_cons_zero] at hhead
  · rw [← List.drop_drop, h, List.drop_one, List.tail_cons]

/-- Up to the first argument with a fault the arguments are asked for, and no others. -/
theorem Pulls.run_of_fault (h : Pulls args i readings Q c)
    {front back : List (Argument × Reading)} {e : Error}
    (hzip : (args.items.drop i).zip readings = front ++ (arg, reading) :: back)
    (hfront : ∀ x ∈ front, x.1.fault? f x.2 = none) (harg : arg.fault? f reading = some e) :
    c f = (.error (.error e), f.evalAll (front.map (·.1.slot) ++ [arg.slot])) := by
  induction h generalizing f front with
  | done _ _ =>
    rw [List.zip_nil_right] at hzip
    cases front <;> cases hzip
  | @step i reading' readings' _ next hnext ih =>
    cases hdrop : args.items.drop i with
    | nil =>
      rw [hdrop] at hzip
      cases front <;> cases hzip
    | cons a rest =>
      obtain ⟨ha, hrest⟩ := drop_eq_cons hdrop
      rw [hdrop, List.zip_cons_cons] at hzip
      cases front with
      | nil =>
        cases hzip
        rw [bind_apply, pull_of_fault ha harg]
        rfl
      | cons x front =>
        rw [List.cons_append] at hzip
        obtain ⟨rfl, hzip⟩ := List.cons.inj hzip
        obtain ⟨p, hp, hread⟩ := Argument.outcome_of_fault?_eq_none
          (hfront _ List.mem_cons_self)
        rw [bind_apply, pull_of_outcome ha hp hread]
        have htail : ∀ x ∈ front, x.1.fault? (f.eval a.slot).2 x.2 = none := by
          intro x hx
          rw [Argument.fault?_eval]
          exact hfront x (List.mem_cons_of_mem _ hx)
        exact ih p hread (by rwa [hrest]) htail (by rwa [Argument.fault?_eval])

/-- If no argument has a fault, all are asked for, and the outcome fits what they come to. -/
theorem Pulls.run_of_complete (h : Pulls args i readings Q c)
    (hlength : (args.items.drop i).length = readings.length)
    (hclean : ∀ x ∈ (args.items.drop i).zip readings, x.1.fault? f x.2 = none) :
    ∃ payloads outcome,
      List.Forall₂ (fun arg p => arg.outcome f = .ok p) (args.items.drop i) payloads ∧
      Q payloads outcome ∧ c f = (outcome, f.evalAll ((args.items.drop i).map (·.slot))) := by
  induction h generalizing f with
  | done outcome h =>
    rw [List.length_nil, List.length_eq_zero_iff] at hlength
    rw [hlength]
    exact ⟨[], outcome, .nil, h, rfl⟩
  | @step i reading' readings' _ next hnext ih =>
    cases hdrop : args.items.drop i with
    | nil =>
      rw [hdrop] at hlength
      cases hlength
    | cons a rest =>
      obtain ⟨ha, hrest⟩ := drop_eq_cons hdrop
      rw [hdrop] at hlength hclean
      obtain ⟨p, hp, hread⟩ := Argument.outcome_of_fault?_eq_none
        (hclean _ List.mem_cons_self)
      have htail : ∀ x ∈ (args.items.drop (i + 1)).zip readings',
          x.1.fault? (f.eval a.slot).2 x.2 = none := by
        intro x hx
        rw [hrest] at hx
        rw [Argument.fault?_eval]
        exact hclean x (List.mem_cons_of_mem _ hx)
      obtain ⟨payloads, outcome, hpayloads, hQ, hrun⟩ :=
        ih p hread (by rw [hrest]; exact Nat.succ.inj hlength) htail
      refine ⟨p :: payloads, outcome, ?_, hQ, ?_⟩
      · rw [hrest] at hpayloads
        refine .cons hp (hpayloads.imp fun _ _ h => ?_)
        rwa [Argument.outcome_eval] at h
      · rw [bind_apply, pull_of_outcome ha hp hread]
        rw [hrest] at hrun
        exact hrun

/-! ## §4 Building the shape -/

theorem Pulls.pure {a : α} (h : Q [] (.ok a)) : Pulls args i [] Q (pure a) :=
  .done (.ok a) h

theorem Pulls.attempt {outcome : Except Error β} {k : β → Call α}
    (herror : ∀ e, outcome = .error e → Q [] (.error (.error e)))
    (hok : ∀ b, outcome = .ok b → Pulls args i [] Q (k b)) :
    Pulls args i [] Q (attempt outcome >>= k) := by
  cases outcome with
  | error e => exact .done _ (herror e rfl)
  | ok b => exact hok b rfl

/-- Asking for an argument and then making something of it is a step of the shape, if the way in
which it is read tells when that fails. -/
theorem Pulls.read (read : Payload → Except Error β) {k : β → Call α}
    (hfault : ∀ p, reading.fault? p =
      match read p with
      | .ok _ => none
      | .error e => some e)
    (hnext : ∀ p b, read p = .ok b →
      Pulls args (i + 1) readings (fun rest => Q (p :: rest)) (k b)) :
    Pulls args i (reading :: readings) Q
      (argument args i >>= fun v => Standard.attempt (read v.payload) >>= k) := by
  have heq : (argument args i >>= fun v => Standard.attempt (read v.payload) >>= k) =
      pull args i reading >>= fun p => Standard.attempt (read p) >>= k := by
    rw [pull, bind_assoc]
    refine bind_congr fun v => ?_
    rw [hfault]
    cases hread : read v.payload with
    | error e => rfl
    | ok b => rw [pure_bind, hread]
  rw [heq]
  refine .step fun p hp => ?_
  rw [hfault] at hp
  cases hread : read p with
  | error e =>
    rw [hread] at hp
    cases hp
  | ok b => exact hnext p b hread

theorem Pulls.number {k : Float → Call α}
    (hnext : ∀ p x, p.toNumber? = some x →
      Pulls args (i + 1) readings (fun rest => Q (p :: rest)) (k x)) :
    Pulls args i (.number :: readings) Q (number args i >>= k) := by
  rw [Standard.number, bind_assoc]
  refine Pulls.read (fun p => (Value.shared p).toNumber) (fun p => ?_) fun p x hx => ?_
  · simp only [Reading.fault?, Value.toNumber, Value.shared, Value.wrap, Value.typeName]
    cases p.toNumber? <;> rfl
  · simp only [Value.toNumber, Value.shared, Value.wrap] at hx
    split at hx
    · next y hy =>
      cases hx
      exact hnext p x hy
    · cases hx

theorem Pulls.text {k : String → Call α}
    (hnext : ∀ p s, p.toText? = some s →
      Pulls args (i + 1) readings (fun rest => Q (p :: rest)) (k s)) :
    Pulls args i (.text :: readings) Q (text args i >>= k) := by
  rw [Standard.text, bind_assoc]
  refine Pulls.read (fun p => (Value.shared p).toText) (fun p => ?_) fun p s hs => ?_
  · simp only [Reading.fault?, Value.toText, Value.shared, Value.wrap, Value.typeName]
    cases p.toText? <;> rfl
  · simp only [Value.toText, Value.shared, Value.wrap] at hs
    split at hs
    · next s' hs' =>
      cases hs
      exact hnext p s hs'
    · cases hs

/-- An argument that has to be of a form, where another way of reading tells the same. -/
theorem Pulls.content {form : Form β} {k : β → Call α}
    (hfault : ∀ p, reading.fault? p =
      if p.kind = form.kind then none else some (.mismatch form.kind.title p.typeName))
    (hnext : ∀ p b, Pulls args (i + 1) readings (fun rest => Q (p :: rest)) (k b)) :
    Pulls args i (reading :: readings) Q (content form args i >>= k) := by
  rw [Standard.content, bind_assoc]
  refine Pulls.read (fun p => (Value.shared p).content form) (fun p => ?_)
    fun p b _ => hnext p b
  rw [hfault]
  simp only [Value.content, Value.shared, Value.wrap, Value.typeName]
  by_cases hkind : p.kind = form.kind
  · obtain ⟨b, rfl⟩ := (form.exists_wrap p).mp hkind
    rw [if_pos hkind, form.content?_wrap]
  · rw [if_neg hkind]
    cases hcontent : form.content? p with
    | none => rfl
    | some b =>
      rw [(form.content?_eq_some p b).mp hcontent, form.kind_wrap] at hkind
      exact absurd rfl hkind

theorem Pulls.dimension {k : Nat → Call α}
    (hnext : ∀ p n, Pulls args (i + 1) readings (fun rest => Q (p :: rest)) (k n)) :
    Pulls args i (.dimension :: readings) Q
      (Standard.number args i >>= fun x =>
        Standard.attempt (Standard.dimension imageName x) >>= k) := by
  have hread : (Standard.number args i >>= fun x =>
        Standard.attempt (Standard.dimension imageName x) >>= k) =
      argument args i >>= fun v =>
        Standard.attempt (v.toNumber.bind (Standard.dimension imageName)) >>= k := by
    rw [Standard.number, bind_assoc]
    refine bind_congr fun v => ?_
    cases v.toNumber <;> rfl
  rw [hread]
  refine Pulls.read (fun p => (Value.shared p).toNumber.bind (Standard.dimension imageName))
    (fun p => ?_) fun p n _ => hnext p n
  simp only [Reading.fault?, Value.toNumber, Value.shared, Value.wrap, Value.typeName]
  cases p.toNumber? with
  | none => rfl
  | some x =>
    simp only [Except.bind, Standard.dimension]
    cases Number.natural? x <;> rfl

theorem Pulls.anything {k : Value → Call α}
    (hk : ∀ v v' : Value, v.payload = v'.payload → k v = k v')
    (hnext : ∀ p, Pulls args (i + 1) readings (fun rest => Q (p :: rest)) (k (.shared p))) :
    Pulls args i (.anything :: readings) Q (argument args i >>= k) := by
  have hread : (argument args i >>= k) =
      argument args i >>= fun v => Standard.attempt (.ok v.payload) >>= fun p => k (.shared p) :=
    bind_congr fun v => hk v (.shared v.payload) rfl
  rw [hread]
  exact Pulls.read Except.ok (fun _ => rfl) fun p b hb => by
    cases hb
    exact hnext p

end Standard

end SceneScript
