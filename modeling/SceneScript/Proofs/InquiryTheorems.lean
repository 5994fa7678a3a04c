/-
SceneScript.Proofs.InquiryTheorems — what builtins do with frames.

A builtin is handed a frame only to look at its size and to ask for slots, one
after the other, where each may depend on what the ones before it gave. An
`Inquiry` is such a course of action, written down. `Inquiry.run` carries it out
on a frame, and `Inquiry.asked` lists the slots that it asks for there.

Two things hold of every inquiry. It leaves a frame as asking for these slots
leaves it (`run_snd`). And what it comes to depends only on what the slots come
to, not on which of them have been computed before (`run_congr`).

Every standard builtin is an inquiry, and the slots that it asks for are those of
its arguments up to the first with a fault (`Conforms.exists_inquiry`).
-/
import SceneScript.Proofs.DispatchTheorems

namespace SceneScript

/-! ## §1 Frames that come to the same -/

namespace Frame

/-- Two frames have the same number of slots, and these come to the same. -/
structure Agrees (f g : Frame) : Prop where
  size : f.size = g.size
  outcome : ∀ i, f.outcome i = g.outcome i

variable {f g : Frame}

theorem Agrees.symm (h : f.Agrees g) : g.Agrees f :=
  ⟨h.size.symm, fun i => (h.outcome i).symm⟩

theorem Agrees.trans {k : Frame} (h : f.Agrees g) (h' : g.Agrees k) : f.Agrees k :=
  ⟨h.size.trans h'.size, fun i => (h.outcome i).trans (h'.outcome i)⟩

theorem agrees_evalAll (f : Frame) (slots : List Nat) : (f.evalAll slots).Agrees f :=
  ⟨size_evalAll, fun _ => outcome_evalAll _⟩

theorem agrees_eval (f : Frame) (i : Nat) : (f.eval i).2.Agrees f := agrees_evalAll f [i]

/-- Frames that agree answer alike. -/
theorem Agrees.eval_fst (h : f.Agrees g) (i : Nat) : (f.eval i).1 = (g.eval i).1 := by
  rw [Frame.eval_fst, Frame.eval_fst, h.outcome]

theorem Agrees.eval (h : f.Agrees g) (i : Nat) : (f.eval i).2.Agrees (g.eval i).2 :=
  ((f.agrees_eval i).trans h).trans (g.agrees_eval i).symm

end Frame

/-! ## §2 Inquiries -/

/-- What a builtin does with a frame, step by step. -/
inductive Inquiry (α : Type)
  /-- It comes to something without the frame. -/
  | settled (outcome : Except Failure α)
  /-- It goes on from the number of slots. -/
  | size (next : Nat → Inquiry α)
  /-- It asks for a slot and goes on from the value or error that this gives. -/
  | ask (slot : Nat) (next : Except Error Value → Inquiry α)

namespace Inquiry

variable {α : Type}

/-- An inquiry, carried out on a frame. -/
def run : Inquiry α → Call α
  | settled outcome => Standard.settled outcome
  | size next => fun f => (next f.size).run f
  | ask slot next => fun f => (next (f.eval slot).1).run (f.eval slot).2

/-- The slots that an inquiry asks for when it is carried out on a frame, in order. -/
def asked : Inquiry α → Frame → List Nat
  | settled _, _ => []
  | size next, f => (next f.size).asked f
  | ask slot next, f => slot :: (next (f.eval slot).1).asked (f.eval slot).2

/-- All that an inquiry changes about a frame comes from asking for slots. -/
theorem run_snd (q : Inquiry α) (f : Frame) : (q.run f).2 = f.evalAll (q.asked f) := by
  induction q generalizing f with
  | settled outcome => rfl
  | size next ih => exact ih f.size f
  | ask slot next ih => exact ih (f.eval slot).1 (f.eval slot).2

/-- On frames that agree, an inquiry comes to the same and asks for the same slots. -/
theorem run_congr (q : Inquiry α) {f g : Frame} (h : f.Agrees g) :
    (q.run f).1 = (q.run g).1 ∧ q.asked f = q.asked g := by
  induction q generalizing f g with
  | settled outcome => exact ⟨rfl, rfl⟩
  | size next ih =>
    simp only [run, asked, h.size]
    exact ih g.size h
  | ask slot next ih =>
    obtain ⟨hrun, hasked⟩ := ih (g.eval slot).1 (h.eval slot)
    simp only [run, asked, h.eval_fst slot]
    exact ⟨hrun, congrArg _ hasked⟩

/-- The inquiry, with its failures put in other words. -/
def mapError (g : Failure → Failure) : Inquiry α → Inquiry α
  | settled outcome => settled (outcome.mapError g)
  | size next => size fun n => (next n).mapError g
  | ask slot next => ask slot fun answer => (next answer).mapError g

theorem run_mapError (g : Failure → Failure) (q : Inquiry α) (f : Frame) :
    (q.mapError g).run f = ((q.run f).1.mapError g, (q.run f).2) := by
  induction q generalizing f with
  | settled outcome => rfl
  | size next ih => exact ih f.size f
  | ask slot next ih => exact ih (f.eval slot).1 (f.eval slot).2

theorem asked_mapError (g : Failure → Failure) (q : Inquiry α) (f : Frame) :
    (q.mapError g).asked f = q.asked f := by
  induction q generalizing f with
  | settled outcome => rfl
  | size next ih => exact ih f.size f
  | ask slot next ih => exact congrArg _ (ih (f.eval slot).1 (f.eval slot).2)

end Inquiry

/-- Whatever host it runs on and whatever its arguments are, the builtin does nothing with a frame
but look at its size and ask for slots. -/
def Builtin.Inquires (b : Builtin) : Prop :=
  ∀ host args, ∃ q : Inquiry Answer, b.entry host b.signature args = q.run

/-! ## §3 Arguments in order -/

/-- The slots that are asked for when arguments are read in the given ways, one after the other:
those of the arguments up to the first with a fault. -/
def Frame.pulled (f : Frame) : List Argument → List Reading → List Nat
  | arg :: args, reading :: readings =>
    arg.slot ::
      match arg.fault? f reading with
      | some _ => []
      | none => f.pulled args readings
  | _, _ => []

theorem Frame.pulled_nil (f : Frame) (args : List Argument) : f.pulled args [] = [] := by
  cases args <;> rfl

theorem Frame.pulled_eval (f : Frame) (i : Nat) (args : List Argument) (readings : List Reading) :
    (f.eval i).2.pulled args readings = f.pulled args readings := by
  induction args generalizing readings with
  | nil => rfl
  | cons arg args ih =>
    cases readings with
    | nil => rfl
    | cons reading readings => simp only [Frame.pulled, Argument.fault?_eval, ih]

/-- The slots that a builtin of the given signature asks for: none if the arguments are not as many
as it has. -/
def Frame.pulledBy (f : Frame) (signature : Signature) (args : Arguments) : List Nat :=
  if args.size = signature.arity then f.pulled args.items signature.readings else []

/-- What an argument comes to when its slot comes to something. -/
def Argument.accept (arg : Argument) : Except Error Payload → Except Error Payload
  | .error e => .error e
  | .ok p =>
    match arg.hint with
    | none => .ok p
    | some hint => if p.typeKey = hint then .ok p else .error (.mismatch hint.render p.typeName)

theorem Argument.accept_outcome (arg : Argument) (f : Frame) :
    arg.accept (f.outcome arg.slot) = arg.outcome f := by
  unfold outcome accept
  cases f.outcome arg.slot <;> rfl

/-- A payload that can be read in the given way, or why it cannot. -/
def Reading.check (reading : Reading) (p : Payload) : Except Error Payload :=
  match reading.fault? p with
  | some e => .error e
  | none => .ok p

theorem Argument.check_of_fault {arg : Argument} {reading : Reading} {f : Frame} {e : Error}
    (h : arg.fault? f reading = some e) : (arg.outcome f).bind reading.check = .error e := by
  unfold fault? at h
  cases houtcome : arg.outcome f with
  | error e' =>
    simp only [houtcome, Option.some.injEq] at h
    exact congrArg _ h
  | ok p =>
    simp only [houtcome] at h
    simp only [Except.bind, Reading.check, h]

namespace Standard

variable {α : Type} {args : Arguments} {i : Nat} {arg : Argument} {reading : Reading}
  {readings : List Reading} {Q : List Payload → Except Failure α → Prop} {c : Call α} {f : Frame}

/-- Asking for an argument and going on if it can be read, as an inquiry. -/
def pullInquiry (arg : Argument) (reading : Reading) (next : Payload → Inquiry α) : Inquiry α :=
  .ask arg.slot fun answer =>
    match (arg.accept (answer.map Value.payload)).bind reading.check with
    | .error e => .settled (.error (.error e))
    | .ok p => next p

/-- The slot of the argument is asked for, and then it depends on whether there is a fault. -/
theorem pullInquiry_next (arg : Argument) (reading : Reading) (next : Payload → Inquiry α)
    (f : Frame) :
    ∃ after : Inquiry α, (pullInquiry arg reading next).run f = after.run (f.eval arg.slot).2 ∧
      (pullInquiry arg reading next).asked f = arg.slot :: after.asked (f.eval arg.slot).2 ∧
      (∀ e, arg.fault? f reading = some e → after = .settled (.error (.error e))) ∧
      ∀ p, arg.outcome f = .ok p → reading.fault? p = none → after = next p := by
  have hanswer : (f.eval arg.slot).1.map Value.payload = f.outcome arg.slot := by
    rw [Frame.eval_fst]
    cases f.outcome arg.slot <;> rfl
  refine ⟨_, rfl, rfl, fun e he => ?_, fun p hp hread => ?_⟩
  · simp only [hanswer, arg.accept_outcome, Argument.check_of_fault he]
  · simp only [hanswer, arg.accept_outcome, hp, Except.bind, Reading.check, hread]

/-- A step that asks for arguments in order is an inquiry, which asks for the slots of those up to
the first with a fault. -/
theorem Pulls.exists_inquiry (h : Pulls args i readings Q c) :
    ∃ q : Inquiry α, c = q.run ∧ ∀ f, q.asked f = f.pulled (args.items.drop i) readings := by
  induction h with
  | done outcome _ => exact ⟨.settled outcome, rfl, fun f => (f.pulled_nil _).symm⟩
  | @step i reading readings Q next hnext ih =>
    cases hdrop : args.items.drop i with
    | nil =>
      -- There is no such argument, so nothing is asked for.
      have hnone : args.items[i]? = none :=
        List.getElem?_eq_none (List.drop_eq_nil_iff.mp hdrop)
      refine ⟨.settled (.error (.error (.argumentIndex i args.size))), ?_, fun f => rfl⟩
      funext f
      rw [bind_apply, pull, bind_apply]
      simp only [argument, Arguments.get, hnone]
      rfl
    | cons arg rest =>
      obtain ⟨harg, hrest⟩ := drop_eq_cons hdrop
      have hall : ∀ p, ∃ q : Inquiry α, reading.fault? p = none →
          next p = q.run ∧ ∀ f, q.asked f = f.pulled rest readings := by
        intro p
        by_cases hp : reading.fault? p = none
        · obtain ⟨q, hq, hasked⟩ := ih p hp
          rw [hrest] at hasked
          exact ⟨q, fun _ => ⟨hq, hasked⟩⟩
        · exact ⟨.settled (.error .beyondLayout), fun h => absurd h hp⟩
      choose nextInquiry hall using hall
      -- On each frame the two agree, whether or not the argument has a fault there.
      have hboth : ∀ f, (pull args i reading >>= next) f =
            (pullInquiry arg reading nextInquiry).run f ∧
          (pullInquiry arg reading nextInquiry).asked f =
            f.pulled (arg :: rest) (reading :: readings) := by
        intro f
        obtain ⟨after, hrun, hasked, hafter, hgone⟩ := pullInquiry_next arg reading
          nextInquiry f
        rw [hrun, hasked, bind_apply, Frame.pulled]
        cases hfault : arg.fault? f reading with
        | some e =>
          rw [hafter e hfault, pull_of_fault harg hfault]
          exact ⟨rfl, rfl⟩
        | none =>
          obtain ⟨p, hp, hread⟩ := Argument.outcome_of_fault?_eq_none hfault
          obtain ⟨hnext', hasked'⟩ := hall p hread
          rw [hgone p hp hread, pull_of_outcome harg hp hread, hasked', Frame.pulled_eval]
          exact ⟨congrFun hnext' _, rfl⟩
      exact ⟨pullInquiry arg reading nextInquiry, funext fun f => (hboth f).1,
        fun f => (hboth f).2⟩

/-- What a builtin that keeps to its signature asks for. -/
theorem Conforms.exists_inquiry {host : Host} {signature : Signature} {entry : Entry}
    (h : Conforms host signature entry) (args : Arguments) :
    ∃ q : Inquiry Answer, entry host signature args = q.run ∧
      ∀ f, q.asked f = f.pulledBy signature args := by
  by_cases hsize : args.size = signature.arity
  · obtain ⟨q, hq, hasked⟩ := (h.pulls hsize).exists_inquiry
    refine ⟨q, hq, fun f => ?_⟩
    rw [hasked, Frame.pulledBy, if_pos hsize]
    rfl
  · refine ⟨.settled (.error (.error (.arity signature.name signature.arity args.size))),
      funext fun f => h.run_of_count hsize, fun f => ?_⟩
    rw [Frame.pulledBy, if_neg hsize]
    rfl

end Standard

end SceneScript
