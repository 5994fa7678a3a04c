/-
SceneScript.Proofs.EvaluationTheorems — frames in the course of their use.

A frame is filled with slots, asked for slots and handed to calls, in any order,
and the calls may be of any builtins on any engines. Two results hold whatever
happens to it.

`evaluates_once`: an expression that gives a value is computed once, when its slot
is first asked for, and no other slot is computed at all. For this the slots that
a course of events asks for are listed (`Asked`); one event changes each of them
once and the others not at all (`getElem?_after`), and so does a course of events
(`getElem?_run`).

`replies_eager`: for what calls come to it makes no difference that expressions
are computed late. The frame in which all have been computed agrees with the one
in use (`agrees_eager`), whatever calls have made of that so far.
-/
import SceneScript.Proofs.InquiryTheorems

namespace SceneScript

/-! ## §1 Calls -/

/-- A call of a builtin: the settings of an engine that began empty and what has happened to it,
and what the call is made with. Builtins that the host has added do nothing with a frame but look
at its size and ask for slots. -/
structure Invocation where
  config : Config := {}
  events : List Engine.Event
  clock : Float
  memory : Memory
  name : String
  args : Arguments
  inquiring : ∀ b, .builtin b ∈ events → b.Inquires

namespace Invocation

/-- The engine that is called. -/
def engine (c : Invocation) : Engine := Engine.run { config := c.config } c.events

/-- The builtins that stages have added to the engine. -/
def installed (c : Invocation) : List Builtin :=
  Engine.installed { config := c.config } c.events

/-- The builtin that the call finds. -/
def builtin? (c : Invocation) : Option Builtin := c.engine.builtins.get? c.name

/-- What the builtin does with a frame. -/
def dispatch (c : Invocation) : Call Answer := fun f =>
  c.engine.dispatch c.clock c.memory c.name c.args f

/-- The whole call, on a frame and on files. -/
def call (c : Invocation) (f : Frame) (files : Tree) : Except Failure Value × Frame × Tree :=
  c.engine.call c.clock c.memory c.name c.args f files

variable (c : Invocation)

theorem dispatch_eq {c : Invocation} {b : Builtin} (hget : c.builtin? = some b) (f : Frame) :
    c.dispatch f =
      ((b.entry (c.engine.host c.clock c.memory) b.signature c.args f).1.mapError
        (Engine.nameTypes c.engine.types),
        (b.entry (c.engine.host c.clock c.memory) b.signature c.args f).2) :=
  Engine.dispatch_of_get? hget

/-- Whatever it finds, a call does nothing with a frame but look at its size and ask for slots; of
a standard builtin it is known which. -/
theorem exists_inquiry : ∃ q : Inquiry Answer, c.dispatch = q.run ∧
    ∀ b ∈ c.installed, c.builtin? = some b → ∀ f, q.asked f = f.pulledBy b.signature c.args := by
  cases hget : c.builtin? with
  | none =>
    refine ⟨.settled (.error (.error (.unknownBuiltin c.name))), funext fun f => ?_,
      fun b _ hb => nomatch hb⟩
    simp only [builtin?] at hget
    simp only [dispatch, Engine.dispatch, hget]
    rfl
  | some b =>
    have hdispatch : ∀ q : Inquiry Answer,
        b.entry (c.engine.host c.clock c.memory) b.signature c.args = q.run →
        c.dispatch = (q.mapError (Engine.nameTypes c.engine.types)).run := by
      intro q hq
      funext f
      rw [q.run_mapError, ← hq, dispatch_eq hget]
    -- A builtin that a stage has added keeps to its signature; of any other it is only known that
    -- it is an inquiry.
    by_cases hb : b ∈ c.installed
    · obtain ⟨q, hq, hasked⟩ :=
        (Engine.conforms_of_installed hb c.clock c.memory).exists_inquiry c.args
      refine ⟨_, hdispatch q hq, fun b' _ hb' f => ?_⟩
      cases hb'
      rw [q.asked_mapError, hasked]
    · have hadded := (Engine.installed_or_added hget).resolve_left hb
      obtain ⟨q, hq⟩ := c.inquiring b hadded (c.engine.host c.clock c.memory) c.args
      refine ⟨_, hdispatch q hq, fun b' hinstalled hb' => ?_⟩
      cases hb'
      exact absurd hinstalled hb

/-- What is asked of files does not touch the frame. -/
theorem call_frame (f : Frame) (files : Tree) : (c.call f files).2.1 = (c.dispatch f).2 := by
  unfold call dispatch Engine.call
  rcases c.engine.dispatch c.clock c.memory c.name c.args f with ⟨_ | _, _⟩ <;> rfl

/-- A call leaves a frame that agrees with the one it was given. -/
theorem agrees_dispatch (f : Frame) : (c.dispatch f).2.Agrees f := by
  obtain ⟨q, hq, -⟩ := c.exists_inquiry
  rw [hq, q.run_snd]
  exact f.agrees_evalAll _

end Invocation

/-! ## §2 Events -/

namespace Frame

/-- Something that happens to a frame. -/
inductive Event
  /-- It gets a slot that holds a value. -/
  | ready (p : Payload)
  /-- It gets a slot that holds an expression. -/
  | suspended (outcome : Except Error Payload)
  /-- It is asked for a slot. -/
  | eval (i : Nat)
  /-- It is handed to a call. -/
  | call (c : Invocation)

/-- The frame after an event, whether or not anything failed. -/
def after (f : Frame) : Event → Frame
  | .ready p => f.push (.ready p)
  | .suspended outcome => f.push (.suspended outcome)
  | .eval i => (f.eval i).2
  | .call c => (c.dispatch f).2

/-- The frame after events one after the other. -/
def run (f : Frame) (events : List Event) : Frame := events.foldl after f

/-- The slots that a frame gets by an event. -/
def Event.pushed : Event → List Slot
  | .ready p => [.ready p]
  | .suspended outcome => [.suspended outcome]
  | .eval _ => []
  | .call _ => []

/-- The event asks the frame for these slots, in order. -/
inductive Event.Asks (f : Frame) : Event → List Nat → Prop
  | ready (p : Payload) : Asks f (.ready p) []
  | suspended (outcome : Except Error Payload) : Asks f (.suspended outcome) []
  | eval (i : Nat) : Asks f (.eval i) [i]
  | call {c : Invocation} {q : Inquiry Answer} (h : c.dispatch = q.run) :
      Asks f (.call c) (q.asked f)

/-- The events ask the frame for these slots, in order. -/
inductive Asked : Frame → List Event → List Nat → Prop
  | nil (f : Frame) : Asked f [] []
  | cons {f : Frame} {event : Event} {rest : List Event} {slots slots' : List Nat}
      (h : event.Asks f slots) (hrest : Asked (f.after event) rest slots') :
      Asked f (event :: rest) (slots ++ slots')

variable {f : Frame} {event : Event} {events : List Event} {slots : List Nat} {i : Nat}

theorem Event.exists_asks (f : Frame) (event : Event) : ∃ slots, event.Asks f slots := by
  cases event with
  | ready p => exact ⟨_, .ready p⟩
  | suspended outcome => exact ⟨_, .suspended outcome⟩
  | eval i => exact ⟨_, .eval i⟩
  | call c =>
    obtain ⟨q, hq, -⟩ := c.exists_inquiry
    exact ⟨_, .call hq⟩

theorem exists_asked (f : Frame) (events : List Event) : ∃ slots, Asked f events slots := by
  induction events generalizing f with
  | nil => exact ⟨[], .nil f⟩
  | cons event rest ih =>
    obtain ⟨slots, h⟩ := event.exists_asks f
    obtain ⟨slots', hrest⟩ := ih (f.after event)
    exact ⟨slots ++ slots', .cons h hrest⟩

/-- All that an event changes comes from asking for its slots and from getting new ones. -/
theorem slots_after (h : event.Asks f slots) :
    (f.after event).slots = (f.evalAll slots).slots ++ event.pushed := by
  cases h with
  | ready p => rfl
  | suspended outcome => rfl
  | eval i => exact (List.append_nil _).symm
  | call h =>
    rw [after, h, Inquiry.run_snd]
    exact (List.append_nil _).symm

theorem size_le_after (f : Frame) (event : Event) : f.size ≤ (f.after event).size := by
  obtain ⟨slots, h⟩ := event.exists_asks f
  have hsize : (f.evalAll slots).slots.length = f.size := size_evalAll
  rw [size, size, slots_after h, List.length_append, hsize]
  exact Nat.le_add_right _ _

/-- An event changes each slot that it asks for once, and the others not at all. -/
theorem getElem?_after (h : event.Asks f slots) (hi : i < f.size) :
    (f.after event).slots[i]? =
      if i ∈ slots then f.slots[i]?.map Slot.asked else f.slots[i]? := by
  have hlt : i < (f.evalAll slots).slots.length := by
    have hsize : (f.evalAll slots).slots.length = f.size := size_evalAll
    rwa [hsize]
  rw [slots_after h, List.getElem?_append_left hlt, slots_evalAll]

/-- So does a course of events. -/
theorem getElem?_run (h : Asked f events slots) (hi : i < f.size) :
    (f.run events).slots[i]? =
      if i ∈ slots then f.slots[i]?.map Slot.asked else f.slots[i]? := by
  induction h with
  | nil f => rfl
  | @cons f event rest slots slots' h _ ih =>
    -- The slot was there before the event, so it is there for the rest.
    have hrun := ih (Nat.lt_of_lt_of_le hi (f.size_le_after event))
    rw [getElem?_after h hi, Slot.map_asked_twice] at hrun
    simp only [List.mem_append]
    exact hrun

/-- A slot that comes to a value comes to it from then on. -/
theorem outcome_run {p : Payload} (h : f.outcome i = .ok p) (events : List Event) :
    (f.run events).outcome i = .ok p := by
  obtain ⟨s, hslot, hs⟩ := outcome_eq_ok_iff.mp h
  have hi : i < f.size := (List.getElem?_eq_some_iff.mp hslot).1
  obtain ⟨slots, hasked⟩ := exists_asked f events
  have hrun := getElem?_run hasked hi
  rw [hslot] at hrun
  split at hrun
  · exact outcome_eq_ok_iff.mpr ⟨s.asked, hrun, by rw [s.outcome?_asked, hs]⟩
  · exact outcome_eq_ok_iff.mpr ⟨s, hrun, hs⟩

/-! ## §3 How often expressions are computed -/

theorem evaluations_eq (f : Frame) (i : Nat) :
    f.evaluations i = (f.slots[i]?.map Slot.evaluations).getD 0 := by
  unfold evaluations
  cases f.slots[i]? <;> rfl

/-- A slot that a frame gets, in the course of later events. -/
theorem evaluations_run_push {s : Slot} (h : Asked (f.push s) events slots) :
    ((f.push s).run events).evaluations f.size =
      if f.size ∈ slots then s.asked.evaluations else s.evaluations := by
  have hlast : (f.push s).slots[f.size]? = some s := List.getElem?_concat_length
  have hlt : f.size < (f.push s).size := by
    rw [push, size, size, List.length_append]
    exact Nat.lt_succ_self _
  rw [evaluations_eq, getElem?_run h hlt, hlast]
  split <;> rfl

/-- What is known of the slots of a frame in the course of events: how often their expressions are
computed, and that they keep their values. -/
structure EvaluatesOnce (f : Frame) (events : List Event) : Prop where
  /-- An expression that gives a value is computed once from when its slot is asked for first, and
  not before. -/
  computed : ∀ p, (∃ slots, Asked (f.push (.suspended (.ok p))) events slots) ∧
    ∀ slots, Asked (f.push (.suspended (.ok p))) events slots →
      ((f.push (.suspended (.ok p))).run events).evaluations f.size =
        if f.size ∈ slots then 1 else 0
  /-- An expression that fails does not count as computed. -/
  failing : ∀ e, ((f.push (.suspended (.error e))).run events).evaluations f.size = 0
  /-- A value that is there has not been computed. -/
  ready : ∀ p, ((f.push (.ready p)).run events).evaluations f.size = 0
  /-- Beyond the last slot there is nothing to compute. -/
  beyond : ∀ i, (f.run events).size ≤ i → (f.run events).evaluations i = 0
  grows : ∀ i, f.evaluations i ≤ (f.run events).evaluations i
  /-- A slot that gives a value gives the same from then on, shared with all who ask. -/
  kept : ∀ i v, (f.eval i).1 = .ok v →
    v.ownership = .shared ∧ ((f.run events).eval i).1 = .ok v
  /-- A call of a standard builtin asks for the slots of its arguments up to the first with a
  fault, and for none if the number of arguments is wrong. -/
  standard : ∀ (c : Invocation) (b : Builtin), b ∈ c.installed → c.builtin? = some b →
    Event.Asks f (.call c) (f.pulledBy b.signature c.args)

/-- **Expressions are computed once.** This is so of every frame and whatever happens to it. An
expression is taken to be pure, as `Slot` has it: what it comes to is fixed when its slot is made,
and it does not ask for slots of the frame that it is in. -/
theorem evaluates_once (f : Frame) (events : List Event) : EvaluatesOnce f events := by
  constructor
  case computed =>
    exact fun p => ⟨exists_asked _ events, fun slots h => evaluations_run_push h⟩
  case failing =>
    intro e
    obtain ⟨slots, h⟩ := exists_asked (f.push (.suspended (.error e))) events
    rw [evaluations_run_push h]
    exact ite_self _
  case ready =>
    intro p
    obtain ⟨slots, h⟩ := exists_asked (f.push (.ready p)) events
    rw [evaluations_run_push h]
    exact ite_self _
  case beyond =>
    intro i hi
    rw [evaluations_eq, List.getElem?_eq_none hi]
    rfl
  case grows =>
    intro i
    obtain ⟨slots, h⟩ := exists_asked f events
    rw [evaluations_eq, evaluations_eq]
    cases hslot : f.slots[i]? with
    | none => exact Nat.zero_le _
    | some s =>
      have hi : i < f.size := (List.getElem?_eq_some_iff.mp hslot).1
      rw [getElem?_run h hi, hslot]
      split
      · exact s.evaluations_le_asked
      · exact Nat.le_refl _
  case kept =>
    intro i v hv
    rw [eval_fst] at hv
    cases hi : f.outcome i with
    | error e =>
      rw [hi] at hv
      cases hv
    | ok p =>
      rw [hi] at hv
      cases hv
      rw [eval_fst, outcome_run hi]
      exact ⟨rfl, rfl⟩
  case standard =>
    intro c b hb hget
    obtain ⟨q, hq, hasked⟩ := c.exists_inquiry
    rw [← hasked b hb hget]
    exact .call hq

/-- The second time nothing is computed. -/
example : (run {} [.suspended (.ok (.number 2)), .eval 0, .eval 0]).evaluations 0 = 1 := by rfl

/-! ## §4 The frame in which everything has been computed -/

end Frame

namespace Slot

/-- The slot that holds from the start what its expression gives. -/
def eager (s : Slot) : Slot :=
  match s.expression with
  | some (.ok p) => .ready p
  | _ => s

/-- If the slot has an expression that gives a value, then it comes to that value. -/
def Proper (s : Slot) : Prop := ∀ p, s.expression = some (.ok p) → s.outcome? = some (.ok p)

theorem Proper.asked {s : Slot} (h : s.Proper) : s.asked.Proper := by
  intro p hp
  rw [s.outcome?_asked]
  refine h p ?_
  rcases s with ⟨_ | ⟨_ | _⟩, _ | _, _⟩ <;> exact hp

theorem Proper.outcome?_eager {s : Slot} (h : s.Proper) : s.eager.outcome? = s.outcome? := by
  unfold eager
  split
  · next p hp => exact (h p hp).symm
  · rfl

end Slot

namespace Frame

variable {f : Frame} {event : Event} {slots : List Nat}

/-- The frame in which all expressions that give a value have been replaced by it. -/
def eager (f : Frame) : Frame := ⟨f.slots.map Slot.eager⟩

/-- All slots come to what their expressions give. -/
def Proper (f : Frame) : Prop := ∀ s ∈ f.slots, s.Proper

theorem Proper.agrees_eager (h : f.Proper) : f.Agrees f.eager := by
  have hsize : f.eager.size = f.size := List.length_map _
  refine ⟨hsize.symm, fun i => ?_⟩
  have hslot : (f.eager.slots[i]?).bind Slot.outcome? = f.slots[i]?.bind Slot.outcome? := by
    rw [eager, List.getElem?_map]
    cases hs : f.slots[i]? with
    | none => rfl
    | some s => exact (h s (List.mem_of_getElem? hs)).outcome?_eager
  rw [outcome, outcome, hslot, hsize]

theorem Proper.evalAll (h : f.Proper) (slots : List Nat) : (f.evalAll slots).Proper := by
  intro s hs
  obtain ⟨i, hi⟩ := List.mem_iff_getElem?.mp hs
  rw [slots_evalAll] at hi
  split at hi
  · obtain ⟨s', hs', rfl⟩ := Option.map_eq_some_iff.mp hi
    exact (h s' (List.mem_of_getElem? hs')).asked
  · exact h s (List.mem_of_getElem? hi)

theorem Proper.after (h : f.Proper) (event : Event) : (f.after event).Proper := by
  obtain ⟨slots, hasks⟩ := event.exists_asks f
  intro s hs
  rw [slots_after hasks] at hs
  rcases List.mem_append.mp hs with hs | hs
  · exact h.evalAll slots s hs
  · cases event with
    | ready p =>
      obtain rfl := List.mem_singleton.mp hs
      exact fun _ hp => nomatch hp
    | suspended outcome =>
      obtain rfl := List.mem_singleton.mp hs
      exact fun _ hp => hp
    | eval i => exact absurd hs List.not_mem_nil
    | call c => exact absurd hs List.not_mem_nil

theorem Proper.run (h : f.Proper) (events : List Event) : (f.run events).Proper := by
  induction events generalizing f with
  | nil => exact h
  | cons event rest ih => exact ih (h.after event)

/-- A frame that began empty agrees with the one in which everything has been computed. -/
theorem agrees_eager (history : List Event) :
    (run {} history).Agrees (run {} history).eager := by
  have hempty : Proper {} := fun s hs => absurd hs List.not_mem_nil
  exact (hempty.run history).agrees_eager

end Frame

/-! ## §5 What calls come to -/

namespace Invocation

/-- The same call at another time. -/
def atTime (c : Invocation) (clock : Float) : Invocation := { c with clock := clock }

/-- The call is of a standard builtin that looks neither at the clock nor at files. -/
structure Steady (c : Invocation) : Prop where
  standard : ∃ b ∈ c.installed, c.builtin? = some b
  name : c.name ∉ Standard.worldly

variable {c : Invocation} {f g : Frame}

theorem Steady.exists_spec (h : c.Steady) : ∃ spec ∈ Standard.specs, ∃ b ∈ c.installed,
    spec.builtin = .ok b ∧ c.builtin? = some b ∧ b.name ∉ Standard.worldly := by
  obtain ⟨b, hb, hget⟩ := h.standard
  have hsound := Engine.sound_run c.config c.events
  obtain ⟨spec, hspec, hbuiltin⟩ := hsound.described b hb
  have hname : b.name = c.name := (hsound.valid.builtins.get?_iff.mp hget).2
  exact ⟨spec, hspec, b, hb, hbuiltin, hget, hname ▸ h.name⟩

/-- It does the same at any time. -/
theorem Steady.dispatch_atTime (h : c.Steady) (clock : Float) :
    (c.atTime clock).dispatch = c.dispatch := by
  obtain ⟨spec, hspec, b, -, hbuiltin, hget, hname⟩ := h.exists_spec
  have hget' : (c.atTime clock).builtin? = some b := hget
  have hentry : b.entry
        ((c.atTime clock).engine.host (c.atTime clock).clock (c.atTime clock).memory) =
      b.entry (c.engine.host c.clock c.memory) :=
    Standard.entry_clock hspec hbuiltin hname (c.engine.host c.clock c.memory) clock
  funext f
  rw [dispatch_eq hget, dispatch_eq hget', hentry]
  rfl

/-- It answers with a value. -/
theorem Steady.answer_value (h : c.Steady) {answer : Answer}
    (hanswer : (c.dispatch f).1 = .ok answer) : ∃ v, answer = .value v := by
  obtain ⟨spec, hspec, b, hb, hbuiltin, hget, hname⟩ := h.exists_spec
  have hconforms := Engine.conforms_of_installed hb c.clock c.memory
  rw [dispatch_eq hget] at hanswer
  cases hrun : (b.entry (c.engine.host c.clock c.memory) b.signature c.args f).1 with
  | error failure =>
    rw [hrun] at hanswer
    cases hanswer
  | ok answer' =>
    rw [hrun] at hanswer
    cases hanswer
    exact hconforms.answer_value (Standard.result_ne_bool hspec hbuiltin hname) hrun

/-- It comes to the same on frames that agree, at any time and whatever there is in files. -/
theorem Steady.call_fst (h : c.Steady) (hagrees : f.Agrees g) (clock : Float)
    (files files' : Tree) : (c.call f files).1 = ((c.atTime clock).call g files').1 := by
  obtain ⟨q, hq, -⟩ := c.exists_inquiry
  have hsame : (c.dispatch f).1 = (c.dispatch g).1 := by
    rw [hq]
    exact (q.run_congr hagrees).1
  have hleft : (c.call f files).1 = (c.dispatch f).1.map fun answer => (answer.settle files).1 :=
    Engine.call_fst _ _ _ _ _ _ _
  have hright : ((c.atTime clock).call g files').1 =
      ((c.atTime clock).dispatch g).1.map fun answer => (answer.settle files').1 :=
    Engine.call_fst _ _ _ _ _ _ _
  rw [hleft, hright, h.dispatch_atTime, hsame]
  cases hanswer : (c.dispatch g).1 with
  | error failure => rfl
  | ok answer =>
    obtain ⟨v, rfl⟩ := h.answer_value hanswer
    rfl

end Invocation

namespace Frame

/-- What calls come to, one after the other on the same frame and the same files. -/
def replies : List Invocation → Frame → Tree → List (Except Failure Value)
  | [], _, _ => []
  | c :: rest, f, files =>
    (c.call f files).1 :: replies rest (c.call f files).2.1 (c.call f files).2.2

theorem replies_of_agrees {f g : Frame} (hagrees : f.Agrees g) {calls : List Invocation}
    (hsteady : ∀ c ∈ calls, c.Steady) (clock : Float) (files files' : Tree) :
    replies calls f files = calls.map fun c => ((c.atTime clock).call g files').1 := by
  -- What carries the induction is that the frame in use goes on agreeing with `g`.
  induction calls generalizing f files with
  | nil => rfl
  | cons c rest ih =>
    obtain ⟨hc, hrest⟩ := List.forall_mem_cons.mp hsteady
    have hnext : (c.call f files).2.1.Agrees g := by
      rw [c.call_frame]
      exact (c.agrees_dispatch f).trans hagrees
    rw [replies, List.map_cons, hc.call_fst hagrees clock files files', ih hnext hrest]

/-- **It makes no difference that expressions are computed late.** On a frame that began empty,
with whatever has happened to it, calls of standard builtins come one after the other to what each
would come to by itself on the frame in which everything has been computed; builtins that look at
the clock or at files are left out. -/
theorem replies_eager (history : List Event) (calls : List Invocation)
    (hsteady : ∀ c ∈ calls, c.Steady) (clock : Float) (files files' : Tree) :
    replies calls (run {} history) files =
      calls.map fun c => ((c.atTime clock).call (run {} history).eager files').1 :=
  replies_of_agrees (agrees_eager history) hsteady clock files files'

/-- A call of `vecx` on the first slot, on an engine that has taken `init1`. -/
def vecxCall : Invocation where
  events := [.signal .init1]
  clock := 0
  memory := .usual
  name := "vecx"
  args := .positional 1
  inquiring _ hb := by cases List.mem_singleton.mp hb

theorem vecxCall_steady : vecxCall.Steady := by
  obtain ⟨b, hb, hbuiltin⟩ := Engine.installed_run_init1
    ⟨"v3d vecx( num v )", Standard.component fun v x => { v with x := x }⟩
    (by simp [Standard.specs, Standard.vectorSpecs])
  have hname : b.name = "vecx" := by
    simp only [Standard.Spec.builtin, Builtin.ofText, Engine.parse_vecx] at hbuiltin
    cases hbuiltin
    rfl
  have hget : vecxCall.builtin? = some b := by
    rw [← Engine.get?_of_installed hb, hname]
    rfl
  exact ⟨⟨b, hb, hget⟩, by decide⟩

/-- Two calls of `vecx` on a number that has yet to be computed. -/
theorem replies_eager_vecx :
    (∀ c ∈ [vecxCall, vecxCall], c.Steady) ∧
    replies [vecxCall, vecxCall] (run {} [.suspended (.ok (.number 2))]) {} =
      [vecxCall, vecxCall].map fun c =>
        ((c.atTime 1).call (run {} [.suspended (.ok (.number 2))]).eager {}).1 := by
  have hsteady : ∀ c ∈ [vecxCall, vecxCall], c.Steady := by
    simp [vecxCall_steady]
  exact ⟨hsteady, replies_eager [.suspended (.ok (.number 2))] _ hsteady 1 {} {}⟩

end Frame

end SceneScript
