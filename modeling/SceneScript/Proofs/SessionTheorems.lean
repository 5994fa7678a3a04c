/-
SceneScript.Proofs.SessionTheorems — what steps that change a variable in place do to a session.

Nine steps work in place on what a variable holds: they copy a payload onto
another, write slots, fields and pixels, resize and tone-map buffers and change
radii (`Step.target?`). A session puts back whatever such an operation leaves, so
that nothing is lost by a failure only because of the operations themselves: each
of those that can fail leaves what it was given when it does (`Harmless`).

Hence all nine steps come to the same two ends. Either the step is taken and the
payload of that variable is another one, under the key and the ownership that the
value had, or the reply says that nothing came of it, and then nothing is
different (`step_inPlace`). `step_of_not_taken` is the second end by itself; what a
step makes of the payload is the business of the modules on fields, conversions
and images.
-/
import SceneScript.Session
import Mathlib.Data.List.Basic

namespace SceneScript

/-! ## §1 Named things -/

theorem lookup_cons_eq_ite {α : Type} (name other : String) (a : α) (things : List (String × α)) :
    ((name, a) :: things).lookup other = if other = name then some a else things.lookup other := by
  by_cases hname : other = name
  · simp [hname]
  · simp [List.lookup_cons, beq_false_of_ne hname, hname]

/-- A thing is found under its name, and under the other names is what was there. -/
theorem lookup_putNamed {α : Type} (name other : String) (a : α) (things : List (String × α)) :
    (putNamed name a things).lookup other =
      if other = name then some a else things.lookup other := by
  induction things with
  | nil => rw [putNamed, lookup_cons_eq_ite]
  | cons first rest ih =>
    obtain ⟨n, b⟩ := first
    rw [putNamed]
    split
    · next hn =>
      subst hn
      rw [lookup_cons_eq_ite, lookup_cons_eq_ite]
      by_cases hother : other = n <;> simp [hother]
    · next hn =>
      rw [lookup_cons_eq_ite, lookup_cons_eq_ite, ih]
      by_cases hother : other = n
      · simp [hother, hn]
      · simp [hother]

/-- A thing put where it is found makes no difference. -/
theorem putNamed_of_lookup {α : Type} {name : String} {a : α} {things : List (String × α)}
    (h : things.lookup name = some a) : putNamed name a things = things := by
  induction things with
  | nil => cases h
  | cons first rest ih =>
    obtain ⟨n, b⟩ := first
    rw [lookup_cons_eq_ite] at h
    rw [putNamed]
    split
    · next hn =>
      rw [if_pos hn.symm, Option.some.injEq] at h
      rw [h]
    · next hn =>
      rw [if_neg (Ne.symm hn)] at h
      rw [ih h]

/-- What is taken away is not found, and under the other names is what was there. -/
theorem lookup_filter_name {α : Type} (name other : String) (things : List (String × α)) :
    (things.filter fun (n, _) => n ≠ name).lookup other =
      if other = name then none else things.lookup other := by
  induction things with
  | nil => simp
  | cons first rest ih =>
    obtain ⟨n, b⟩ := first
    by_cases hn : n = name
    · rw [List.filter_cons_of_neg (by simp [hn]), ih, lookup_cons_eq_ite]
      by_cases hother : other = name <;> simp [hother, hn]
    · rw [List.filter_cons_of_pos (by simp [hn]), lookup_cons_eq_ite, lookup_cons_eq_ite, ih]
      by_cases hother : other = n
      · simp [hother, hn]
      · simp [hother]

/-! ## §2 Operations in place -/

/-- An operation in place that reports an error leaves what it was given. -/
def Harmless {α : Type} (op : α → Except Error Unit × α) : Prop :=
  ∀ a e, (op a).1 = .error e → (op a).2 = a

/-- An operation in place that reports that it was not carried out leaves what it was given. -/
def Harmless? {α : Type} (op : α → Bool × α) : Prop :=
  ∀ a, (op a).1 = false → (op a).2 = a

theorem ColorRow.harmless_setSize (memory : Memory) (count : Nat) (fill : Color) :
    Harmless (setSize memory count fill) := by
  intro row e
  unfold setSize
  split
  · rintro ⟨⟩
  · exact fun _ => rfl

theorem ColorImage.harmless_setSize (memory : Memory) (width height : Nat) (fill : Color) :
    Harmless (setSize memory width height fill) := by
  intro image e
  unfold setSize
  split
  · exact fun _ => rfl
  · split
    · rintro ⟨⟩
    · exact fun _ => rfl

theorem ColorImage.harmless_setPixel (x y : Nat) (c : Color) : Harmless? (setPixel · x y c) := by
  intro image
  show (image.setPixel x y c).1 = false → (image.setPixel x y c).2 = image
  unfold setPixel
  split
  · rintro ⟨⟩
  · exact fun _ => rfl

namespace Payload

theorem harmless_assign (source : Payload) : Harmless? (assign · source) := by
  intro target
  show (target.assign source).1 = false → (target.assign source).2 = target
  unfold assign
  split
  · rintro ⟨⟩
  · exact fun _ => rfl

theorem replace_of_not_replaced {p : Payload} {made : Option Payload}
    (h : (p.replace made).1 = false) : (p.replace made).2 = p := by
  cases made with
  | some _ => cases h
  | none => rfl

theorem harmless_setSlots (slots : List Float) : Harmless? (setSlots · slots) := by
  intro p hrefused
  cases p <;> first | rfl | exact replace_of_not_replaced hrefused

end Payload

theorem Conversion.harmless_apply (c : Conversion) (source : Payload) :
    Harmless (c.apply · source) := by
  intro target e
  show (c.apply target source).1 = .error e → (c.apply target source).2 = target
  unfold apply
  split
  · split
    · rintro ⟨⟩
    · rintro ⟨⟩
    · exact fun _ => rfl
  · exact fun _ => rfl
  · split
    · rintro ⟨⟩
    · rintro ⟨⟩
    · exact fun _ => rfl
  · exact fun _ => rfl

namespace Registry

variable (r : Registry)

theorem harmless_writeField (path : String) (x : Float) : Harmless (r.writeField · path x) := by
  intro p e
  show (r.writeField p path x).1 = .error e → (r.writeField p path x).2 = p
  unfold writeField
  split
  · exact fun _ => rfl
  · split
    · exact fun _ => rfl
    · split
      · rintro ⟨⟩
      · exact fun _ => rfl

theorem harmless_copyOnto (source : Payload) : Harmless (r.copyOnto · source) := by
  intro target e
  show (r.copyOnto target source).1 = .error e → (r.copyOnto target source).2 = target
  unfold copyOnto
  split
  · rintro ⟨⟩
  · next target' hassign =>
    obtain rfl : target = target' :=
      (Payload.harmless_assign source target (congrArg Prod.fst hassign)).symm.trans
        (congrArg Prod.snd hassign)
    split
    · exact fun _ => rfl
    · split
      · next c _ => exact c.harmless_apply source target e
      · exact fun _ => rfl

end Registry

/-! ## §3 Steps on variables -/

/-- The variable that a step changes in place. -/
def Step.target? : Step → Option String
  | .copyConvert var _ => some var
  | .assign var _ => some var
  | .setSlots var _ => some var
  | .setField var _ _ => some var
  | .rowSetSize var _ _ => some var
  | .imageSetSize var _ _ _ => some var
  | .setPixel var _ _ _ => some var
  | .saturate var _ _ => some var
  | .setRadius var _ _ => some var
  | _ => none

/-- The reply says that a change was made. -/
def Reply.Taken : Reply → Prop
  | payload _ => True
  | flag b => b = true
  | _ => False

/-- What is left when the reply does not say that a change was made. -/
theorem Harmless.left {α : Type} {op : α → Except Error Unit × α} (h : Harmless op) {a : α}
    {p : Payload} (hreply : ¬ (Reply.ofOutcome (op a).1 p).Taken) : (op a).2 = a := by
  cases herror : (op a).1 with
  | ok _ =>
    rw [herror] at hreply
    exact absurd trivial hreply
  | error e => exact h a e herror

theorem Harmless?.left {α : Type} {op : α → Bool × α} (h : Harmless? op) {a : α}
    (hreply : ¬ (Reply.flag (op a).1).Taken) : (op a).2 = a :=
  h a (Bool.not_eq_true _ ▸ hreply)

/-- What a variable of the form holds for itself. -/
theorem Value.ownContent_eq_ok_iff {α : Type} {v : Value} {form : Form α} {a : α} :
    v.ownContent form = .ok a ↔ v.ownership = .owned ∧ v.payload = form.wrap a := by
  unfold ownContent content
  split
  · next howned =>
    rw [← form.content?_eq_some]
    cases form.content? v.payload <;> simp [howned]
  · next howned => simp [howned]

namespace Session

variable {α β : Type} {s : Session} {var : String}

theorem valueOf?_setVariable (s : Session) (name var : String) (v : Value) :
    (s.setVariable name v).valueOf? var = if var = name then some v else s.valueOf? var :=
  lookup_putNamed name var v s.vars

/-- Putting back the payload that a variable holds makes no difference. -/
theorem setVariable_of_left {v : Value} {p : Payload} (hv : s.valueOf? var = some v)
    (hp : v.payload = p) : s.setVariable var (v.withPayload p) = s := by
  subst hp
  have hput : putNamed var v s.vars = s.vars := putNamed_of_lookup hv
  show { s with vars := putNamed var v s.vars } = s
  rw [hput]

/-- An operation on what a variable of a form holds is carried out when the variable has it for
itself; else nothing is different. -/
theorem change_cases (s : Session) (var : String) (form : Form α) (op : α → β × α)
    (reply : β → Payload → Reply) :
    (∃ v a, s.valueOf? var = some v ∧ v.ownership = .owned ∧ v.payload = form.wrap a ∧
      s.change var form op reply =
        (reply (op a).1 (form.wrap (op a).2),
          s.setVariable var (v.withPayload (form.wrap (op a).2)))) ∨
    ((∀ v, s.valueOf? var = some v → v.ownership = .owned → v.payload.kind ≠ form.kind) ∧
      ∃ r : Reply, ¬ r.Taken ∧ s.change var form op reply = (r, s)) := by
  unfold change
  cases hv : s.valueOf? var with
  | none =>
    refine .inr ⟨?_, _, id, rfl⟩
    rintro v ⟨⟩
  | some v =>
    dsimp only
    cases hown : v.ownContent form with
    | error e =>
      refine .inr ⟨?_, _, id, rfl⟩
      rintro _ ⟨⟩ howned hkind
      obtain ⟨a, ha⟩ := (form.exists_wrap v.payload).mp hkind
      rw [Value.ownContent_eq_ok_iff.mpr ⟨howned, ha⟩] at hown
      cases hown
    | ok a =>
      obtain ⟨howned, ha⟩ := Value.ownContent_eq_ok_iff.mp hown
      exact .inl ⟨v, a, rfl, howned, ha, rfl⟩

/-- An operation on the payload of a variable is carried out when the variable has it for itself;
else nothing is different. -/
theorem mutate_cases (s : Session) (var : String) (absent : Refusal) (op : Payload → β × Payload)
    (reply : β → Payload → Reply) :
    (∃ v, s.valueOf? var = some v ∧ v.ownership = .owned ∧
      s.mutate var absent op reply =
        (reply (op v.payload).1 (op v.payload).2,
          s.setVariable var (v.withPayload (op v.payload).2))) ∨
    ∃ r : Reply, ¬ r.Taken ∧ s.mutate var absent op reply = (r, s) := by
  unfold mutate
  cases hv : s.valueOf? var with
  | none => exact .inr ⟨_, id, rfl⟩
  | some v =>
    by_cases howned : v.ownership = .owned
    · exact .inl ⟨v, rfl, howned, by simp only [if_pos howned]⟩
    · exact .inr ⟨.refused .notOwned, id, by simp only [if_neg howned]⟩

/-! ## §4 The two ends -/

/-- What a change of a variable in place comes to: it is not taken and nothing is different, or
the variable holds another payload under the same key and with the same ownership. -/
inductive InPlace (s : Session) (var : String) : Reply × Session → Prop
  | refused {reply : Reply} (hreply : ¬ reply.Taken) : InPlace s var (reply, s)
  | taken {reply : Reply} {v : Value} (p : Payload) (hv : s.valueOf? var = some v)
      (howned : v.ownership = .owned) (hreply : reply.Taken) :
      InPlace s var (reply, s.setVariable var (v.withPayload p))

/-- Either way the variable holds what the operation has left; that this is what it held before
when the reply says so is for the operation to see to. -/
theorem InPlace.of_left {v : Value} {p : Payload} {reply : Reply} (hv : s.valueOf? var = some v)
    (howned : v.ownership = .owned) (hleft : ¬ reply.Taken → p = v.payload) :
    InPlace s var (reply, s.setVariable var (v.withPayload p)) := by
  by_cases hreply : reply.Taken
  · exact .taken p hv howned hreply
  · rw [setVariable_of_left hv (hleft hreply).symm]
    exact .refused hreply

theorem inPlace_change {form : Form α} {op : α → β × α} {reply : β → Payload → Reply}
    (hop : ∀ a, ¬ (reply (op a).1 (form.wrap (op a).2)).Taken → (op a).2 = a) :
    InPlace s var (s.change var form op reply) := by
  obtain ⟨v, a, hv, howned, ha, hstep⟩ | ⟨-, r, hr, hstep⟩ := change_cases s var form op reply
  · rw [hstep]
    exact .of_left hv howned fun hreply => by rw [hop a hreply, ha]
  · rw [hstep]
    exact .refused hr

theorem inPlace_mutate {absent : Refusal} {op : Payload → β × Payload}
    {reply : β → Payload → Reply}
    (hop : ∀ p, ¬ (reply (op p).1 (op p).2).Taken → (op p).2 = p) :
    InPlace s var (s.mutate var absent op reply) := by
  obtain ⟨v, hv, howned, hstep⟩ | ⟨r, hr, hstep⟩ := mutate_cases s var absent op reply
  · rw [hstep]
    exact .of_left hv howned (hop v.payload)
  · rw [hstep]
    exact .refused hr

/-- **Changes in place** are taken or leave the session as it was. -/
theorem step_inPlace (s : Session) {step : Step} (h : step.target? = some var) :
    InPlace s var (s.step step) := by
  cases step with
  | copyConvert target source =>
    obtain rfl : target = var := Option.some.inj h
    simp only [Session.step]
    cases s.valueOf? source with
    | none => exact .refused id
    | some v => exact inPlace_mutate fun _ => (s.engine.types.harmless_copyOnto v.payload).left
  | assign target source =>
    obtain rfl : target = var := Option.some.inj h
    simp only [Session.step]
    cases s.valueOf? source with
    | none => exact .refused id
    | some v => exact inPlace_mutate fun _ => (Payload.harmless_assign v.payload).left
  | setSlots target slots =>
    obtain rfl : target = var := Option.some.inj h
    simp only [Session.step]
    exact inPlace_mutate fun _ => (Payload.harmless_setSlots slots).left
  | setField target path x =>
    obtain rfl : target = var := Option.some.inj h
    simp only [Session.step]
    exact inPlace_mutate fun _ => (s.engine.types.harmless_writeField path x).left
  | rowSetSize target size fill =>
    obtain rfl : target = var := Option.some.inj h
    simp only [Session.step]
    exact inPlace_change fun _ => (ColorRow.harmless_setSize s.memory size fill).left
  | imageSetSize target width height fill =>
    obtain rfl : target = var := Option.some.inj h
    simp only [Session.step]
    exact inPlace_change fun _ => (ColorImage.harmless_setSize s.memory width height fill).left
  | setPixel target x y c =>
    obtain rfl : target = var := Option.some.inj h
    simp only [Session.step]
    exact inPlace_change fun _ => (ColorImage.harmless_setPixel x y c).left
  | saturate target gamma parallelMin =>
    obtain rfl : target = var := Option.some.inj h
    simp only [Session.step]
    exact inPlace_change fun _ hreply => absurd trivial hreply
  | setRadius target radius pos =>
    obtain rfl : target = var := Option.some.inj h
    simp only [Session.step]
    exact inPlace_change fun _ hreply => absurd trivial hreply
  | _ => cases h

/-- A change in place that is not taken changes nothing at all. -/
theorem step_of_not_taken {step : Step} (h : step.target? = some var)
    (hreply : ¬ (s.step step).1.Taken) : (s.step step).2 = s := by
  have hcases := step_inPlace s h
  generalize s.step step = result at hcases hreply
  cases hcases with
  | refused _ => rfl
  | taken p hv howned htaken => exact absurd htaken hreply

end Session

end SceneScript
