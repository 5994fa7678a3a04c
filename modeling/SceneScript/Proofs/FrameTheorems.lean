/-
SceneScript.Proofs.FrameTheorems — what asking for a slot gives, and what it leaves behind.

`Frame.outcome` is what a slot comes to: the value that it holds, or what its
expression comes to. Asking for a slot gives just that (`eval_fst`), and all that
it changes is the slot itself, which keeps the value from then on (`eval_snd`).
So no slot comes to anything else after others were asked for
(`outcome_evalAll`), slots change at most once however often they are asked for and
are otherwise as they were (`slots_evalAll`), and those that gave a value hold it
(`cached?_evalAll`).
-/
import SceneScript.Frame
import Mathlib.Data.List.Basic

namespace SceneScript

/-! ## §1 Slots -/

namespace Slot

/-- What a slot comes to: its value if it holds one, else what its expression comes to. -/
def outcome? (s : Slot) : Option (Except Error Payload) :=
  match s.cache with
  | some p => some (.ok p)
  | none => s.expression

/-- The slot after it was asked for: an expression that gives a value is computed once, and the
value is kept. -/
def asked (s : Slot) : Slot :=
  match s.cache, s.expression with
  | none, some (.ok p) => { s with cache := some p, evaluations := s.evaluations + 1 }
  | _, _ => s

theorem asked_of_cached {s : Slot} {p : Payload} (h : s.cache = some p) : s.asked = s := by
  simp [asked, h]

/-- Whoever asks again gets what is there. -/
@[simp] theorem asked_asked (s : Slot) : s.asked.asked = s.asked := by
  rcases s with ⟨_ | ⟨_ | _⟩, _ | _, _⟩ <;> rfl

/-- Asking at most twice comes to asking at most once. -/
theorem map_asked_twice (s : Option Slot) (P Q : Prop) [Decidable P] [Decidable Q] :
    (if Q then (if P then s.map asked else s).map asked else if P then s.map asked else s) =
      if P ∨ Q then s.map asked else s := by
  have hagain : asked ∘ asked = asked := funext asked_asked
  by_cases hP : P
  · simp only [if_pos hP, if_pos (Or.inl hP : P ∨ Q), Option.map_map, hagain, ite_self]
  · simp only [hP, if_false, false_or]

theorem evaluations_le_asked (s : Slot) : s.evaluations ≤ s.asked.evaluations := by
  rcases s with ⟨_ | ⟨_ | _⟩, _ | _, n⟩
  case some.ok.none => exact Nat.le_succ n
  all_goals exact Nat.le_refl n

@[simp] theorem outcome?_asked (s : Slot) : s.asked.outcome? = s.outcome? := by
  rcases s with ⟨_ | ⟨_ | _⟩, _ | _, _⟩ <;> rfl

theorem cache_asked_of_outcome {s : Slot} {p : Payload} (h : s.outcome? = some (.ok p)) :
    s.asked.cache = some p := by
  rcases s with ⟨_ | ⟨_ | _⟩, _ | _, _⟩ <;> simp_all [outcome?, asked]

end Slot

/-! ## §2 One slot -/

namespace Frame

variable (f : Frame) (i j : Nat)

/-- What a slot of a frame comes to; there is nothing beyond the last slot. -/
def outcome (f : Frame) (i : Nat) : Except Error Payload :=
  match f.slots[i]?.bind Slot.outcome? with
  | some outcome => outcome
  | none => .error (.argumentIndex i f.size)

/-- The value that a slot holds, if it holds one. -/
def cached? (f : Frame) (i : Nat) : Option Payload := f.slots[i]?.bind Slot.cache

theorem eval_fst : (f.eval i).1 = (f.outcome i).map Value.shared := by
  unfold eval outcome
  cases hslot : f.slots[i]? with
  | none => rfl
  | some s =>
    rcases s with ⟨_ | ⟨_ | _⟩, _ | _, _⟩ <;> rfl

/-- Asking for a slot changes that slot and nothing else. -/
theorem eval_snd : (f.eval i).2 = ⟨f.slots.modify i Slot.asked⟩ := by
  have hsame : (∀ s, f.slots[i]? = some s → s.asked = s) →
      f = ⟨f.slots.modify i Slot.asked⟩ := by
    intro hasked
    refine congrArg Frame.mk (List.ext_getElem? fun j => ?_)
    rw [List.getElem?_modify]
    split
    · next hij =>
      subst hij
      cases hslot : f.slots[i]? with
      | none => rfl
      | some s => exact congrArg some (hasked s hslot).symm
    · exact Option.map_id'.symm
  unfold eval
  cases hslot : f.slots[i]? with
  | none =>
    refine hsame fun s hs => ?_
    rw [hslot] at hs
    cases hs
  | some s =>
    have hone : s.asked = s → f = ⟨f.slots.modify i Slot.asked⟩ := by
      refine fun hasked => hsame fun s' hs' => ?_
      rw [hslot] at hs'
      cases hs'
      exact hasked
    rcases s with ⟨_ | ⟨_ | p⟩, _ | _, n⟩
    case some.ok.none =>
      have hasked :
          f.slots.set i ⟨some (.ok p), some p, n + 1⟩ = f.slots.modify i Slot.asked := by
        rw [List.modify_eq_set_getElem?, hslot]
        rfl
      simp only [hasked]
    all_goals exact hone rfl

theorem getElem?_eval : (f.eval i).2.slots[j]? =
    if i = j then f.slots[j]?.map Slot.asked else f.slots[j]? := by
  rw [eval_snd, List.getElem?_modify]
  split
  · rfl
  · exact Option.map_id'

@[simp] theorem size_eval : (f.eval i).2.size = f.size := by
  rw [eval_snd]
  exact List.length_modify _ _ _

@[simp] theorem outcome_eval : (f.eval i).2.outcome j = f.outcome j := by
  have hsame : (f.eval i).2.slots[j]?.bind Slot.outcome? = f.slots[j]?.bind Slot.outcome? := by
    rw [getElem?_eval]
    split
    · cases f.slots[j]? with
      | none => rfl
      | some s => exact s.outcome?_asked
    · rfl
  rw [outcome, outcome, hsame, size_eval]

/-- A value comes from a slot that there is. -/
theorem outcome_eq_ok_iff {f : Frame} {i : Nat} {p : Payload} :
    f.outcome i = .ok p ↔ ∃ s, f.slots[i]? = some s ∧ s.outcome? = some (.ok p) := by
  rw [← Option.bind_eq_some_iff, outcome]
  cases f.slots[i]?.bind Slot.outcome? with
  | none => exact ⟨nofun, nofun⟩
  | some outcome => exact ⟨congrArg some, Option.some.inj⟩

theorem cached?_eval_self {p : Payload} (h : f.outcome i = .ok p) :
    (f.eval i).2.cached? i = some p := by
  obtain ⟨s, hslot, hs⟩ := outcome_eq_ok_iff.mp h
  rw [cached?, getElem?_eval, if_pos rfl, hslot]
  exact Slot.cache_asked_of_outcome hs

/-- What a slot holds, it keeps. -/
theorem cached?_eval {p : Payload} (h : f.cached? j = some p) :
    (f.eval i).2.cached? j = some p := by
  obtain ⟨s, hslot, hcache⟩ := Option.bind_eq_some_iff.mp h
  rw [cached?, getElem?_eval, hslot]
  split
  · rw [Option.map_some, Slot.asked_of_cached hcache]
    exact hcache
  · exact hcache

/-- A slot without a value is beyond the last one, or has an expression that fails. -/
theorem outcome_eq_error {f : Frame} {i : Nat} {e : Error} (he : f.outcome i = .error e) :
    e = .argumentIndex i f.size ∨ ∃ s ∈ f.slots, s.expression = some (.error e) := by
  unfold outcome at he
  split at he
  · next outcome hslot =>
    obtain ⟨s, hs, houtcome⟩ := Option.bind_eq_some_iff.mp hslot
    subst he
    unfold Slot.outcome? at houtcome
    split at houtcome
    · cases houtcome
    · exact .inr ⟨s, List.mem_of_getElem? hs, houtcome⟩
  · cases he
    exact .inl rfl

/-- Expressions that fail object to something, and fail in no other way. -/
def Objecting (f : Frame) : Prop :=
  ∀ s ∈ f.slots, ∀ e, s.expression = some (.error e) →
    ∃ name objection, e = .invalidArgument name objection

/-- A slot without a value is beyond the last one or objects to something. -/
theorem outcome_error_cases {f : Frame} {i : Nat} {e : Error} (h : f.Objecting)
    (he : f.outcome i = .error e) :
    e = .argumentIndex i f.size ∨ ∃ name objection, e = .invalidArgument name objection :=
  (outcome_eq_error he).imp_right fun ⟨s, hs, hexpr⟩ => h s hs e hexpr

/-! ## §3 Several slots -/

/-- The frame after slots were asked for one after the other. -/
def evalAll (f : Frame) (slots : List Nat) : Frame := slots.foldl (fun f i => (f.eval i).2) f

variable {f i} {slots : List Nat}

@[simp] theorem evalAll_nil : f.evalAll [] = f := rfl

@[simp] theorem evalAll_cons : f.evalAll (i :: slots) = (f.eval i).2.evalAll slots := rfl

theorem size_evalAll : (f.evalAll slots).size = f.size := by
  induction slots generalizing f with
  | nil => rfl
  | cons i rest ih => rw [evalAll_cons, ih, size_eval]

theorem outcome_evalAll : (f.evalAll slots).outcome j = f.outcome j := by
  induction slots generalizing f with
  | nil => rfl
  | cons i rest ih => rw [evalAll_cons, ih, outcome_eval]

/-- However often slots are asked for, each of them changes once, and the others do not. -/
theorem slots_evalAll : (f.evalAll slots).slots[i]? =
    if i ∈ slots then f.slots[i]?.map Slot.asked else f.slots[i]? := by
  induction slots generalizing f with
  | nil => rfl
  | cons j rest ih =>
    rw [evalAll_cons, ih, getElem?_eval, Slot.map_asked_twice]
    simp only [List.mem_cons, eq_comm]

/-- A slot that is not asked for stays as it is. -/
theorem getElem?_evalAll (h : i ∉ slots) : (f.evalAll slots).slots[i]? = f.slots[i]? := by
  rw [slots_evalAll, if_neg h]

theorem cached?_evalAll_of_cached {p : Payload} (h : f.cached? i = some p) :
    (f.evalAll slots).cached? i = some p := by
  induction slots generalizing f with
  | nil => exact h
  | cons j rest ih => exact ih (cached?_eval _ _ _ h)

/-- A slot that is asked for and comes to a value holds it afterwards. -/
theorem cached?_evalAll {p : Payload} (hmem : i ∈ slots) (h : f.outcome i = .ok p) :
    (f.evalAll slots).cached? i = some p := by
  induction slots generalizing f with
  | nil => cases hmem
  | cons j rest ih =>
    rw [evalAll_cons]
    rcases List.mem_cons.mp hmem with rfl | hrest
    · exact cached?_evalAll_of_cached (cached?_eval_self _ _ h)
    · exact ih hrest (by rwa [outcome_eval])

end Frame

end SceneScript
