/-
SceneScript.Proofs.FieldTheorems — a path to a number is a lens into a record.

A flat record is nothing but its slots: there are as many as its type has, all
combinations occur, and the record is read back from them (`Slotted`, and
`setSlots?_eq_some_iff` for all types at once). So what a path leads to is all
that reading and writing depend on. `SlotAt` says that a path leads to one slot
that the record has; this is when a number can be read there, and when one can be
written (`getField_eq_ok_iff`, `setField_eq_ok_iff`).

`fields_lens` puts together what follows. Nothing is asked of the registry: its
layouts need not fit the values, and sums of offsets may wrap around.
-/
import SceneScript.Proofs.SessionTheorems

namespace SceneScript

/-! ## §1 Records as slots -/

/-- A type of flat records is nothing but its slots: there are `count` of them, all combinations
occur, and the record is read back from them. -/
structure Slotted {α : Type} (slots : α → List Float) (ofSlots? : List Float → Option α)
    (count : Nat) : Prop where
  ofSlots?_slots : ∀ a, ofSlots? (slots a) = some a
  slots_of_some : ∀ l a, ofSlots? l = some a → slots a = l
  length_slots : ∀ a, (slots a).length = count
  exists_slots : ∀ l, l.length = count → ∃ a, slots a = l

theorem Vec2.slotted : Slotted slots ofSlots? 2 where
  ofSlots?_slots _ := rfl
  slots_of_some l v h := by
    unfold ofSlots? at h
    split at h <;> cases h
    rfl
  length_slots _ := rfl
  exists_slots l h := by
    match l, h with
    | [x, y], _ => exact ⟨⟨x, y⟩, rfl⟩

theorem Vec3.slotted : Slotted slots ofSlots? 3 where
  ofSlots?_slots := ofSlots?_slots
  slots_of_some l v h := by
    unfold ofSlots? at h
    split at h <;> cases h
    rfl
  length_slots _ := rfl
  exists_slots l h := by
    match l, h with
    | [x, y, z], _ => exact ⟨⟨x, y, z⟩, rfl⟩

theorem Mat3.slotted : Slotted slots ofSlots? 9 where
  ofSlots?_slots := ofSlots?_slots
  slots_of_some l m h := by
    unfold ofSlots? at h
    split at h <;> cases h
    rfl
  length_slots _ := rfl
  exists_slots l h := by
    match l, h with
    | [a, b, c, d, e, f, g, h, i], _ => exact ⟨⟨⟨a, b, c⟩, ⟨d, e, f⟩, ⟨g, h, i⟩⟩, rfl⟩

theorem Ray.slotted : Slotted slots ofSlots? 6 where
  ofSlots?_slots _ := rfl
  slots_of_some l r h := by
    unfold ofSlots? at h
    split at h <;> cases h
    rfl
  length_slots _ := rfl
  exists_slots l h := by
    match l, h with
    | [a, b, c, d, e, f], _ => exact ⟨⟨⟨a, b, c⟩, ⟨d, e, f⟩⟩, rfl⟩

theorem RayCone.slotted : Slotted slots ofSlots? 7 where
  ofSlots?_slots := ofSlots?_slots
  slots_of_some l c h := by
    unfold ofSlots? at h
    split at h <;> cases h
    rfl
  length_slots _ := rfl
  exists_slots l h := by
    match l, h with
    | [a, b, c, d, e, f, g], _ => exact ⟨⟨⟨⟨a, b, c⟩, ⟨d, e, f⟩⟩, g⟩, rfl⟩

theorem Color.slotted : Slotted slots ofSlots? 3 where
  ofSlots?_slots _ := rfl
  slots_of_some l c h := by
    unfold ofSlots? at h
    split at h <;> cases h
    rfl
  length_slots _ := rfl
  exists_slots l h := by
    match l, h with
    | [r, g, b], _ => exact ⟨⟨r, g, b⟩, rfl⟩

theorem Slotted.ofSlots?_eq_some_iff {α : Type} {slots : α → List Float}
    {ofSlots? : List Float → Option α} {count : Nat} (h : Slotted slots ofSlots? count)
    {l : List Float} {a : α} : ofSlots? l = some a ↔ slots a = l := by
  refine ⟨h.slots_of_some l a, ?_⟩
  rintro rfl
  exact h.ofSlots?_slots a

/-- The number of slots of the values of a type, if they are flat records. -/
def Kind.slotCount? : Kind → Option Nat
  | vec2 => some 2
  | vec3 => some 3
  | mat3 => some 9
  | ray => some 6
  | rayCone => some 7
  | color => some 3
  | _ => none

namespace Payload

variable {p p' : Payload} {l l' : List Float}

@[simp] theorem madeBy?_replace (p : Payload) (made : Option Payload) :
    madeBy? (p.replace made) = made := by
  cases made <;> rfl

/-- Writing slots gives the record of the same type that has them, and works if there is one. -/
theorem setSlots?_eq_some_iff :
    p.setSlots? l = some p' ↔ p'.kind = p.kind ∧ p'.slots? = some l := by
  unfold setSlots?
  cases p with
  | vec2 _ => cases p' <;> simp [setSlots, kind, slots?, Vec2.slotted.ofSlots?_eq_some_iff]
  | vec3 _ => cases p' <;> simp [setSlots, kind, slots?, Vec3.slotted.ofSlots?_eq_some_iff]
  | mat3 _ => cases p' <;> simp [setSlots, kind, slots?, Mat3.slotted.ofSlots?_eq_some_iff]
  | ray _ => cases p' <;> simp [setSlots, kind, slots?, Ray.slotted.ofSlots?_eq_some_iff]
  | rayCone _ => cases p' <;> simp [setSlots, kind, slots?, RayCone.slotted.ofSlots?_eq_some_iff]
  | color _ => cases p' <;> simp [setSlots, kind, slots?, Color.slotted.ofSlots?_eq_some_iff]
  | _ => cases p' <;> simp [setSlots, madeBy?, kind, slots?]

/-- Slots are written or the record is left as it was. -/
theorem setSlots_cases (p : Payload) (l : List Float) :
    (∃ p', p.setSlots? l = some p' ∧ p.setSlots l = (true, p')) ∨ p.setSlots l = (false, p) := by
  cases hset : p.setSlots l with
  | mk taken p' =>
    cases taken with
    | true => exact .inl ⟨p', madeBy?_eq_some_iff.2 hset, rfl⟩
    | false =>
      have hleft := harmless_setSlots l p (congrArg Prod.fst hset)
      exact .inr (congrArg (Prod.mk false) ((congrArg Prod.snd hset).symm.trans hleft))

theorem kind_setSlots (p : Payload) (l : List Float) : (p.setSlots l).2.kind = p.kind := by
  obtain ⟨p', hp', hset⟩ | hset := p.setSlots_cases l
  · rw [hset]
    exact (setSlots?_eq_some_iff.1 hp').1
  · rw [hset]

/-- A record has as many slots as its type. -/
theorem length_slots? (h : p.slots? = some l) : p.kind.slotCount? = some l.length := by
  cases p with
  | vec2 v => cases h; exact congrArg some (Vec2.slotted.length_slots v).symm
  | vec3 v => cases h; exact congrArg some (Vec3.slotted.length_slots v).symm
  | mat3 m => cases h; exact congrArg some (Mat3.slotted.length_slots m).symm
  | ray r => cases h; exact congrArg some (Ray.slotted.length_slots r).symm
  | rayCone c => cases h; exact congrArg some (RayCone.slotted.length_slots c).symm
  | color c => cases h; exact congrArg some (Color.slotted.length_slots c).symm
  | _ => cases h

/-- As many numbers as a type has slots are the slots of one of its records. -/
theorem exists_slots? {kind : Kind} (h : kind.slotCount? = some l.length) :
    ∃ p : Payload, p.kind = kind ∧ p.slots? = some l := by
  cases kind with
  | vec2 =>
    obtain ⟨v, hv⟩ := Vec2.slotted.exists_slots l (Option.some.inj h).symm
    exact ⟨.vec2 v, rfl, congrArg some hv⟩
  | vec3 =>
    obtain ⟨v, hv⟩ := Vec3.slotted.exists_slots l (Option.some.inj h).symm
    exact ⟨.vec3 v, rfl, congrArg some hv⟩
  | mat3 =>
    obtain ⟨m, hm⟩ := Mat3.slotted.exists_slots l (Option.some.inj h).symm
    exact ⟨.mat3 m, rfl, congrArg some hm⟩
  | ray =>
    obtain ⟨r, hr⟩ := Ray.slotted.exists_slots l (Option.some.inj h).symm
    exact ⟨.ray r, rfl, congrArg some hr⟩
  | rayCone =>
    obtain ⟨c, hc⟩ := RayCone.slotted.exists_slots l (Option.some.inj h).symm
    exact ⟨.rayCone c, rfl, congrArg some hc⟩
  | color =>
    obtain ⟨c, hc⟩ := Color.slotted.exists_slots l (Option.some.inj h).symm
    exact ⟨.color c, rfl, congrArg some hc⟩
  | _ => cases h

/-- Writing back the slots that were read changes nothing. -/
theorem setSlots?_slots (h : p.slots? = some l) : p.setSlots? l = some p :=
  setSlots?_eq_some_iff.2 ⟨rfl, h⟩

/-- Slots can be written over as many slots. -/
theorem exists_setSlots? (h : p.slots? = some l) (hlength : l'.length = l.length) :
    ∃ p', p.setSlots? l' = some p' := by
  have hcount := length_slots? h
  rw [← hlength] at hcount
  obtain ⟨p', hp'⟩ := exists_slots? hcount
  exact ⟨p', setSlots?_eq_some_iff.2 hp'⟩

/-- Records of one type with the same slots are the same. -/
theorem eq_of_slots? (hkind : p.kind = p'.kind) (h : p.slots? = some l) (h' : p'.slots? = some l) :
    p = p' := by
  have hp := setSlots?_eq_some_iff.2 ⟨hkind, h⟩
  rw [setSlots?_slots h'] at hp
  exact (Option.some.inj hp).symm

end Payload

/-! ## §2 One slot -/

namespace Registry

/-- A path leads to one slot, which the record has. -/
def SlotAt (r : Registry) (p : Payload) (path : String) (i : Nat) : Prop :=
  r.fieldSpan p.typeKey path = .ok (i, 1) ∧ ∃ slots, p.slots? = some slots ∧ i < slots.length

variable {r : Registry} {p p' : Payload} {path : String} {i : Nat} {x y : Float}

theorem SlotAt.unique {j : Nat} (hi : r.SlotAt p path i) (hj : r.SlotAt p path j) : i = j := by
  have h := hi.1.symm.trans hj.1
  cases h
  rfl

/-- Where a path leads is a matter of the type and not of the slots. -/
theorem SlotAt.of_kind (h : r.SlotAt p path i) (hkind : p'.kind = p.kind)
    {slots : List Float} (hslots : p'.slots? = some slots) : r.SlotAt p' path i := by
  obtain ⟨hspan, slots', hslots', hi⟩ := h
  have hkey : p'.typeKey = p.typeKey := by rw [Payload.typeKey, Payload.typeName, hkind]; rfl
  have hcount := Payload.length_slots? hslots
  rw [hkind, Payload.length_slots? hslots'] at hcount
  refine ⟨by rw [hkey]; exact hspan, slots, hslots, ?_⟩
  rwa [← Option.some.inj hcount]

/-- A number is read if the path leads to a slot, and then it is what that slot holds. -/
theorem getField_eq_ok_iff : r.getField p path = .ok x ↔
    ∃ i slots, r.SlotAt p path i ∧ p.slots? = some slots ∧ slots[i]? = some x := by
  constructor
  · intro h
    unfold getField at h
    split at h
    · cases h
    · next offset width hspan =>
      split at h
      · cases h
      · next slots hslots =>
        split at h
        · next hwidth =>
          subst hwidth
          split at h
          · next y hy =>
            cases h
            exact ⟨offset, slots, ⟨hspan, slots, hslots, (List.getElem?_eq_some_iff.1 hy).1⟩,
              hslots, hy⟩
          · cases h
        · cases h
  · rintro ⟨i, slots, ⟨hspan, -⟩, hslots, hx⟩
    simp only [getField, hspan, hslots, if_true, hx]

/-- A number is written if the path leads to a slot, and then that slot holds it and the others
hold what they did. -/
theorem setField_eq_ok_iff : r.setField p path x = .ok p' ↔
    ∃ i slots, r.SlotAt p path i ∧ p.slots? = some slots ∧
      p'.kind = p.kind ∧ p'.slots? = some (slots.set i x) := by
  rw [setField, madeBy_eq_ok_iff]
  constructor
  · intro h
    unfold writeField at h
    split at h
    · cases h
    · next offset width hspan =>
      split at h
      · cases h
      · next slots hslots =>
        split at h
        · next hslot =>
          obtain ⟨rfl, hi⟩ := hslot
          have hlength : (slots.set offset x).length = slots.length := List.length_set
          obtain ⟨q, hq⟩ := Payload.exists_setSlots? hslots hlength
          rw [madeBy?_eq_some_iff.1 hq] at h
          cases h
          exact ⟨offset, slots, ⟨hspan, slots, hslots, hi⟩, hslots,
            Payload.setSlots?_eq_some_iff.1 hq⟩
        · cases h
  · rintro ⟨i, slots, ⟨hspan, slots', hslots', hi⟩, hslots, hset⟩
    rw [hslots] at hslots'
    cases hslots'
    have hq := madeBy?_eq_some_iff.1 (Payload.setSlots?_eq_some_iff.2 hset)
    simp only [writeField, hspan, hslots, hi, and_self, if_true, hq]

theorem exists_getField_iff : (∃ x, r.getField p path = .ok x) ↔ ∃ i, r.SlotAt p path i := by
  constructor
  · rintro ⟨x, hx⟩
    obtain ⟨i, -, hi, -⟩ := getField_eq_ok_iff.1 hx
    exact ⟨i, hi⟩
  · rintro ⟨i, hi⟩
    obtain ⟨slots, hslots, hlt⟩ := hi.2
    exact ⟨slots[i], getField_eq_ok_iff.2 ⟨i, slots, hi, hslots, List.getElem?_eq_getElem hlt⟩⟩

/-- A number can be written wherever there is a slot. -/
theorem SlotAt.exists_setField (h : r.SlotAt p path i) (x : Float) :
    ∃ p', r.setField p path x = .ok p' := by
  obtain ⟨slots, hslots, -⟩ := h.2
  have hlength : (slots.set i x).length = slots.length := List.length_set
  obtain ⟨p', hp'⟩ := Payload.exists_setSlots? hslots hlength
  exact ⟨p', setField_eq_ok_iff.2
    ⟨i, slots, h, hslots, Payload.setSlots?_eq_some_iff.1 hp'⟩⟩

theorem exists_setField_iff : (∃ p', r.setField p path x = .ok p') ↔ ∃ i, r.SlotAt p path i := by
  constructor
  · rintro ⟨p', hset⟩
    obtain ⟨i, -, hi, -⟩ := setField_eq_ok_iff.1 hset
    exact ⟨i, hi⟩
  · rintro ⟨i, hi⟩
    exact hi.exists_setField x

/-- What a write leaves behind, in the slot that the path leads to. -/
theorem SlotAt.setField_spec (h : r.SlotAt p path i) (hset : r.setField p path x = .ok p') :
    ∃ slots, p.slots? = some slots ∧ p'.kind = p.kind ∧ p'.slots? = some (slots.set i x) := by
  obtain ⟨j, slots, hj, hslots, hp'⟩ := setField_eq_ok_iff.1 hset
  rw [h.unique hj]
  exact ⟨slots, hslots, hp'⟩

/-- After a write every path leads to where it led before. -/
theorem SlotAt.after_setField {path' : String} {j : Nat} (h : r.SlotAt p path' j)
    (hset : r.setField p path x = .ok p') : r.SlotAt p' path' j := by
  obtain ⟨i, slots, -, -, hkind, hslots'⟩ := setField_eq_ok_iff.1 hset
  exact h.of_kind hkind hslots'

/-! ## §3 The laws -/

theorem getField_of_setField (h : r.setField p path x = .ok p') : r.getField p' path = .ok x := by
  obtain ⟨i, slots, hi, hslots, hkind, hslots'⟩ := setField_eq_ok_iff.1 h
  have hlt : i < slots.length := by
    obtain ⟨slots', hslots', hlt⟩ := hi.2
    rw [hslots] at hslots'
    cases hslots'
    exact hlt
  refine getField_eq_ok_iff.2 ⟨i, slots.set i x, hi.of_kind hkind hslots', hslots', ?_⟩
  simp [hlt]

theorem setField_of_getField (h : r.getField p path = .ok x) : r.setField p path x = .ok p := by
  obtain ⟨i, slots, hi, hslots, hx⟩ := getField_eq_ok_iff.1 h
  refine setField_eq_ok_iff.2 ⟨i, slots, hi, hslots, rfl, ?_⟩
  obtain ⟨hlt, rfl⟩ := List.getElem?_eq_some_iff.1 hx
  rw [hslots, List.set_getElem_self]

/-- A write to a slot forgets the one before it. -/
theorem setField_setField (h : r.setField p path x = .ok p') :
    r.setField p' path y = r.setField p path y := by
  obtain ⟨i, slots, hi, hslots, hkind, hslots'⟩ := setField_eq_ok_iff.1 h
  obtain ⟨q, hq⟩ := hi.exists_setField y
  obtain ⟨slots₁, hslots₁, hqkind, hqslots⟩ := hi.setField_spec hq
  rw [hslots] at hslots₁
  cases hslots₁
  rw [hq]
  refine setField_eq_ok_iff.2 ⟨i, _, hi.after_setField h, hslots', hqkind.trans hkind.symm, ?_⟩
  rw [hqslots, List.set_set]

/-- Writes to different slots come to the same in either order. -/
theorem SlotAt.setField_comm {path' : String} {j : Nat} (hi : r.SlotAt p path i)
    (hj : r.SlotAt p path' j) (hne : i ≠ j) (x y : Float) :
    ∃ p₁ p₂ q, r.setField p path x = .ok p₁ ∧ r.setField p₁ path' y = .ok q ∧
      r.setField p path' y = .ok p₂ ∧ r.setField p₂ path x = .ok q := by
  obtain ⟨p₁, h₁⟩ := hi.exists_setField x
  obtain ⟨p₂, h₂⟩ := hj.exists_setField y
  obtain ⟨q, hq⟩ := (hj.after_setField h₁).exists_setField y
  obtain ⟨slots, hslots, hkind₁, hslots₁⟩ := hi.setField_spec h₁
  obtain ⟨slots', hslots', hkind₂, hslots₂⟩ := hj.setField_spec h₂
  rw [hslots] at hslots'
  cases hslots'
  obtain ⟨slots', hslots', hkind, hqslots⟩ := (hj.after_setField h₁).setField_spec hq
  rw [hslots₁] at hslots'
  cases hslots'
  refine ⟨p₁, p₂, q, h₁, hq, h₂, ?_⟩
  refine setField_eq_ok_iff.2 ⟨i, _, hi.after_setField h₂, hslots₂, ?_, ?_⟩
  · rw [hkind, hkind₁, hkind₂]
  · rw [hqslots, List.set_comm _ _ hne]

/-- How the numbers in a record are read and written. -/
structure Lens (r : Registry) (p : Payload) : Prop where
  /-- A number is read where the path leads to a slot that the record has, and is what that slot
  holds. -/
  get_iff : ∀ path x, r.getField p path = .ok x ↔
    ∃ i slots, r.SlotAt p path i ∧ p.slots? = some slots ∧ slots[i]? = some x
  /-- There is always one to read at such a slot, -/
  get_total : ∀ path i, r.SlotAt p path i → ∃ x, r.getField p path = .ok x
  /-- and where one can be read, any can be written. -/
  set_iff : ∀ path x, (∃ p', r.setField p path x = .ok p') ↔ ∃ y, r.getField p path = .ok y
  get_set : ∀ path x p', r.setField p path x = .ok p' → r.getField p' path = .ok x
  /-- Only the slot that the path leads to may be different after a write. -/
  others : ∀ path x p', r.setField p path x = .ok p' →
    ∃ i slots slots', r.SlotAt p path i ∧ p'.kind = p.kind ∧ p.slots? = some slots ∧
      p'.slots? = some slots' ∧ slots'.length = slots.length ∧
      ∀ j, j ≠ i → slots'[j]? = slots[j]?
  set_get : ∀ path x, r.getField p path = .ok x → r.setField p path x = .ok p
  set_set : ∀ path x y p', r.setField p path x = .ok p' →
    r.setField p' path y = r.setField p path y
  set_comm : ∀ path path' i j x y, r.SlotAt p path i → r.SlotAt p path' j → i ≠ j →
    ∃ p₁ p₂ q, r.setField p path x = .ok p₁ ∧ r.setField p₁ path' y = .ok q ∧
      r.setField p path' y = .ok p₂ ∧ r.setField p₂ path x = .ok q
  /-- Such a write is made in place, -/
  written_iff : ∀ path x p', r.setField p path x = .ok p' ↔ r.writeField p path x = (.ok (), p')
  /-- and one that fails leaves the record as it was. -/
  left : ∀ path x e, (r.writeField p path x).1 = .error e → (r.writeField p path x).2 = p
  /-- In a session a write that fails changes nothing at all. -/
  refused : ∀ (s : Session) (var path : String) (x : Float) (e : Error),
    (s.step (.setField var path x)).1 = .error e → (s.step (.setField var path x)).2 = s

/-- **Fields are lenses**, into every record and by every path, whatever the registry says about
layouts. -/
theorem fields_lens (r : Registry) (p : Payload) : r.Lens p := by
  constructor
  case get_iff => exact fun path x => getField_eq_ok_iff
  case get_total => exact fun path i hi => exists_getField_iff.2 ⟨i, hi⟩
  case set_iff => exact fun path x => exists_setField_iff.trans exists_getField_iff.symm
  case get_set => exact fun path x p' => getField_of_setField
  case others =>
    intro path x p' hset
    obtain ⟨i, slots, hi, hslots, hkind, hslots'⟩ := setField_eq_ok_iff.1 hset
    refine ⟨i, slots, _, hi, hkind, hslots, hslots', List.length_set, fun j hj => ?_⟩
    exact List.getElem?_set_ne hj.symm
  case set_get => exact fun path x => setField_of_getField
  case set_set => exact fun path x y p' => setField_setField
  case set_comm => exact fun path path' i j x y hi hj hne => hi.setField_comm hj hne x y
  case written_iff => exact fun path x p' => madeBy_eq_ok_iff
  case left => exact fun path x e => r.harmless_writeField path x p e
  case refused =>
    intro s var path x e herror
    refine Session.step_of_not_taken rfl ?_
    rw [herror]
    exact id

/-- A layout may place a field where the record has no slot; then there is nothing to read. -/
example : ((((({} : Registry).register "v2d" (.vec2 {}) ⟨[⟨"x", .number, 2, 1⟩]⟩).2).getField
    (.vec2 {}) "x").toOption).isNone := by
  decide

end Registry

end SceneScript
