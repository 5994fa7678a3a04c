/-
SceneScript.Proofs.ConversionTheorems — which values can be copied onto which.

There are two conversions between types, and each goes from the one of two types
with the same slots to the other (`Conversion.source`, `Conversion.target`). What
a conversion gives is a value of its target with the slots of what it was given
(`exists_apply`). A registry may have attached them to any types,
but a copy onto a value first looks at the types of both and then only at the
entry under the key of the target's own type, so that nothing else can come of it
(`exists_copyConvert_iff`, `copyConvert_spec`).

`conversions_closed` says so of every registry, and of the standard one it says
what that means there: vectors and colors go there and back unchanged, and between
any other two types there is no conversion.
-/
import SceneScript.Proofs.FieldTheorems
import SceneScript.Proofs.InstallTheorems

namespace SceneScript

/-! ## §1 The two conversions -/

namespace Conversion

/-- The type that a conversion makes. -/
def target : Conversion → Kind
  | toVec3 => .vec3
  | toColor => .color

/-- The type that a conversion makes it of. -/
def source : Conversion → Kind
  | toVec3 => .color
  | toColor => .vec3

/-- A conversion that is given a value of either of its types writes a value of its target with the
same slots. -/
theorem exists_apply (c : Conversion) {target source : Payload} (htarget : target.kind = c.target)
    (hsource : source.kind = c.target ∨ source.kind = c.source) :
    ∃ p, c.apply target source = (.ok (), p) ∧ p.kind = c.target ∧ p.slots? = source.slots? := by
  cases c with
  | toVec3 =>
    obtain ⟨_, rfl⟩ := (Form.vec3.exists_wrap target).mp htarget
    rcases hsource with hsource | hsource
    · obtain ⟨v, rfl⟩ := (Form.vec3.exists_wrap source).mp hsource
      exact ⟨.vec3 v, rfl, rfl, rfl⟩
    · obtain ⟨c, rfl⟩ := (Form.color.exists_wrap source).mp hsource
      exact ⟨.vec3 c.toVec3, rfl, rfl, rfl⟩
  | toColor =>
    obtain ⟨_, rfl⟩ := (Form.color.exists_wrap target).mp htarget
    rcases hsource with hsource | hsource
    · obtain ⟨c, rfl⟩ := (Form.color.exists_wrap source).mp hsource
      exact ⟨.color c, rfl, rfl, rfl⟩
    · obtain ⟨v, rfl⟩ := (Form.vec3.exists_wrap source).mp hsource
      exact ⟨.color (.ofVec3 v), rfl, rfl, rfl⟩

/-- Attached to another type than its target, a conversion only ever objects. -/
theorem apply_of_target_ne (c : Conversion) {target : Payload} (h : target.kind ≠ c.target)
    (source : Payload) :
    c.apply target source = (.error (.mismatch c.target.typeName target.typeName), target) := by
  cases c with
  | toVec3 => cases target <;> first | rfl | exact absurd rfl h
  | toColor => cases target <;> first | rfl | exact absurd rfl h

/-- What a conversion is made of is a flat record. -/
theorem exists_slots (c : Conversion) {source : Payload} (h : source.kind = c.source) :
    ∃ l, source.slots? = some l := by
  cases c with
  | toVec3 =>
    obtain ⟨c, rfl⟩ := (Form.color.exists_wrap source).mp h
    exact ⟨c.slots, rfl⟩
  | toColor =>
    obtain ⟨v, rfl⟩ := (Form.vec3.exists_wrap source).mp h
    exact ⟨v.slots, rfl⟩

/-- Values of any third type cannot be converted. -/
theorem apply_of_source_ne (c : Conversion) {target source : Payload}
    (htarget : target.kind = c.target) (h : source.kind ≠ c.target) (h' : source.kind ≠ c.source) :
    c.apply target source = (.error (.unconvertible source.typeName target.typeName), target) := by
  cases c with
  | toVec3 =>
    obtain ⟨_, rfl⟩ := (Form.vec3.exists_wrap target).mp htarget
    cases source <;> first | rfl | exact absurd rfl h | exact absurd rfl h'
  | toColor =>
    obtain ⟨_, rfl⟩ := (Form.color.exists_wrap target).mp htarget
    cases source <;> first | rfl | exact absurd rfl h | exact absurd rfl h'

end Conversion

/-! ## §2 Copies -/

namespace Registry

variable {r : Registry} {target source p : Payload}

/-- The pairs of types for which a registry has a copy: equal ones, and those of a conversion that
is attached to the type under the key of its own target. -/
inductive Converts (r : Registry) : (source target : Kind) → Prop
  | same (kind : Kind) : Converts r kind kind
  | attached {e : TypeEntry} (c : Conversion) (hfind : r.find? c.target.key = some e)
      (hattached : e.conversion = some c) : Converts r c.source c.target

theorem copyOnto_of_same (h : source.kind = target.kind) :
    r.copyOnto target source = (.ok (), source) := by
  simp only [copyOnto, Payload.assign, if_pos h]

theorem copyOnto_of_attached (hne : source.kind ≠ target.kind) {e : TypeEntry} {c : Conversion}
    (hfind : r.find? target.kind.key = some e) (hattached : e.conversion = some c) :
    r.copyOnto target source = c.apply target source := by
  have hkey : r.find? target.typeKey = some e := hfind
  simp only [copyOnto, Payload.assign, if_neg hne, hkey, hattached]

theorem copyOnto_of_unattached (hne : source.kind ≠ target.kind) {e : TypeEntry}
    (hfind : r.find? target.kind.key = some e) (hattached : e.conversion = none) :
    r.copyOnto target source =
      (.error (.unconvertible source.typeName target.typeName), target) := by
  have hkey : r.find? target.typeKey = some e := hfind
  simp only [copyOnto, Payload.assign, if_neg hne, hkey, hattached]

theorem copyOnto_of_unknown (hne : source.kind ≠ target.kind)
    (hfind : r.find? target.kind.key = none) :
    r.copyOnto target source = (.error (.unknownType target.typeName), target) := by
  have hkey : r.find? target.typeKey = none := hfind
  simp only [copyOnto, Payload.assign, if_neg hne, hkey]

/-- A copy that the registry has leaves a value of the target's type with the slots of the
source. -/
theorem Converts.exists_copy (h : r.Converts source.kind target.kind) :
    ∃ p, r.copyOnto target source = (.ok (), p) ∧ p.kind = target.kind ∧
      p.slots? = source.slots? := by
  by_cases hsame : source.kind = target.kind
  · exact ⟨source, copyOnto_of_same hsame, hsame, rfl⟩
  · generalize hsource : source.kind = k at h
    generalize htarget : target.kind = k' at h
    cases h with
    | same _ => exact absurd (hsource.trans htarget.symm) hsame
    | attached c hfind hattached =>
      rw [copyOnto_of_attached hsame (htarget ▸ hfind) hattached]
      exact c.exists_apply htarget (.inr hsource)

/-- Any other copy is objected to and leaves the target, whatever is attached to its type. -/
theorem copyOnto_of_not_converts (h : ¬ r.Converts source.kind target.kind) :
    ∃ e, r.copyOnto target source = (.error e, target) := by
  have hne : source.kind ≠ target.kind := fun heq => h (heq ▸ .same _)
  cases hfind : r.find? target.kind.key with
  | none => exact ⟨_, copyOnto_of_unknown hne hfind⟩
  | some e =>
    cases hattached : e.conversion with
    | none => exact ⟨_, copyOnto_of_unattached hne hfind hattached⟩
    | some c =>
      rw [copyOnto_of_attached hne hfind hattached]
      by_cases htarget : target.kind = c.target
      · have hsource : source.kind ≠ c.source := by
          intro hsource
          rw [htarget] at hfind
          rw [hsource, htarget] at h
          exact h (.attached c hfind hattached)
        exact ⟨_, c.apply_of_source_ne htarget (htarget ▸ hne) hsource⟩
      · exact ⟨_, c.apply_of_target_ne htarget source⟩

/-- A copy comes to one of two ends. -/
theorem copyOnto_cases (r : Registry) (target source : Payload) :
    (r.Converts source.kind target.kind ∧ ∃ p, r.copyOnto target source = (.ok (), p) ∧
      p.kind = target.kind ∧ p.slots? = source.slots?) ∨
    (¬ r.Converts source.kind target.kind ∧ ∃ e, r.copyOnto target source = (.error e, target)) := by
  by_cases h : r.Converts source.kind target.kind
  · exact .inl ⟨h, h.exists_copy⟩
  · exact .inr ⟨h, copyOnto_of_not_converts h⟩

theorem copyConvert_eq_ok_iff :
    r.copyConvert target source = .ok p ↔ r.copyOnto target source = (.ok (), p) :=
  madeBy_eq_ok_iff

theorem exists_copyConvert_iff :
    (∃ p, r.copyConvert target source = .ok p) ↔ r.Converts source.kind target.kind := by
  simp only [copyConvert_eq_ok_iff]
  obtain ⟨h, p, hp, -⟩ | ⟨h, e, he⟩ := copyOnto_cases r target source
  · simp [hp, h]
  · simp [he, h]

/-- The type of a target is the same after any copy onto it. -/
theorem kind_copyOnto (r : Registry) (target source : Payload) :
    (r.copyOnto target source).2.kind = target.kind := by
  obtain ⟨-, p, hp, hkind, -⟩ | ⟨-, e, he⟩ := copyOnto_cases r target source
  · rw [hp]
    exact hkind
  · rw [he]

/-- What a copy comes to is pinned down by its type and its slots. -/
theorem copyConvert_spec (hp : r.copyConvert target source = .ok p) :
    p.kind = target.kind ∧ p.slots? = source.slots? ∧ (source.kind = target.kind → p = source) := by
  obtain ⟨q, hq, hkind, hslots⟩ := (exists_copyConvert_iff.mp ⟨p, hp⟩).exists_copy
  rw [copyConvert_eq_ok_iff] at hp
  rw [hp] at hq
  cases hq
  refine ⟨hkind, hslots, fun hsame => ?_⟩
  rw [copyOnto_of_same hsame] at hp
  cases hp
  rfl

/-- A copy there and a copy back, where both types have the other's conversion. -/
theorem copyConvert_back {c : Conversion} {q target' : Payload} (hsource : source.kind = c.source)
    (htarget' : target'.kind = c.source) (hp : r.copyConvert target source = .ok p)
    (hq : r.copyConvert target' p = .ok q) : q = source := by
  obtain ⟨-, hslots, -⟩ := copyConvert_spec hp
  obtain ⟨hkind, hslots', -⟩ := copyConvert_spec hq
  obtain ⟨l, hl⟩ := c.exists_slots hsource
  refine Payload.eq_of_slots? ?_ ((hslots'.trans hslots).trans hl) hl
  rw [hkind, htarget', hsource]

/-- How a registry copies values onto others. -/
structure ClosedTable (r : Registry) : Prop where
  /-- A copy works for values of one type and for the pairs of a conversion that is in its place. -/
  exists_iff : ∀ target source,
    (∃ p, r.copyConvert target source = .ok p) ↔ r.Converts source.kind target.kind
  /-- It keeps the type of the target and takes over the slots of the source. -/
  kind_eq : ∀ target source p, r.copyConvert target source = .ok p → p.kind = target.kind
  slots_eq : ∀ target source p, r.copyConvert target source = .ok p → p.slots? = source.slots?
  eq_source : ∀ target source p, r.copyConvert target source = .ok p →
    source.kind = target.kind → p = source
  /-- Such a copy is made in place, -/
  copied_iff : ∀ target source p,
    r.copyConvert target source = .ok p ↔ r.copyOnto target source = (.ok (), p)
  /-- and one that fails leaves the target as it was. -/
  left : ∀ target source e,
    (r.copyOnto target source).1 = .error e → (r.copyOnto target source).2 = target
  /-- In a session a copy that fails changes nothing at all. -/
  refused : ∀ (s : Session) (var source : String) (e : Error),
    (s.step (.copyConvert var source)).1 = .error e → (s.step (.copyConvert var source)).2 = s

theorem closedTable (r : Registry) : r.ClosedTable where
  exists_iff _ _ := exists_copyConvert_iff
  kind_eq _ _ _ hp := (copyConvert_spec hp).1
  slots_eq _ _ _ hp := (copyConvert_spec hp).2.1
  eq_source _ _ _ hp := (copyConvert_spec hp).2.2
  copied_iff _ _ _ := copyConvert_eq_ok_iff
  left target source e := r.harmless_copyOnto source target e
  refused s var source e herror := by
    refine Session.step_of_not_taken rfl ?_
    rw [herror]
    exact id

end Registry

/-! ## §3 The standard types -/

/-- The types of values that no host has to bring along. -/
def Kind.own : List Kind := [
  .number, .integer, .boolean, .text, .vec2, .vec3, .mat3, .ray, .rayCone, .color, .colorRow,
  .colorImage, .plane, .sphere, .squaroid, .torus]

theorem Kind.mem_own {k : Kind} (hk : k.isHosted = false) : k ∈ own := by
  cases k with
  | hosted type => cases hk
  | _ => decide

/-- A type is told from a type that no host brings along by its name, unless it is brought along. -/
theorem Kind.eq_of_typeName {k k' : Kind} (hk : k.isHosted = false) (hk' : k'.isHosted = false)
    (h : k.typeName = k'.typeName) : k = k' :=
  List.inj_on_of_nodup_map (by decide : (own.map typeName).Nodup) (mem_own hk) (mem_own hk') h

namespace Standard

/-- The conversion that is attached to a standard type. -/
def conversion? : Kind → Option Conversion
  | .vec3 => some .toVec3
  | .color => some .toColor
  | _ => none

theorem conversion?_eq_some_iff {k : Kind} {c : Conversion} :
    conversion? k = some c ↔ k = c.target := by
  cases k <;> cases c <;> simp [conversion?, Conversion.target]

theorem bind_conversion_types :
    ∀ k ∈ Kind.own, (types.find? k.key).bind TypeEntry.conversion = conversion? k := by
  decide +kernel

/-- Every type of values that no host brings along is a standard type. -/
theorem find?_types {k : Kind} (hk : k.isHosted = false) : ∃ e, types.find? k.key = some e ∧
    e.name = k.typeName ∧ e.fresh = k.default ∧ e.conversion = conversion? k := by
  obtain ⟨e, hfind, hname, hfresh⟩ :=
    Registry.stocked_of_grants Registry.valid_empty grants_registrations k hk
  have hconversion := bind_conversion_types k (Kind.mem_own hk)
  rw [show types.find? k.key = some e from hfind] at hconversion
  exact ⟨e, hfind, hname, hfresh, hconversion⟩

/-- Every standard type is one of the types of values. -/
theorem exists_kind {e : TypeEntry} (he : e ∈ types.entries) :
    ∃ k : Kind, k.isHosted = false ∧ e.name = k.typeName ∧ e.key = k.key ∧ types.find? k.key = some e ∧
      e.fresh = k.default := by
  have hname : e.name ∈ typeNames := by
    rw [← map_name_types]
    exact List.mem_map_of_mem he
  obtain ⟨k, hk, hkname⟩ : ∃ k : Kind, k.isHosted = false ∧ e.name = k.typeName := by
    have hown : ∀ name ∈ typeNames, ∃ k ∈ Kind.own, k.isHosted = false ∧ name = k.typeName := by
      decide
    obtain ⟨k, -, hk, hkname⟩ := hown e.name hname
    exact ⟨k, hk, hkname⟩
  have hkey : e.key = k.key := by rw [valid_types.key_of_mem he, hkname, Kind.key]
  have hfind := valid_types.find?_key he
  rw [hkey] at hfind
  obtain ⟨e', hfind', -, hfresh, -⟩ := find?_types hk
  rw [hfind] at hfind'
  cases hfind'
  exact ⟨k, hk, hkname, hkey, hfind, hfresh⟩

/-- The types of an engine with everything standard. -/
theorem types_standard (config : Config) : (Engine.standard config).2.types = types := by
  rw [Engine.standard_eq]
  simp only [Engine.equipped, Engine.types_grown, types]

/-- Among the standard types there are the two conversions, both ways. -/
theorem converts_types (c : Conversion) : types.Converts c.source c.target := by
  have hown : c.target.isHosted = false := by cases c <;> rfl
  obtain ⟨e, hfind, -, -, hattached⟩ := find?_types hown
  exact .attached c hfind (hattached.trans (conversion?_eq_some_iff.mpr rfl))

/-- And there are no others. -/
theorem copyConvert_types {target source : Payload} (hne : source.kind ≠ target.kind)
    (hknown : target.kind.isHosted = false)
    (hnot : ∀ c : Conversion, ¬ (source.kind = c.source ∧ target.kind = c.target)) :
    types.copyConvert target source =
      .error (.unconvertible source.typeName target.typeName) := by
  obtain ⟨e, hfind, -, -, hattached⟩ := find?_types hknown
  cases hc : conversion? target.kind with
  | none =>
    rw [Registry.copyConvert, Registry.copyOnto_of_unattached hne hfind (hattached.trans hc)]
    rfl
  | some c =>
    have htarget := conversion?_eq_some_iff.mp hc
    rw [Registry.copyConvert, Registry.copyOnto_of_attached hne hfind (hattached.trans hc),
      c.apply_of_source_ne htarget (htarget ▸ hne) fun hsource => hnot c ⟨hsource, htarget⟩]
    rfl

/-- A value of a standard type made of another value is a copy onto the default of the type. -/
theorem convert_types {k : Kind} (hk : k.isHosted = false) (v : Value) :
    v.convert types k.key =
      (types.copyConvert k.default v.payload).map (Value.owned k.default).withPayload := by
  obtain ⟨e, hfind, -, hfresh, -⟩ := find?_types hk
  simp only [Value.convert, Value.create, Registry.construct, hfind, hfresh, Except.map]
  rfl

end Standard

/-- The key of a value that is changed to another of its type fits. -/
theorem Value.withPayload_owned {p q : Payload} (h : p.kind = q.kind) :
    (owned q).withPayload p = owned p := by
  simp only [withPayload, owned, wrap, Payload.typeKey, Payload.typeName, h]

/-- How values are converted among the types of a registry. -/
structure Registry.StandardTable (r : Registry) : Prop where
  /-- A vector becomes a color and a color a vector, and back they are what they were. -/
  round_trip : ∀ (c : Conversion) (v : Value), v.payload.kind = c.source →
    ∃ w, v.convert r c.target.key = .ok w ∧ w.payload.kind = c.target ∧
      w.convert r c.source.key = .ok (.owned v.payload)
  /-- Any other two types have no conversion. -/
  others : ∀ e ∈ r.entries, ∀ e' ∈ r.entries, e ≠ e' →
    (∀ c : Conversion, ¬ (e.name = c.source.typeName ∧ e'.name = c.target.typeName)) →
    ∀ v : Value, v.typeName = e.name →
      v.convert r e'.key = .error (.unconvertible e.name e'.name)

theorem Standard.standardTable : types.StandardTable := by
  constructor
  case round_trip =>
    intro c v hsource
    have htarget : c.target.default.kind = c.target := Kind.kind_default _
    have hsource' : c.source.default.kind = c.source := Kind.kind_default _
    have hthere : types.Converts v.payload.kind c.target.default.kind := by
      rw [hsource, htarget]
      exact converts_types c
    obtain ⟨p, hthere, hkind, -⟩ := hthere.exists_copy
    have hp := Registry.copyConvert_eq_ok_iff.mpr hthere
    have hback : types.Converts p.kind c.source.default.kind := by
      rw [hkind, htarget, hsource']
      cases c with
      | toVec3 => exact converts_types .toColor
      | toColor => exact converts_types .toVec3
    obtain ⟨q, hback, -⟩ := hback.exists_copy
    have hq := Registry.copyConvert_eq_ok_iff.mpr hback
    have hsame : q = v.payload := Registry.copyConvert_back hsource hsource' hp hq
    refine ⟨(Value.owned c.target.default).withPayload p, ?_, hkind.trans htarget, ?_⟩
    · rw [convert_types (by cases c <;> decide), hp]
      rfl
    · have hcopy : types.copyConvert c.source.default
          ((Value.owned c.target.default).withPayload p).payload = .ok v.payload := hsame ▸ hq
      rw [convert_types (by cases c <;> decide), hcopy]
      exact congrArg Except.ok (Value.withPayload_owned (hsource.trans hsource'.symm))
  case others =>
    intro e he e' he' hne hnot v hv
    obtain ⟨k, hk, hname, -, hfind, -⟩ := exists_kind he
    obtain ⟨k', hk', hname', hkey', hfind', -⟩ := exists_kind he'
    have hkind' : k'.default.kind = k' := Kind.kind_default k'
    have hother : v.payload.kind ≠ k'.default.kind := by
      rw [hkind']
      intro hkind
      have hsame : k = k' := Kind.eq_of_typeName hk hk' (by rw [← hname, ← hv, ← hkind]; rfl)
      rw [hsame, hfind'] at hfind
      exact hne (Option.some.inj hfind).symm
    have hcopy := copyConvert_types hother (hkind'.symm ▸ hk') fun c hc =>
      hnot c ⟨by rw [← hv, ← hc.1]; rfl, by rw [hname', ← hkind', hc.2]⟩
    rw [hkey', convert_types hk', hcopy, hname']
    have hgot : v.payload.typeName = e.name := hv
    have hexpected : k'.default.typeName = k'.typeName := congrArg Kind.typeName hkind'
    rw [hgot, hexpected]
    rfl

/-- **The table of conversions is closed.** In any registry, whatever is attached to whatever types,
values are copied onto values of their own type and between the two types of a conversion in its
place, and onto nothing else; and in the standard registry, there and back is where one started. -/
theorem Registry.conversions_closed (config : Config) :
    (∀ r : Registry, r.ClosedTable) ∧ (Engine.standard config).2.types.StandardTable := by
  refine ⟨closedTable, ?_⟩
  rw [Standard.types_standard]
  exact Standard.standardTable

/-- Attached to another type, a conversion is of no use to it. -/
example : ((({} : Registry).performAll
    [.plain "f64" .number, .conversion (Key.ofName "f64") .toColor]).copyConvert
      (.number 0) (.vec3 {})).toOption.isNone := by
  decide

end SceneScript
