/-
SceneScript.Proofs.AccessTheorems — what can be read and written as a number.

A number is read and written at a path if the path ends at a field of one slot and the
record has that slot (`slotAt_iff`). Nothing is asked of what the field holds: a field
that holds a number has one slot, but so has one that holds a record of a single number.
At such a field the record's number is read and written, as if the path went on to it
(`Leads.one_slot`).

`field_numbers` says so of all registries that know their types from schemas, of all
records and of all paths; `nested_number` is a registry in which the record inside a pair
is read as a number.
-/
import SceneScript.Proofs.FieldTheorems
import SceneScript.Proofs.PathTheorems

namespace SceneScript

namespace Registry

variable {r : Registry} {e inner : TypeEntry} {p : Payload} {slots : List Float} {path : String}
  {parts rest : List String} {offset inside i : Nat} {f g : Field} {key : Key} {x : Float}

/-! ## §1 Slots -/

/-- A path in a type ends at a field, so many slots from the start. -/
def EndsAt (r : Registry) (type : Key) (path : String) (offset : Nat) (f : Field) : Prop :=
  ∃ e, r.find? type = some e ∧ r.Leads e (pathParts path) offset f

theorem EndsAt.fieldSpan (h : r.EndsAt key path offset f) :
    r.fieldSpan key path = .ok (offset % sizeLimit, f.width) := by
  obtain ⟨e, hfind, hleads⟩ := h
  exact fieldSpan_eq_ok_iff_leads.mpr ⟨e, offset, f, hfind, hleads, rfl, rfl⟩

/-- A path leads to a slot of a record if it ends at a field of one slot that the record has. -/
theorem slotAt_iff (hslots : p.slots? = some slots) : (∃ i, r.SlotAt p path i) ↔
    ∃ offset f, r.EndsAt p.typeKey path offset f ∧ f.width = 1 ∧
      offset % sizeLimit < slots.length := by
  constructor
  · rintro ⟨i, hspan, slots', hslots', hi⟩
    rw [hslots] at hslots'
    cases hslots'
    obtain ⟨e, offset, f, hfind, hleads, rfl, hwidth⟩ := fieldSpan_eq_ok_iff_leads.mp hspan
    exact ⟨offset, f, ⟨e, hfind, hleads⟩, hwidth.symm, hi⟩
  · rintro ⟨offset, f, hends, hwidth, hi⟩
    have hspan := hends.fieldSpan
    rw [hwidth] at hspan
    exact ⟨_, hspan, slots, hslots, hi⟩

/-- At a field of any other number of slots there is no number. -/
theorem EndsAt.refused (h : r.EndsAt p.typeKey path offset f) (hslots : p.slots? = some slots)
    (hwidth : f.width ≠ 1) : r.getField p path = .error (notOneSlot f.width path) ∧
      ∀ x, r.setField p path x = .error (notOneSlot f.width path) := by
  constructor
  · simp only [getField, h.fieldSpan, hslots, if_neg hwidth]
  · intro x
    simp only [setField, writeField, h.fieldSpan, hslots, hwidth, false_and, if_false, madeBy]

/-! ## §2 Records of one number -/

/-- A path to a record goes on inside it. -/
theorem Leads.append (hleads : r.Leads e parts offset f) (hkind : f.kind = .record key)
    (hinner : r.find? key = some inner) (hrest : r.Leads inner rest inside g) :
    r.Leads e (parts ++ rest) (offset + inside) g := by
  induction hleads with
  | here hfield => exact .inside hfield hkind hinner hrest
  | inside hfield hkind' hinner' _ ih =>
    rw [Nat.add_assoc]
    exact .inside hfield hkind' hinner' (ih hkind)

/-- A record of one slot is one number, however many records there are around it. -/
theorem Leads.one_slot (hleads : r.Leads e parts offset f) (h : r.Tiled) (he : e ∈ r.entries)
    (hkind : f.kind = .record key) (hwidth : f.width = 1) :
    ∃ rest g, r.Leads e (parts ++ rest) offset g ∧ g.kind = .number ∧ rest ≠ [] ∧
      ∀ part ∈ rest, '.' ∉ part.toList := by
  have hfounded := hleads.founded h.valid h.layered he
  rw [Field.Founded, hkind] at hfounded
  obtain ⟨inner, hinner, hkey, -, hslots⟩ := hfounded
  obtain ⟨rest, g, hrest, hnumber, hpoint⟩ :=
    exists_leads_number h inner hinner 0 (by omega)
  exact ⟨rest, g, hleads.append hkind (h.valid.find?_iff_mem.mpr ⟨hinner, hkey⟩) hrest, hnumber,
    hrest.ne_nil, hpoint⟩

/-- Two paths to one slot are read alike and written alike. -/
theorem access_congr {path' : String} (h : ∀ i, r.SlotAt p path i ↔ r.SlotAt p path' i) :
    (∀ x, r.getField p path = .ok x ↔ r.getField p path' = .ok x) ∧
      ∀ x p', r.setField p path x = .ok p' ↔ r.setField p path' x = .ok p' := by
  constructor
  · intro x
    simp only [getField_eq_ok_iff, h]
  · intro x p'
    simp only [setField_eq_ok_iff, h]

/-- At a record of one slot, the number inside it is read and written. -/
theorem EndsAt.one_slot (hends : r.EndsAt p.typeKey path offset f) (h : r.Tiled)
    (hkind : f.kind = .record key) (hwidth : f.width = 1) :
    ∃ rest, r.EndsInNumber p.typeKey (path ++ "." ++ rest) ∧
      (∀ x, r.getField p path = .ok x ↔ r.getField p (path ++ "." ++ rest) = .ok x) ∧
      ∀ x p', r.setField p path x = .ok p' ↔ r.setField p (path ++ "." ++ rest) x = .ok p' := by
  obtain ⟨e, hfind, hleads⟩ := hends
  have he := (h.valid.find?_iff_mem.mp hfind).1
  obtain ⟨parts, g, hinside, hnumber, hne, hpoint⟩ := hleads.one_slot h he hkind hwidth
  rw [← pathParts_intercalate hne hpoint, ← pathParts_append] at hinside
  refine ⟨_, ⟨e, offset, g, hfind, hinside, hnumber⟩, access_congr fun i => ?_⟩
  have hspan := EndsAt.fieldSpan ⟨e, hfind, hleads⟩
  have hspan' := EndsAt.fieldSpan ⟨e, hfind, hinside⟩
  rw [SlotAt, SlotAt, hspan, hspan', hwidth, hinside.width_number h he hnumber]

/-! ## §3 Numbers in records -/

/-- What is read and written as a number in a record with these slots. -/
structure Numbers (r : Registry) (p : Payload) (slots : List Float) : Prop where
  /-- A number is read if the path ends at a field of one slot which the record has, -/
  read_iff : ∀ path, (∃ x, r.getField p path = .ok x) ↔
    ∃ offset f, r.EndsAt p.typeKey path offset f ∧ f.width = 1 ∧ offset % 2 ^ 64 < slots.length
  /-- and written if it is read. -/
  written_iff : ∀ path x, (∃ p', r.setField p path x = .ok p') ↔
    ∃ offset f, r.EndsAt p.typeKey path offset f ∧ f.width = 1 ∧ offset % 2 ^ 64 < slots.length
  /-- A field that holds a number has one slot. -/
  number : ∀ path offset f, r.EndsAt p.typeKey path offset f → f.kind = .number → f.width = 1
  /-- One that holds a record is refused if it has several. -/
  refused : ∀ path offset f key, r.EndsAt p.typeKey path offset f → f.kind = .record key →
    f.width ≠ 1 →
      r.getField p path =
        .error (.mismatch "f64" (toString f.width ++ "-slot field `" ++ path ++ "`")) ∧
      ∀ x, r.setField p path x =
        .error (.mismatch "f64" (toString f.width ++ "-slot field `" ++ path ++ "`"))
  /-- If it has one, what is read and written is the number inside the record. -/
  inside : r.Countable → ∀ path offset f key, r.EndsAt p.typeKey path offset f →
    f.kind = .record key → f.width = 1 → ∃ rest, r.EndsInNumber p.typeKey (path ++ "." ++ rest) ∧
      (∀ x, r.getField p path = .ok x ↔ r.getField p (path ++ "." ++ rest) = .ok x) ∧
      ∀ x p', r.setField p path x = .ok p' ↔ r.setField p (path ++ "." ++ rest) x = .ok p'

/-- **Fields of one slot are read and written as numbers**, and no others, in every registry that
knows its types from schemas, in every record and at every path. -/
theorem field_numbers (requests : List Registration) (hdeclared : ∀ q ∈ requests, q.Declared)
    (p : Payload) (slots : List Float) (hslots : p.slots? = some slots) :
    (({} : Registry).performAll requests).Numbers p slots := by
  have hvalid := valid_performAll valid_empty requests
  have hlayered := layered_performAll hdeclared
  generalize ({} : Registry).performAll requests = r at hvalid hlayered
  constructor
  case read_iff => exact fun path => exists_getField_iff.trans (slotAt_iff hslots)
  case written_iff => exact fun path x => exists_setField_iff.trans (slotAt_iff hslots)
  case number =>
    rintro path offset f ⟨e, hfind, hleads⟩ hkind
    have hfounded := hleads.founded hvalid hlayered (hvalid.find?_iff_mem.mp hfind).1
    rwa [Field.Founded, hkind] at hfounded
  case refused => exact fun path offset f key hends _ hwidth => hends.refused hslots hwidth
  case inside =>
    exact fun hcountable path offset f key hends hkind hwidth =>
      hends.one_slot ⟨hvalid, hlayered, hcountable⟩ hkind hwidth

/-- The registry of vectors and rays: a path that ends at the vector in a ray is refused. -/
theorem field_numbers_ray :
    (∀ q ∈ [Registration.record .vec3, .record .ray], q.Declared) ∧
      (Payload.ray {}).slots? = some [0, 0, 0, 0, 0, 0] ∧
      (({} : Registry).performAll [.record .vec3, .record .ray]).Numbers (.ray {})
        [0, 0, 0, 0, 0, 0] :=
  ⟨by decide, rfl, field_numbers _ (by decide) _ _ rfl⟩

/-- Pairs whose first coordinate is a record of one number. -/
def wrapped : Registry := ({} : Registry).performAll
  [.flat "unit = \x7b f64 v; \x7d" (.number 0), .flat "v2d = \x7b unit x; f64 y; \x7d" (.vec2 {})]

/-- The record in such a pair is read and written as a number. -/
theorem nested_number : ¬ wrapped.EndsInNumber (Payload.vec2 {}).typeKey "x" ∧
    (∃ x, wrapped.getField (.vec2 {}) "x" = .ok x) ∧
    ∃ p, wrapped.setField (.vec2 {}) "x" 1 = .ok p := by
  have hpath : pathParts "x" = ["x"] := by decide
  have hfields : (wrapped.find? (Payload.vec2 {}).typeKey).bind (·.layout.field? "x") =
      some ⟨"x", .record (Key.ofName "unit"), 0, 1⟩ := by
    decide
  obtain ⟨e, hfind, hfield⟩ := Option.bind_eq_some_iff.mp hfields
  have hleads : wrapped.Leads e (pathParts "x") 0 ⟨"x", .record (Key.ofName "unit"), 0, 1⟩ := by
    rw [hpath]
    exact .here hfield
  have hslot := (slotAt_iff rfl).mpr ⟨0, _, ⟨e, hfind, hleads⟩, rfl, by decide⟩
  refine ⟨?_, exists_getField_iff.mpr hslot, exists_setField_iff.mpr hslot⟩
  rintro ⟨e', offset, f, hfind', hleads', hnumber⟩
  rw [hfind] at hfind'
  cases hfind'
  obtain ⟨-, rfl⟩ := hleads'.deterministic hleads
  cases hnumber

end Registry

end SceneScript
