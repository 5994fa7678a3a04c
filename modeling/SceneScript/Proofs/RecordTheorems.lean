/-
SceneScript.Proofs.RecordTheorems — flat records and the schemas that describe them.

A flat kind is described four times: by its fields here, by the slots that its records
give, by the slots that they are made of, and by its schema. `records_agree` says that
the four are one description.

The slots are a matter of `FieldTheorems`. For the schema, what a path reads is followed
through the layouts, one part at a time (`Reads`, `reads_cons`), next to what the path
names in the record itself (`Payload.component?`); so there is one short lemma per kind,
and nested kinds use the lemmas of the kinds inside them. The layouts are those that the
standard types get when they are registered by themselves. An engine on which `init1` has
succeeded keeps these types, whatever else has been registered (`keeps_standard`), and a
path in a type that is kept leads where it led (`Keeps.leads_iff`).
-/
import SceneScript.Proofs.FieldTheorems
import SceneScript.Proofs.InstallTheorems
import SceneScript.Proofs.PathTheorems

namespace SceneScript

namespace Registry

variable {r own : Registry} {e e' inner : TypeEntry} {p : Payload} {path part : String}
  {parts rest : List String} {offset i : Nat} {f g : Field} {key : Key} {x : Float}
  {slots : List Float}

/-! ## §1 Types that are kept -/

theorem Includes.keeps (h : r.Includes own) : own.Keeps r :=
  fun key e he => ⟨e.conversion, h key e he⟩

/-- A path in a type that is kept leads to where it led, since the types inside are kept too. -/
theorem Keeps.leads_iff (hkeeps : own.Keeps r) (hvalid : own.Valid) (h : own.Layered)
    (he : e ∈ own.entries) (hlayout : e'.layout = e.layout) :
    r.Leads e' parts offset f ↔ own.Leads e parts offset f := by
  constructor
  · intro hleads
    induction hleads generalizing e with
    | here hfield =>
      rw [hlayout] at hfield
      exact .here hfield
    | inside hfield hkind hinner _ ih =>
      rw [hlayout] at hfield
      have hfounded := (h.sound e he).founded _ (Layout.mem_of_field? hfield)
      rw [Field.Founded, hkind] at hfounded
      obtain ⟨inner, hmem, hkey, -, -⟩ := hfounded
      have hfind := hvalid.find?_iff_mem.mpr ⟨hmem, hkey⟩
      obtain ⟨c, hc⟩ := hkeeps _ _ hfind
      rw [hc] at hinner
      cases hinner
      exact .inside hfield hkind hfind (ih hmem rfl)
  · intro hleads
    induction hleads generalizing e' with
    | here hfield =>
      rw [← hlayout] at hfield
      exact .here hfield
    | inside hfield hkind hinner _ ih =>
      rw [← hlayout] at hfield
      obtain ⟨c, hc⟩ := hkeeps _ _ hinner
      exact .inside hfield hkind hc (ih (hvalid.find?_iff_mem.mp hinner).1 rfl)

section

variable (hkeeps : own.Keeps r) (hvalid : own.Valid) (h : own.Layered)
  (hfind : own.find? key = some e)

include hkeeps hvalid h hfind

/-- A type that is kept has the fields that it had. -/
theorem Keeps.exists_leads_iff {P : Nat → Field → Prop} :
    (∃ e offset f, r.find? key = some e ∧ r.Leads e parts offset f ∧ P offset f) ↔
      ∃ e offset f, own.find? key = some e ∧ own.Leads e parts offset f ∧ P offset f := by
  obtain ⟨c, hc⟩ := hkeeps key e hfind
  have hleads {offset : Nat} {f : Field} :
      r.Leads { e with conversion := c } parts offset f ↔ own.Leads e parts offset f :=
    hkeeps.leads_iff hvalid h (hvalid.find?_iff_mem.mp hfind).1 rfl
  simp only [hc, hfind, Option.some.injEq, exists_and_left, exists_eq_left', hleads]

theorem Keeps.endsInNumber_iff : r.EndsInNumber key path ↔ own.EndsInNumber key path :=
  hkeeps.exists_leads_iff hvalid h hfind

end

/-- What is read from a record whose type is kept is what was read before. -/
theorem Keeps.getField_iff (hkeeps : own.Keeps r) (hvalid : own.Valid) (h : own.Layered)
    (hfind : own.find? p.typeKey = some e) :
    r.getField p path = .ok x ↔ own.getField p path = .ok x := by
  have hspan {o w : Nat} : r.fieldSpan p.typeKey path = .ok (o, w) ↔
      own.fieldSpan p.typeKey path = .ok (o, w) := by
    rw [fieldSpan_eq_ok_iff_leads, fieldSpan_eq_ok_iff_leads]
    exact hkeeps.exists_leads_iff hvalid h hfind
  simp only [getField_eq_ok_iff, SlotAt, hspan]

/-! ## §2 Reading along a path -/

/-- The parts of a path lead from a type to a number, and to that slot in the list. -/
def Reads (r : Registry) (e : TypeEntry) (slots : List Float) (parts : List String) (x : Float) :
    Prop :=
  ∃ offset f, r.Leads e parts offset f ∧ f.kind = .number ∧ slots[offset]? = some x

theorem not_reads_nil : ¬ r.Reads e slots [] x := by
  rintro ⟨offset, f, hleads, -⟩
  exact hleads.ne_nil rfl

/-- What is read at a field: its number if the path ends there, or what the rest of the path reads
in the slots of its record. -/
def ReadsAt (r : Registry) (slots : List Float) (rest : List String) (x : Float) (f : Field) :
    Prop :=
  match f.kind with
  | .number => rest = [] ∧ slots[f.offset]? = some x
  | .record key => ∃ inner, r.find? key = some inner ∧
      r.Reads inner (slots.drop f.offset) rest x

/-- The first part of a path names a field. -/
theorem reads_cons : r.Reads e slots (part :: rest) x ↔
    ∃ f, e.layout.field? part = some f ∧ r.ReadsAt slots rest x f := by
  constructor
  · rintro ⟨offset, g, hleads, hnumber, hx⟩
    obtain ⟨f, hfield⟩ := hleads.exists_field?
    refine ⟨f, hfield, ?_⟩
    unfold ReadsAt
    cases hkind : f.kind with
    | number =>
      obtain rfl := hleads.of_number hfield hkind
      obtain ⟨rfl, -⟩ := hleads.deterministic (.here hfield)
      exact ⟨rfl, hx⟩
    | record key =>
      have hne : rest ≠ [] := by
        rintro rfl
        obtain ⟨-, rfl⟩ := hleads.deterministic (.here hfield)
        rw [hkind] at hnumber
        cases hnumber
      obtain ⟨inner, inside, hinner, rfl, hrest⟩ := hleads.exists_inside hne hfield hkind
      exact ⟨inner, hinner, inside, g, hrest, hnumber, by rwa [List.getElem?_drop]⟩
  · rintro ⟨f, hfield, hrest⟩
    unfold ReadsAt at hrest
    cases hkind : f.kind with
    | number =>
      rw [hkind] at hrest
      obtain ⟨rfl, hx⟩ := hrest
      exact ⟨f.offset, f, .here hfield, hkind, hx⟩
    | record key =>
      rw [hkind] at hrest
      obtain ⟨inner, hinner, inside, g, hleads, hnumber, hx⟩ := hrest
      rw [List.getElem?_drop] at hx
      exact ⟨_, g, .inside hfield hkind hinner hleads, hnumber, hx⟩

theorem readsAt_record {name : String} {offset width : Nat} (hinner : r.find? key = some inner) :
    r.ReadsAt slots rest x ⟨name, .record key, offset, width⟩ ↔
      r.Reads inner (slots.drop offset) rest x := by
  simp [ReadsAt, hinner]

/-- Fields are gone through in their order. -/
theorem exists_field?_cons {P : Field → Prop} {fields : List Field} :
    (∃ g, (Layout.mk (f :: fields)).field? part = some g ∧ P g) ↔
      if part = f.name then P f else ∃ g, (Layout.mk fields).field? part = some g ∧ P g := by
  split
  · next hname => simp [Layout.field?, hname]
  · next hname => simp [Layout.field?, Ne.symm hname]

theorem not_exists_field?_nil {P : Field → Prop} :
    ¬ ∃ g, (Layout.mk []).field? part = some g ∧ P g := by
  simp [Layout.field?]

/-- A number is read where the path leads to one, if no record is of one slot only. -/
theorem getField_eq_ok_iff_reads (h : r.Tiled)
    (hsingle : ∀ e ∈ r.entries, ∀ f ∈ e.layout.fields, f.width = 1 → f.kind = .number)
    (hfind : r.find? p.typeKey = some e) (hslots : p.slots? = some slots) :
    r.getField p path = .ok x ↔ r.Reads e slots (pathParts path) x := by
  obtain ⟨he, hkey⟩ := h.valid.find?_iff_mem.mp hfind
  rw [getField_eq_ok_iff]
  constructor
  · rintro ⟨i, slots', ⟨hspan, -⟩, hslots', hx⟩
    rw [hslots] at hslots'
    cases hslots'
    rw [← hkey] at hspan
    obtain ⟨f, hleads, hwidth⟩ := (fieldSpan_eq_ok_iff h he).mp hspan
    obtain ⟨e', he', hf⟩ := hleads.exists_mem h.valid he
    exact ⟨i, f, hleads, hsingle e' he' f hf hwidth.symm, hx⟩
  · rintro ⟨i, f, hleads, hnumber, hx⟩
    refine ⟨i, slots, ⟨?_, slots, hslots, (List.getElem?_eq_some_iff.mp hx).1⟩, hslots, hx⟩
    rw [← hkey]
    exact (fieldSpan_eq_ok_iff h he).mpr ⟨f, hleads, (hleads.width_number h he hnumber).symm⟩

/-- A record has a number wherever a path leads to one, if it has as many slots as its type. -/
theorem endsInNumber_iff_reads (h : r.Tiled) (hfind : r.find? key = some e)
    (hlength : slots.length = e.layout.slots) :
    r.EndsInNumber key path ↔ ∃ x, r.Reads e slots (pathParts path) x := by
  have he := (h.valid.find?_iff_mem.mp hfind).1
  constructor
  · rintro ⟨e', offset, f, hfind', hleads, hnumber⟩
    rw [hfind] at hfind'
    cases hfind'
    have hwithin := hleads.within h he
    exact ⟨_, offset, f, hleads, hnumber, List.getElem?_eq_getElem (by omega)⟩
  · rintro ⟨x, offset, f, hleads, hnumber, -⟩
    exact ⟨e, offset, f, hfind, hleads, hnumber⟩

end Registry

/-! ## §3 Components -/

/-- The coordinate that a path names. -/
def Vec2.component? (v : Vec2) : List String → Option Float
  | [part] => if part = "x" then some v.x else if part = "y" then some v.y else none
  | _ => none

/-- The coordinate that a path names. -/
def Vec3.component? (v : Vec3) : List String → Option Float
  | [part] =>
    if part = "x" then some v.x else if part = "y" then some v.y
    else if part = "z" then some v.z else none
  | _ => none

/-- The number in a row that a path names. -/
def Mat3.component? (m : Mat3) : List String → Option Float
  | part :: rest =>
    if part = "x" then m.x.component? rest else if part = "y" then m.y.component? rest
    else if part = "z" then m.z.component? rest else none
  | [] => none

/-- The coordinate of the origin or the direction that a path names. -/
def Ray.component? (r : Ray) : List String → Option Float
  | part :: rest =>
    if part = "p" then r.p.component? rest else if part = "d" then r.d.component? rest else none
  | [] => none

/-- The number in the ray that a path names, or the cosine. -/
def RayCone.component? (c : RayCone) : List String → Option Float
  | part :: rest =>
    if part = "ray" then c.ray.component? rest
    else if part = "cos_rs" then if rest = [] then some c.cosRs else none
    else none
  | [] => none

/-- The channel that a path names; the names are those of coordinates. -/
def Color.component? (c : Color) : List String → Option Float
  | [part] =>
    if part = "x" then some c.r else if part = "y" then some c.g
    else if part = "z" then some c.b else none
  | _ => none

/-- The number in a flat record that a path names. -/
def Payload.component? : Payload → List String → Option Float
  | vec2 v => v.component?
  | vec3 v => v.component?
  | mat3 m => m.component?
  | ray r => r.component?
  | rayCone c => c.component?
  | color c => c.component?
  | _ => fun _ => none

example (c : RayCone) : c.component? ["ray", "d", "z"] = some c.ray.d.z := rfl

/-- The flat kinds. -/
def flatKinds : List FlatKind := [.vec2, .vec3, .mat3, .ray, .rayCone, .color]

/-- The fields of the flat kinds. -/
def Kind.layout : Kind → Layout
  | vec2 => ⟨[⟨"x", .number, 0, 1⟩, ⟨"y", .number, 1, 1⟩]⟩
  | vec3 => ⟨[⟨"x", .number, 0, 1⟩, ⟨"y", .number, 1, 1⟩, ⟨"z", .number, 2, 1⟩]⟩
  | mat3 => ⟨[⟨"x", .record vec3.key, 0, 3⟩, ⟨"y", .record vec3.key, 3, 3⟩,
      ⟨"z", .record vec3.key, 6, 3⟩]⟩
  | ray => ⟨[⟨"p", .record vec3.key, 0, 3⟩, ⟨"d", .record vec3.key, 3, 3⟩]⟩
  | rayCone => ⟨[⟨"ray", .record ray.key, 0, 6⟩, ⟨"cos_rs", .number, 6, 1⟩]⟩
  | color => ⟨[⟨"x", .number, 0, 1⟩, ⟨"y", .number, 1, 1⟩, ⟨"z", .number, 2, 1⟩]⟩
  | _ => {}

namespace Registry

variable {r : Registry} {e : TypeEntry} {parts : List String} {x : Float}

theorem reads_vec2 (hlayout : e.layout = Kind.vec2.layout) (v : Vec2) :
    r.Reads e v.slots parts x ↔ v.component? parts = some x := by
  match parts with
  | [] => simp [not_reads_nil, Vec2.component?]
  | [part] =>
    simp only [reads_cons, hlayout, Kind.layout, exists_field?_cons, not_exists_field?_nil,
      Vec2.component?]
    split_ifs <;> simp [ReadsAt, Vec2.slots]
  | part :: next :: rest =>
    simp only [reads_cons, hlayout, Kind.layout, exists_field?_cons, not_exists_field?_nil,
      Vec2.component?]
    split_ifs <;> simp [ReadsAt]

theorem reads_vec3 (hlayout : e.layout = Kind.vec3.layout) (v : Vec3) (more : List Float) :
    r.Reads e (v.slots ++ more) parts x ↔ v.component? parts = some x := by
  match parts with
  | [] => simp [not_reads_nil, Vec3.component?]
  | [part] =>
    simp only [reads_cons, hlayout, Kind.layout, exists_field?_cons, not_exists_field?_nil,
      Vec3.component?]
    split_ifs <;> simp [ReadsAt, Vec3.slots]
  | part :: next :: rest =>
    simp only [reads_cons, hlayout, Kind.layout, exists_field?_cons, not_exists_field?_nil,
      Vec3.component?]
    split_ifs <;> simp [ReadsAt]

variable {inner : TypeEntry}

theorem reads_mat3 (hlayout : e.layout = Kind.mat3.layout)
    (hfind : r.find? Kind.vec3.key = some inner) (hinner : inner.layout = Kind.vec3.layout)
    (m : Mat3) : r.Reads e m.slots parts x ↔ m.component? parts = some x := by
  match parts with
  | [] => simp [not_reads_nil, Mat3.component?]
  | part :: rest =>
    simp only [reads_cons, hlayout, Kind.layout, exists_field?_cons, not_exists_field?_nil,
      Mat3.component?]
    split_ifs
    · exact (readsAt_record hfind).trans (reads_vec3 hinner m.x (m.y.slots ++ m.z.slots))
    · exact (readsAt_record hfind).trans (reads_vec3 hinner m.y m.z.slots)
    · exact (readsAt_record hfind).trans (reads_vec3 hinner m.z [])
    · simp

theorem reads_ray (hlayout : e.layout = Kind.ray.layout)
    (hfind : r.find? Kind.vec3.key = some inner) (hinner : inner.layout = Kind.vec3.layout)
    (ray : Ray) (more : List Float) :
    r.Reads e (ray.slots ++ more) parts x ↔ ray.component? parts = some x := by
  match parts with
  | [] => simp [not_reads_nil, Ray.component?]
  | part :: rest =>
    simp only [reads_cons, hlayout, Kind.layout, exists_field?_cons, not_exists_field?_nil,
      Ray.component?]
    split_ifs
    · exact (readsAt_record hfind).trans (reads_vec3 hinner ray.p (ray.d.slots ++ more))
    · exact (readsAt_record hfind).trans (reads_vec3 hinner ray.d more)
    · simp

theorem reads_rayCone {vec3 : TypeEntry} (hlayout : e.layout = Kind.rayCone.layout)
    (hfind : r.find? Kind.ray.key = some inner) (hinner : inner.layout = Kind.ray.layout)
    (hfind' : r.find? Kind.vec3.key = some vec3) (hvec3 : vec3.layout = Kind.vec3.layout)
    (c : RayCone) : r.Reads e c.slots parts x ↔ c.component? parts = some x := by
  match parts with
  | [] => simp [not_reads_nil, RayCone.component?]
  | part :: rest =>
    simp only [reads_cons, hlayout, Kind.layout, exists_field?_cons, not_exists_field?_nil,
      RayCone.component?]
    split_ifs with _ _ hrest
    · exact (readsAt_record hfind).trans (reads_ray hinner hfind' hvec3 c.ray [c.cosRs])
    · simp [ReadsAt, hrest, RayCone.slots, Ray.slots, Vec3.slots]
    · simp [ReadsAt, hrest]
    · simp

theorem reads_color (hlayout : e.layout = Kind.color.layout) (c : Color) :
    r.Reads e c.slots parts x ↔ c.component? parts = some x := by
  have hsame : c.toVec3.component? parts = c.component? parts := by
    match parts with
    | [] => rfl
    | [part] => rfl
    | part :: next :: rest => rfl
  rw [← hsame]
  exact reads_vec3 hlayout c.toVec3 []

/-- The registry knows the flat kinds by their own fields. -/
def KnowsRecords (r : Registry) : Prop :=
  ∀ flat ∈ flatKinds, ∃ e, r.find? flat.kind.key = some e ∧ e.layout = flat.kind.layout

/-- What is read along a path is the component that the path names. -/
theorem KnowsRecords.reads_iff (h : r.KnowsRecords) {p : Payload} {slots : List Float}
    (hslots : p.slots? = some slots) (hlayout : e.layout = p.kind.layout) :
    r.Reads e slots parts x ↔ p.component? parts = some x := by
  obtain ⟨vec3, hvec3, hvec3Layout⟩ := h .vec3 (by simp [flatKinds])
  obtain ⟨ray, hray, hrayLayout⟩ := h .ray (by simp [flatKinds])
  cases p with
  | vec2 v =>
    cases hslots
    exact reads_vec2 hlayout v
  | vec3 v =>
    cases hslots
    exact reads_vec3 hlayout v []
  | mat3 m =>
    cases hslots
    exact reads_mat3 hlayout hvec3 hvec3Layout m
  | ray ray =>
    cases hslots
    exact reads_ray hlayout hvec3 hvec3Layout ray []
  | rayCone c =>
    cases hslots
    exact reads_rayCone hlayout hray hrayLayout hvec3 hvec3Layout c
  | color c =>
    cases hslots
    exact reads_color hlayout c
  | _ => cases hslots

end Registry

/-! ## §4 The standard types -/

namespace Standard

theorem tiled_types : types.Tiled where
  valid := valid_types
  layered := Registry.layered_performAll (by decide)
  countable := by
    show ∀ e ∈ types.entries, e.layout.total < sizeLimit
    decide +kernel

/-- No standard record has one slot only. -/
theorem number_of_width : ∀ e ∈ types.entries, ∀ f ∈ e.layout.fields,
    f.width = 1 → f.kind = .number := by
  decide +kernel

theorem knowsRecords_types : types.KnowsRecords := by
  have hlayouts : ∀ flat ∈ flatKinds,
      types.layoutOf? flat.kind.key = some flat.kind.layout := by
    decide +kernel
  intro flat hflat
  obtain ⟨e, he, hlayout⟩ := Option.map_eq_some_iff.mp (hlayouts flat hflat)
  exact ⟨e, he, hlayout⟩

end Standard

namespace Engine

variable {engine : Engine} {config : Config} {events : List Event}

/-- What is standard is kept by an event, and comes with an `init1` that succeeds. -/
theorem keeps_standard_after (h : engine.Valid)
    (hkeeps : engine.initialized = true → Standard.types.Keeps engine.types) (event : Event)
    (hinit : (engine.after event).initialized = true) :
    Standard.types.Keeps (engine.after event).types := by
  by_cases hbefore : engine.initialized = true
  · obtain ⟨new, hext, -⟩ := extends_after h event
    exact (hkeeps hbefore).trans hext.types
  · obtain ⟨rfl, hok⟩ := ((initialized_after h event).mp hinit).resolve_left hbefore
    rw [Bool.not_eq_true] at hbefore
    rw [signal_init1 hbefore] at hok
    have hready := ready_of_install hok h
    have hover := (Registry.grants_standard h.types (hready.free h)).2
    rw [after, signal_init1 hbefore, install_of_ready hready h, equipped, types_grown]
    exact hover.includes.keeps

theorem keeps_standard (hinit : (run { config := config } events).initialized = true) :
    Standard.types.Keeps (run { config := config } events).types := by
  have hrun : ∀ (events : List Event) (engine : Engine), engine.Valid →
      (engine.initialized = true → Standard.types.Keeps engine.types) →
      (engine.run events).initialized = true → Standard.types.Keeps (engine.run events).types := by
    intro events
    induction events with
    | nil => exact fun engine _ hkeeps => hkeeps
    | cons event rest ih =>
      exact fun engine h hkeeps => ih (engine.after event) (h.after event)
        (keeps_standard_after h hkeeps event)
  exact hrun events _ (sound_new config).valid (fun h => nomatch h) hinit

end Engine

/-! ## §5 Records and schemas -/

/-- A record is written by its slots, of which there are so many. -/
structure Payload.WrittenBy (p : Payload) (count : Nat) : Prop where
  succeeds_iff : ∀ l, (∃ p', p.setSlots? l = some p') ↔ l.length = count
  /-- What is written is read again. -/
  written : ∀ l p', p.setSlots? l = some p' → p'.kind = p.kind ∧ p'.slots? = some l
  /-- The slots that are there can be written, and then nothing changes. -/
  unchanged : ∃ l, p.slots? = some l ∧ p.setSlots? l = some p
  /-- It is in place that slots are written, -/
  written_iff : ∀ l p', p.setSlots? l = some p' ↔ p.setSlots l = (true, p')
  /-- and slots that are refused leave the record as it was. -/
  left : ∀ l, l.length ≠ count → p.setSlots l = (false, p)
  /-- In a session, slots that are refused change nothing at all. -/
  refused : ∀ (s : Session) (var : String) (v : Value) (l : List Float), s.valueOf? var = some v →
    v.ownership = .owned → v.payload = p → l.length ≠ count →
    s.step (.setSlots var l) = (.flag false, s)

/-- What is read in a record of a type that a registry knows. -/
structure Registry.ReadsComponents (r : Registry) (p : Payload) : Prop where
  /-- A path reads the component that it names, -/
  read_iff : ∀ path x, r.getField p path = .ok x ↔ p.component? (Registry.pathParts path) = some x
  /-- and names one if it ends in a number by the fields of the type. -/
  named_iff : ∀ path, r.EndsInNumber p.typeKey path ↔
    ∃ x, p.component? (Registry.pathParts path) = some x
  refused : ∀ path, p.component? (Registry.pathParts path) = none →
    ∃ e, r.getField p path = .error e

theorem FlatKind.slotCount?_eq : ∀ flat ∈ flatKinds,
    flat.kind.slotCount? = some flat.provided := by
  decide

theorem FlatKind.name?_eq : ∀ flat ∈ flatKinds,
    (Registration.record flat).name? = some flat.kind.typeName := by
  decide

theorem FlatKind.slots_layout : ∀ flat ∈ flatKinds, flat.kind.layout.slots = flat.provided := by
  decide

theorem Payload.exists_slots {p : Payload} {count : Nat} (hcount : p.kind.slotCount? = some count) :
    ∃ l, p.slots? = some l := by
  cases p with
  | vec2 | vec3 | mat3 | ray | rayCone | color => exact ⟨_, rfl⟩
  | _ => cases hcount

/-- Lists of the right length, and no others, are the slots of a record. -/
theorem Payload.writtenBy {p : Payload} {count : Nat} (hcount : p.kind.slotCount? = some count) :
    p.WrittenBy count := by
  obtain ⟨l, hl⟩ := Payload.exists_slots hcount
  have hlength {l' : List Float} : (∃ p', p.setSlots? l' = some p') ↔ l'.length = count := by
    constructor
    · rintro ⟨p', hp'⟩
      obtain ⟨hkind, hslots⟩ := setSlots?_eq_some_iff.mp hp'
      have h := length_slots? hslots
      rw [hkind, hcount] at h
      exact (Option.some.inj h).symm
    · intro h
      have hown := length_slots? hl
      rw [hcount, Option.some.injEq] at hown
      exact exists_setSlots? hl (h.trans hown)
  have hleft {l' : List Float} (hne : l'.length ≠ count) : p.setSlots l' = (false, p) := by
    obtain ⟨p', hp', -⟩ | hset := p.setSlots_cases l'
    · exact absurd (hlength.mp ⟨p', hp'⟩) hne
    · exact hset
  constructor
  case succeeds_iff => exact fun l' => hlength
  case written => exact fun l' p' => setSlots?_eq_some_iff.mp
  case unchanged => exact ⟨l, hl, setSlots?_slots hl⟩
  case written_iff => exact fun l' p' => madeBy?_eq_some_iff
  case left => exact fun l' => hleft
  case refused =>
    intro s var v l' hv howned hp hne
    subst hp
    simp only [Session.step, Session.mutate, hv, howned, if_true, hleft hne]
    exact congrArg (Prod.mk _) (Session.setVariable_of_left hv rfl)

/-- A flat kind, a record of it, and the types of an engine on which it is standard. -/
structure FlatKind.Agrees (flat : FlatKind) (p : Payload) (types : Registry) : Prop where
  /-- Wherever the kind is registered, a record is written by as many slots as the layout has that
  it got there. -/
  registered : ∀ (requests later : List Registration) (key : Key),
    ((({} : Registry).performAll requests).registerRecord flat).1 = .ok key →
      key = p.typeKey ∧ ∃ layout : Layout,
        (((({} : Registry).performAll requests).registerRecord flat).2.performAll later).layoutOf?
          key = some layout ∧ p.WrittenBy layout.slots
  standard : ∃ layout : Layout, types.layoutOf? p.typeKey = some layout ∧ p.WrittenBy layout.slots
  components : types.ReadsComponents p

namespace Registry

variable {r : Registry} {flat : FlatKind} {p : Payload}

/-- A flat kind that is registered has a layout with the slots that its records provide, and keeps
it. -/
theorem layoutOf?_of_registerRecord (h : r.Valid) {key : Key}
    (hok : (r.registerRecord flat).1 = .ok key) (later : List Registration) :
    (Registration.record flat).name?.map Key.ofName = some key ∧ ∃ layout : Layout,
      ((r.registerRecord flat).2.performAll later).layoutOf? key = some layout ∧
        flat.provided = layout.slots := by
  have hperform : (r.perform (.record flat)).1 = .ok key := hok
  have hvalid : (r.registerRecord flat).2.Valid := valid_perform h (.record flat)
  obtain ⟨name, fresh, layout, hdesc, hfits, -, rfl, hq⟩ | ⟨conversion, e, hconversion, -⟩ :=
    perform_ok_cases h hperform
  · refine ⟨by rw [hdesc.name?]; rfl, layout, ?_, hfits⟩
    have hfind : (r.registerRecord flat).2.find? (Key.ofName name) =
        some (.new name fresh layout) := by
      show (r.perform (.record flat)).2.find? _ = _
      rw [hq, find?_added, if_pos rfl]
    obtain ⟨c, hc⟩ := keeps_performAll hvalid later _ _ hfind
    rw [layoutOf?, hc]
    rfl
  · cases hconversion

/-- A record of a standard type is read by the names of its components. -/
theorem readsComponents (hkeeps : Standard.types.Keeps r) (hflat : flat ∈ flatKinds)
    (hkind : p.kind = flat.kind) : r.ReadsComponents p := by
  obtain ⟨e, hfind, hlayout⟩ := Standard.knowsRecords_types flat hflat
  have hslotted := FlatKind.slotCount?_eq flat hflat
  rw [← hkind] at hfind hlayout hslotted
  obtain ⟨l, hl⟩ := Payload.exists_slots hslotted
  have hlength : l.length = e.layout.slots := by
    rw [Payload.length_slots? hl, Option.some.injEq] at hslotted
    rw [hslotted, hlayout, hkind, FlatKind.slots_layout flat hflat]
  have htiled := Standard.tiled_types
  have hreads {path : String} {x : Float} :
      Standard.types.Reads e l (pathParts path) x ↔ p.component? (pathParts path) = some x :=
    Standard.knowsRecords_types.reads_iff hl hlayout
  have hread (path : String) (x : Float) :
      r.getField p path = .ok x ↔ p.component? (pathParts path) = some x :=
    (hkeeps.getField_iff htiled.valid htiled.layered hfind).trans
      ((getField_eq_ok_iff_reads htiled Standard.number_of_width hfind hl).trans hreads)
  constructor
  case read_iff => exact hread
  case named_iff =>
    exact fun path => (hkeeps.endsInNumber_iff htiled.valid htiled.layered hfind).trans
      ((endsInNumber_iff_reads htiled hfind hlength).trans (exists_congr fun x => hreads))
  case refused =>
    intro path hnone
    cases hget : r.getField p path with
    | error e => exact ⟨e, rfl⟩
    | ok x =>
      rw [(hread path x).mp hget] at hnone
      cases hnone

end Registry

namespace Engine

/-- **Records agree with their schemas.** For each flat kind and every record of it: wherever the
kind is registered, and on every engine on which `init1` has succeeded, the record is written by
lists of as many slots as its layout has; and on such an engine a path reads the component that it
names, and nothing else can be read. -/
theorem records_agree (config : Config) (events : List Event)
    (hinit : (run { config := config } events).initialized = true) (flat : FlatKind)
    (hflat : flat ∈ flatKinds) (p : Payload) (hkind : p.kind = flat.kind) :
    flat.Agrees p (run { config := config } events).types := by
  have hkeeps := keeps_standard hinit
  have hwritten : p.WrittenBy flat.provided :=
    Payload.writtenBy (hkind ▸ FlatKind.slotCount?_eq flat hflat)
  constructor
  case registered =>
    intro requests later key hok
    have hvalid := Registry.valid_performAll Registry.valid_empty requests
    obtain ⟨hname, layout, hlayout, hfits⟩ :=
      Registry.layoutOf?_of_registerRecord hvalid hok later
    rw [FlatKind.name?_eq flat hflat, ← hkind] at hname
    exact ⟨(Option.some.inj hname).symm, layout, hlayout, hfits ▸ hwritten⟩
  case standard =>
    obtain ⟨e, hfind, hlayout⟩ := Standard.knowsRecords_types flat hflat
    obtain ⟨c, hc⟩ := hkeeps _ _ hfind
    rw [← hkind] at hc
    refine ⟨e.layout, congrArg (Option.map TypeEntry.layout) hc, ?_⟩
    rw [hlayout, FlatKind.slots_layout flat hflat]
    exact hwritten
  case components => exact Registry.readsComponents hkeeps hflat hkind

/-- The cone around a ray from the origin. -/
theorem records_agree_rayCone :
    (run {} [.signal .init1]).initialized = true ∧ FlatKind.rayCone ∈ flatKinds ∧
      (Payload.rayCone { ray := { d := { z := 1 } }, cosRs := 1 }).kind = FlatKind.rayCone.kind ∧
      FlatKind.rayCone.Agrees (.rayCone { ray := { d := { z := 1 } }, cosRs := 1 })
        (run {} [.signal .init1]).types := by
  have hmem : FlatKind.rayCone ∈ flatKinds := by
    simp [flatKinds]
  exact ⟨initialized_run_init1, hmem, rfl,
    records_agree {} [.signal .init1] initialized_run_init1 .rayCone hmem _ rfl⟩

end Engine

end SceneScript
