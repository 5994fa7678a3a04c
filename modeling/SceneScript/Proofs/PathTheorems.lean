/-
SceneScript.Proofs.PathTheorems — where the paths in a flat record lead.

`Leads` says what a path comes to without counting in 64 bits: a field of a type,
or a field further inside a field that holds a record. Following a path is exactly
that, up to counting in 64 bits (`follow_eq_ok_iff`); and in a registry that knows
its types from schemas no offset can be too large (`fieldSpan_eq_ok_iff`). From the
tiling of each layout it follows that a path leads to slots of the type it starts
from (`Leads.within`), that paths which part lead to slots apart (`Leads.disjoint`),
and that every slot has a path to it that ends in a number (`exists_leads_number`).

`spans_of_schemas` puts this together with the layouts themselves.
-/
import SceneScript.Proofs.LayoutTheorems
import SceneScript.Proofs.TextTheorems
import SceneScript.Access

namespace SceneScript

/-! ## §1 Parts of a path -/

namespace Registry

theorem pathParts_eq (path : String) :
    pathParts path = (path.toList.splitOn '.').map String.ofList := by
  rw [pathParts, Text.split_eq_splitOnP, List.splitOn_eq_splitOnP]

theorem pathParts_ne_nil (path : String) : pathParts path ≠ [] := by
  simp [pathParts_eq]

/-- A path is its parts with points between them. -/
theorem intercalate_pathParts (path : String) : ".".intercalate (pathParts path) = path := by
  have hback : String.toList ∘ String.ofList = id := funext fun _ => String.toList_ofList
  apply String.toList_injective
  rw [String.toList_intercalate, pathParts_eq, List.map_map, hback, List.map_id]
  exact List.intercalate_splitOn '.'

theorem pathParts_injective {p q : String} (h : pathParts p = pathParts q) : p = q := by
  rw [← intercalate_pathParts p, h, intercalate_pathParts]

/-- Parts without points in them are the parts of a path. -/
theorem pathParts_intercalate {parts : List String} (hne : parts ≠ [])
    (hpoint : ∀ part ∈ parts, '.' ∉ part.toList) : pathParts (".".intercalate parts) = parts := by
  have hsplit : (['.'].intercalate (parts.map String.toList)).splitOn '.' =
      parts.map String.toList := by
    refine List.splitOn_intercalate '.' (fun cs hcs => ?_) (by simpa using hne)
    obtain ⟨part, hpart, rfl⟩ := List.mem_map.mp hcs
    exact hpoint part hpart
  have hback : String.ofList ∘ String.toList = id := funext fun _ => String.ofList_toList
  rw [pathParts_eq, String.toList_intercalate]
  refine (congrArg (List.map String.ofList) hsplit).trans ?_
  rw [List.map_map, hback, List.map_id]

/-- The parts of a path that goes on after a point. -/
theorem pathParts_append (p q : String) :
    pathParts (p ++ "." ++ q) = pathParts p ++ pathParts q := by
  have hlist : (p ++ "." ++ q).toList = p.toList ++ '.' :: q.toList := by
    rw [String.toList_append, String.toList_append, List.append_assoc]
    rfl
  rw [pathParts_eq, hlist, List.splitOn_append_cons_self, List.map_append, pathParts_eq,
    pathParts_eq]

/-- Whether a path is another one, or is followed by a point and more in it. -/
def DottedPrefix (p q : String) : Prop := p = q ∨ ∃ rest, q = p ++ "." ++ rest

theorem dottedPrefix_of_parts {p q : String} (h : pathParts p <+: pathParts q) :
    DottedPrefix p q := by
  obtain ⟨rest, hrest⟩ := h
  cases rest with
  | nil =>
    rw [List.append_nil] at hrest
    exact .inl (pathParts_injective hrest)
  | cons part rest =>
    refine .inr ⟨".".intercalate (part :: rest), ?_⟩
    rw [← intercalate_pathParts q, ← hrest,
      String.intercalate_append_of_ne_nil (pathParts_ne_nil p) (List.cons_ne_nil _ _),
      intercalate_pathParts]

/-! ## §2 Layouts that paths lead through -/

/-- The registry is in order, and its types are known from schemas and have slots that can be
counted. -/
structure Tiled (r : Registry) : Prop where
  valid : r.Valid
  layered : r.Layered
  countable : r.Countable

section

variable {r : Registry} {e : TypeEntry} {f : Field} (h : r.Tiled) (he : e ∈ r.entries)

include h he

theorem Tiled.tiles : Tiles 0 e.layout.fields e.layout.slots :=
  h.layered.tiles h.countable he

theorem Tiled.slots_lt : e.layout.slots < sizeLimit := by
  rw [Layout.slots_of_lt (h.countable e he)]
  exact h.countable e he

theorem Tiled.within (hf : f ∈ e.layout.fields) : f.offset + f.width ≤ e.layout.slots :=
  ((h.tiles he).within f hf).2

theorem Tiled.width_pos (hf : f ∈ e.layout.fields) : 1 ≤ f.width :=
  h.layered.width_pos h.countable e he f hf

theorem Tiled.width_number (hf : f ∈ e.layout.fields) (hkind : f.kind = .number) :
    f.width = 1 := by
  have hfounded := (h.layered.sound e he).founded f hf
  rwa [Field.Founded, hkind] at hfounded

/-- A field with a record has a registered type inside it that fills it. -/
theorem Tiled.find?_inner {key : Key} (hf : f ∈ e.layout.fields) (hkind : f.kind = .record key) :
    ∃ inner ∈ r.entries, r.find? key = some inner ∧ inner.layout.slots = f.width := by
  have hfounded := (h.layered.sound e he).founded f hf
  rw [Field.Founded, hkind] at hfounded
  obtain ⟨inner, hinner, hkey, -, hwidth⟩ := hfounded
  exact ⟨inner, hinner, h.valid.find?_iff_mem.mpr ⟨hinner, hkey⟩, hwidth⟩

/-- What is found for the record in a field is a registered type that fills the field. -/
theorem Tiled.inner_spec {key : Key} {inner : TypeEntry} (hf : f ∈ e.layout.fields)
    (hkind : f.kind = .record key) (hinner : r.find? key = some inner) :
    inner ∈ r.entries ∧ inner.layout.slots = f.width := by
  obtain ⟨inner', hmem, hfind, hwidth⟩ := h.find?_inner he hf hkind
  rw [hfind] at hinner
  cases hinner
  exact ⟨hmem, hwidth⟩

/-- A field is found by its name. -/
theorem Tiled.field?_iff {name : String} :
    e.layout.field? name = some f ↔ f ∈ e.layout.fields ∧ f.name = name := by
  constructor
  · intro hfind
    exact ⟨List.mem_of_find?_eq_some hfind, by simpa using List.find?_some hfind⟩
  · rintro ⟨hf, rfl⟩
    have hnodup := (h.layered.sound e he).nodup
    rw [Layout.field?]
    cases hfind : e.layout.fields.find? (fun g => g.name == f.name) with
    | none => exact absurd (List.find?_eq_none.mp hfind f hf) (by simp)
    | some g =>
      have hname : g.name = f.name := by simpa using List.find?_some hfind
      rw [List.inj_on_of_nodup_map hnodup (List.mem_of_find?_eq_some hfind) hf hname]

end

/-! ## §3 Following a path -/

/-- The parts of a path lead from a type to a field, which starts at a slot of the type: a field
of the type itself, or one inside the record that a field holds. -/
inductive Leads (r : Registry) : TypeEntry → List String → Nat → Field → Prop
  | here {e : TypeEntry} {part : String} {f : Field} (hfield : e.layout.field? part = some f) :
      Leads r e [part] f.offset f
  | inside {e inner : TypeEntry} {part : String} {rest : List String} {f g : Field} {key : Key}
      {offset : Nat} (hfield : e.layout.field? part = some f) (hkind : f.kind = .record key)
      (hinner : r.find? key = some inner) (hrest : Leads r inner rest offset g) :
      Leads r e (part :: rest) (f.offset + offset) g

variable {r : Registry} {e : TypeEntry} {part : String} {parts rest : List String} {offset : Nat}
  {f g : Field}

theorem Leads.ne_nil (hleads : r.Leads e parts offset f) : parts ≠ [] := by
  cases hleads <;> exact List.cons_ne_nil _ _

theorem Leads.exists_field? (hleads : r.Leads e (part :: rest) offset g) :
    ∃ f, e.layout.field? part = some f := by
  cases hleads with
  | here hfield => exact ⟨_, hfield⟩
  | inside hfield _ _ _ => exact ⟨_, hfield⟩

/-- A path ends with a part that names a number. -/
theorem Leads.of_number (hleads : r.Leads e (part :: rest) offset g)
    (hfield : e.layout.field? part = some f) (hkind : f.kind = .number) : rest = [] := by
  cases hleads with
  | here _ => rfl
  | inside hfield' hkind' _ _ =>
    rw [hfield] at hfield'
    cases hfield'
    rw [hkind] at hkind'
    cases hkind'

/-- A path that goes on after a part that names a record goes on inside a registered type. -/
theorem Leads.exists_inside {key : Key} (hleads : r.Leads e (part :: rest) offset g)
    (hne : rest ≠ []) (hfield : e.layout.field? part = some f) (hkind : f.kind = .record key) :
    ∃ inner offset', r.find? key = some inner ∧ offset = f.offset + offset' ∧
      r.Leads inner rest offset' g := by
  cases hleads with
  | here _ => exact absurd rfl hne
  | inside hfield' hkind' hinner hrest =>
    rw [hfield] at hfield'
    cases hfield'
    rw [hkind] at hkind'
    cases hkind'
    exact ⟨_, _, hinner, rfl, hrest⟩

theorem Leads.of_record {key : Key} {inner : TypeEntry}
    (hleads : r.Leads e (part :: rest) offset g) (hne : rest ≠ [])
    (hfield : e.layout.field? part = some f) (hkind : f.kind = .record key)
    (hinner : r.find? key = some inner) :
    ∃ offset', offset = f.offset + offset' ∧ r.Leads inner rest offset' g := by
  obtain ⟨inner', offset', hinner', hoffset, hrest⟩ := hleads.exists_inside hne hfield hkind
  rw [hinner] at hinner'
  cases hinner'
  exact ⟨offset', hoffset, hrest⟩

theorem Leads.deterministic (hleads : r.Leads e parts offset f) {offset' : Nat} {f' : Field}
    (hleads' : r.Leads e parts offset' f') : offset = offset' ∧ f = f' := by
  induction hleads generalizing offset' with
  | here hfield =>
    cases hleads' with
    | here hfield' =>
      rw [hfield] at hfield'
      cases hfield'
      exact ⟨rfl, rfl⟩
    | inside _ _ _ hrest => cases hrest
  | inside hfield hkind hinner hrest ih =>
    obtain ⟨_, rfl, hrest'⟩ := hleads'.of_record hrest.ne_nil hfield hkind hinner
    obtain ⟨rfl, rfl⟩ := ih hrest'
    exact ⟨rfl, rfl⟩

/-- A path leads to slots of the type that it starts from. -/
theorem Leads.within (hleads : r.Leads e parts offset f) (h : r.Tiled) (he : e ∈ r.entries) :
    1 ≤ f.width ∧ offset + f.width ≤ e.layout.slots := by
  induction hleads with
  | here hfield =>
    have hf := Layout.mem_of_field? hfield
    exact ⟨h.width_pos he hf, h.within he hf⟩
  | inside hfield hkind hinner hrest ih =>
    have hf := Layout.mem_of_field? hfield
    obtain ⟨hmem, hwidth⟩ := h.inner_spec he hf hkind hinner
    obtain ⟨hpos, hin⟩ := ih hmem
    have hout := h.within he hf
    exact ⟨hpos, by omega⟩

/-- Following a path from the slot `base` on is what `Leads` says, up to counting in 64 bits. -/
theorem follow_eq_ok_iff {path : String} {base o w : Nat} :
    r.follow path e base parts = .ok (o, w) ↔
      ∃ offset f, r.Leads e parts offset f ∧ o = (base + offset) % sizeLimit ∧ w = f.width := by
  induction parts generalizing e base with
  | nil =>
    refine ⟨fun hok => (nomatch hok), ?_⟩
    rintro ⟨offset, f, hleads, -⟩
    cases hleads
  | cons part rest ih =>
    cases hfield : e.layout.field? part with
    | none =>
      constructor
      · intro hok
        simp only [follow, hfield] at hok
        cases hok
      · rintro ⟨offset, f, hleads, -⟩
        obtain ⟨g, hg⟩ := hleads.exists_field?
        rw [hfield] at hg
        cases hg
    | some f =>
      cases rest with
      | nil =>
        simp only [follow, hfield]
        constructor
        · intro hok
          cases hok
          exact ⟨f.offset, f, .here hfield, rfl, rfl⟩
        · rintro ⟨offset, g, hleads, rfl, rfl⟩
          obtain ⟨rfl, rfl⟩ := hleads.deterministic (.here hfield)
          rfl
      | cons next rest =>
        cases hkind : f.kind with
        | number =>
          simp only [follow, hfield, hkind]
          refine ⟨fun hok => (nomatch hok), ?_⟩
          rintro ⟨offset, g, hleads, -⟩
          cases hleads.of_number hfield hkind
        | record key =>
          cases hfind : r.find? key with
          | none =>
            simp only [follow, hfield, hkind, hfind]
            refine ⟨fun hok => (nomatch hok), ?_⟩
            rintro ⟨offset, g, hleads, -⟩
            obtain ⟨inner, -, hinner, -⟩ :=
              hleads.exists_inside (List.cons_ne_nil _ _) hfield hkind
            rw [hfind] at hinner
            cases hinner
          | some inner =>
            have hstep : r.follow path e base (part :: next :: rest) =
                r.follow path inner (addSizes base f.offset) (next :: rest) := by
              rw [follow]
              simp only [hfield, hkind, hfind]
            have hsum (offset : Nat) : (addSizes base f.offset + offset) % sizeLimit =
                (base + (f.offset + offset)) % sizeLimit := by
              rw [addSizes, Nat.mod_add_mod, Nat.add_assoc]
            rw [hstep, ih]
            constructor
            · rintro ⟨offset, g, hleads, rfl, rfl⟩
              exact ⟨f.offset + offset, g, .inside hfield hkind hfind hleads, hsum offset, rfl⟩
            · rintro ⟨_, g, hleads, rfl, rfl⟩
              obtain ⟨offset, rfl, hrest⟩ :=
                hleads.of_record (List.cons_ne_nil _ _) hfield hkind hfind
              exact ⟨offset, g, hrest, (hsum offset).symm, rfl⟩

/-- The slots that a path leads to, from a type that is registered. -/
theorem fieldSpan_eq_ok_iff_leads {key : Key} {path : String} {o w : Nat} :
    r.fieldSpan key path = .ok (o, w) ↔ ∃ e offset f, r.find? key = some e ∧
      r.Leads e (pathParts path) offset f ∧ o = offset % sizeLimit ∧ w = f.width := by
  unfold fieldSpan
  cases hfind : r.find? key with
  | none => simp
  | some e =>
    simp only [follow_eq_ok_iff, Nat.zero_add, Option.some.injEq]
    exact ⟨fun ⟨offset, f, h⟩ => ⟨e, offset, f, rfl, h⟩,
      fun ⟨_, offset, f, rfl, h⟩ => ⟨offset, f, h⟩⟩

/-- No sum of offsets wraps around in a registry that knows its types from schemas. -/
theorem fieldSpan_eq_ok_iff (h : r.Tiled) (he : e ∈ r.entries) {path : String} {o w : Nat} :
    r.fieldSpan e.key path = .ok (o, w) ↔
      ∃ f, r.Leads e (pathParts path) o f ∧ w = f.width := by
  have hfind := h.valid.find?_key he
  have hmod {offset : Nat} {f : Field} (hleads : r.Leads e (pathParts path) offset f) :
      offset % sizeLimit = offset := by
    have hwithin := hleads.within h he
    have hslots := h.slots_lt he
    exact Nat.mod_eq_of_lt (by omega)
  rw [fieldSpan_eq_ok_iff_leads]
  constructor
  · rintro ⟨e', offset, f, hfind', hleads, rfl, rfl⟩
    rw [hfind] at hfind'
    cases hfind'
    exact ⟨f, by rwa [hmod hleads], rfl⟩
  · rintro ⟨f, hleads, rfl⟩
    exact ⟨e, o, f, hfind, hleads, (hmod hleads).symm, rfl⟩

/-! ## §4 Paths that part -/

/-- A path stays within the field that its first part names. -/
theorem Leads.within_head (hleads : r.Leads e parts offset f) (h : r.Tiled) (he : e ∈ r.entries) :
    ∃ part rest g, parts = part :: rest ∧ e.layout.field? part = some g ∧
      g.offset ≤ offset ∧ offset + f.width ≤ g.offset + g.width := by
  cases hleads with
  | here hfield => exact ⟨_, _, _, rfl, hfield, Nat.le_refl _, Nat.le_refl _⟩
  | inside hfield hkind hinner hrest =>
    obtain ⟨hmem, hwidth⟩ := h.inner_spec he (Layout.mem_of_field? hfield) hkind hinner
    have hin := (hrest.within h hmem).2
    exact ⟨_, _, _, rfl, hfield, by omega, by omega⟩

theorem Tiled.disjoint (h : r.Tiled) (he : e ∈ r.entries) {name name' : String} {f f' : Field}
    (hfield : e.layout.field? name = some f) (hfield' : e.layout.field? name' = some f')
    (hne : name ≠ name') :
    f.offset + f.width ≤ f'.offset ∨ f'.offset + f'.width ≤ f.offset := by
  obtain ⟨hf, rfl⟩ := (h.field?_iff he).mp hfield
  obtain ⟨hf', rfl⟩ := (h.field?_iff he).mp hfield'
  exact (h.tiles he).disjoint hf hf' fun hsame => hne (congrArg Field.name hsame)

/-- Paths neither of which begins with the other lead to slots apart. -/
theorem Leads.disjoint (hleads : r.Leads e parts offset f) (h : r.Tiled) (he : e ∈ r.entries)
    {parts' : List String} {offset' : Nat} {f' : Field} (hleads' : r.Leads e parts' offset' f')
    (hpart : ¬ parts <+: parts') (hpart' : ¬ parts' <+: parts) :
    offset + f.width ≤ offset' ∨ offset' + f'.width ≤ offset := by
  induction hleads generalizing parts' offset' with
  | @here e part f hfield =>
    obtain ⟨part', rest', g, rfl, hfield', hlo, hhi⟩ := hleads'.within_head h he
    have hne : part ≠ part' := by
      rintro rfl
      exact hpart (by simp)
    rcases h.disjoint he hfield hfield' hne with hbefore | hafter
    · exact .inl (by omega)
    · exact .inr (by omega)
  | @inside e inner part rest f g key offset hfield hkind hinner hrest ih =>
    obtain ⟨hmem, hwidth⟩ := h.inner_spec he (Layout.mem_of_field? hfield) hkind hinner
    obtain ⟨part', rest', f', rfl, hfield', hlo, hhi⟩ := hleads'.within_head h he
    by_cases hne : part = part'
    · subst hne
      by_cases hnil : rest' = []
      · subst hnil
        exact absurd (by simp) hpart'
      · obtain ⟨offset', rfl, hrest'⟩ := hleads'.of_record hnil hfield hkind hinner
        rw [List.cons_prefix_cons, not_and] at hpart hpart'
        rcases ih hmem hrest' (hpart rfl) (hpart' rfl) with hbefore | hafter
        · exact .inl (by omega)
        · exact .inr (by omega)
    · have hin := (hrest.within h hmem).2
      rcases h.disjoint he hfield hfield' hne with hbefore | hafter
      · exact .inl (by omega)
      · exact .inr (by omega)

/-! ## §5 Paths to numbers -/

/-- A path in a type that ends in a number. -/
def EndsInNumber (r : Registry) (type : Key) (path : String) : Prop :=
  ∃ e offset f, r.find? type = some e ∧ r.Leads e (pathParts path) offset f ∧ f.kind = .number

/-- Wherever a path leads, the field there is one of a registered type. -/
theorem Leads.exists_mem (hleads : r.Leads e parts offset f) (hvalid : r.Valid)
    (he : e ∈ r.entries) : ∃ e' ∈ r.entries, f ∈ e'.layout.fields := by
  induction hleads with
  | here hfield => exact ⟨_, he, Layout.mem_of_field? hfield⟩
  | inside hfield hkind hinner hrest ih => exact ih (hvalid.find?_iff_mem.mp hinner).1

theorem Leads.founded (hleads : r.Leads e parts offset f) (hvalid : r.Valid) (h : r.Layered)
    (he : e ∈ r.entries) : f.Founded r.entries := by
  obtain ⟨e', he', hf⟩ := hleads.exists_mem hvalid he
  exact (h.sound e' he').founded f hf

theorem Leads.width_number (hleads : r.Leads e parts offset f) (h : r.Tiled)
    (he : e ∈ r.entries) (hkind : f.kind = .number) : f.width = 1 := by
  have hfounded := hleads.founded h.valid h.layered he
  rwa [Field.Founded, hkind] at hfounded

/-- A path that ends in a number goes no further. -/
theorem Leads.eq_of_prefix (hleads : r.Leads e parts offset f) (hkind : f.kind = .number)
    {parts' : List String} {offset' : Nat} {f' : Field} (hleads' : r.Leads e parts' offset' f')
    (hbegins : parts <+: parts') : parts = parts' := by
  induction hleads generalizing parts' offset' with
  | @here e part f hfield =>
    obtain ⟨more, rfl⟩ := hbegins
    exact congrArg (part :: ·) (hleads'.of_number hfield hkind).symm
  | @inside e inner part rest f g key offset hfield hkind' hinner hrest ih =>
    obtain ⟨more, rfl⟩ := hbegins
    obtain ⟨offset', rfl, hrest'⟩ := hleads'.of_record
      (List.append_ne_nil_of_left_ne_nil hrest.ne_nil more) hfield hkind' hinner
    exact congrArg (part :: ·) (ih hkind hrest' (List.prefix_append rest more))

/-- Paths that end in one number are one path. -/
theorem Leads.unique (hleads : r.Leads e parts offset f) (h : r.Tiled) (he : e ∈ r.entries)
    (hkind : f.kind = .number) {parts' : List String} {f' : Field}
    (hleads' : r.Leads e parts' offset f') (hkind' : f'.kind = .number) : parts = parts' := by
  by_cases hbegins : parts <+: parts'
  · exact hleads.eq_of_prefix hkind hleads' hbegins
  · by_cases hbegins' : parts' <+: parts
    · exact (hleads'.eq_of_prefix hkind' hleads hbegins').symm
    · have hpos := (hleads.within h he).1
      have hpos' := (hleads'.within h he).1
      have := hleads.disjoint h he hleads' hbegins hbegins'
      omega

/-- Every slot of a type has a path to it that ends in a number. By induction on the order in
which types came: a field covers the slot, and if it holds a record, that is of an earlier type. -/
theorem exists_leads_number (h : r.Tiled) : ∀ e ∈ r.entries, ∀ i < e.layout.slots,
    ∃ parts f, r.Leads e parts i f ∧ f.kind = .number ∧ ∀ part ∈ parts, '.' ∉ part.toList := by
  refine earlier_induction fun front e back hsplit ih i hi => ?_
  have hsound := h.layered front e back hsplit
  have he : e ∈ r.entries := by
    rw [hsplit]
    exact List.mem_append_right _ List.mem_cons_self
  obtain ⟨f, hf, hlo, hhi⟩ := (h.tiles he).covers (Nat.zero_le i) hi
  have hfield : e.layout.field? f.name = some f := (h.field?_iff he).mpr ⟨hf, rfl⟩
  cases hkind : f.kind with
  | number =>
    have hwidth := h.width_number he hf hkind
    obtain rfl : f.offset = i := by omega
    refine ⟨[f.name], f, .here hfield, hkind, fun part hpart => ?_⟩
    obtain rfl := List.mem_singleton.mp hpart
    exact hsound.point_not_mem f hf
  | record key =>
    have hfounded := hsound.founded f hf
    rw [Field.Founded, hkind] at hfounded
    obtain ⟨inner, hinner, hkey, -, hwidth⟩ := hfounded
    have hfind : r.find? key = some inner := by
      refine h.valid.find?_iff_mem.mpr ⟨?_, hkey⟩
      rw [hsplit]
      exact List.mem_append_left _ hinner
    obtain ⟨parts, g, hleads, hnumber, hpoint⟩ := ih inner hinner (i - f.offset) (by omega)
    have hoffset : f.offset + (i - f.offset) = i := by omega
    refine ⟨f.name :: parts, g, hoffset ▸ .inside hfield hkind hfind hleads, hnumber, ?_⟩
    intro part hpart
    rcases List.mem_cons.mp hpart with rfl | hpart
    · exact hsound.point_not_mem f hf
    · exact hpoint part hpart

theorem endsInNumber_iff (h : r.Tiled) (he : e ∈ r.entries) {path : String} :
    r.EndsInNumber e.key path ↔
      ∃ offset f, r.Leads e (pathParts path) offset f ∧ f.kind = .number := by
  rw [EndsInNumber, h.valid.find?_key he]
  constructor
  · rintro ⟨_, offset, f, hfind, hleads, hkind⟩
    cases hfind
    exact ⟨offset, f, hleads, hkind⟩
  · rintro ⟨offset, f, hleads, hkind⟩
    exact ⟨e, offset, f, rfl, hleads, hkind⟩

/-! ## §6 Spans -/

/-- How a type is laid out after some requests, and what that means for the paths in it. -/
structure LaidOut (requests : List Registration) (r : Registry) (e : TypeEntry) : Prop where
  /-- The layout is the one that the request declares which added the type, on top of the types
  that were registered before: field by field in the order of the declarations, with their names
  and types, or the fields of the type that it is another name of. -/
  declared : ∃ q front back, AddedBy requests e q ∧ r.entries = front ++ e :: back ∧
    q.Declares front e.name e.layout
  /-- The fields cover the slots in their order, without gap or overlap. -/
  tiles : Tiles 0 e.layout.fields e.layout.slots
  width_pos : ∀ f ∈ e.layout.fields, 1 ≤ f.width
  /-- A record in a field is of a flat type that was registered before, with as many slots as the
  field covers. -/
  inner : ∀ f ∈ e.layout.fields, ∀ key, f.kind = .record key →
    ∃ front inner back, r.entries = front ++ e :: back ∧ inner ∈ front ∧ inner.key = key ∧
      inner.layout.isFlat ∧ inner.layout.slots = f.width
  span_within : ∀ path o w, r.fieldSpan e.key path = .ok (o, w) →
    1 ≤ w ∧ o + w ≤ e.layout.slots
  /-- Paths that part lead to slots apart. -/
  spans_disjoint : ∀ p q o w o' w', r.fieldSpan e.key p = .ok (o, w) →
    r.fieldSpan e.key q = .ok (o', w') → ¬ DottedPrefix p q → ¬ DottedPrefix q p →
    o + w ≤ o' ∨ o' + w' ≤ o
  /-- A path that ends in a number leads to one slot. -/
  span_number : ∀ path, r.EndsInNumber e.key path →
    ∃ i < e.layout.slots, r.fieldSpan e.key path = .ok (i, 1)
  /-- Exactly one path that ends in a number leads to each slot. -/
  slot_path : ∀ i < e.layout.slots,
    ∃! path, r.EndsInNumber e.key path ∧ r.fieldSpan e.key path = .ok (i, 1)

theorem Tiled.span_number (h : r.Tiled) (he : e ∈ r.entries) {path : String}
    (hleads : r.Leads e (pathParts path) offset f) (hkind : f.kind = .number) :
    r.fieldSpan e.key path = .ok (offset, 1) :=
  (fieldSpan_eq_ok_iff h he).mpr ⟨f, hleads, (hleads.width_number h he hkind).symm⟩

/-- **Spans of fields.** After any requests that leave layouts to schemas, and as long as no type
has too many slots to count, every type has the fields that were declared for it, which are laid
out without gap or overlap on top of earlier types, and the paths in it come to its slots one to
one. -/
theorem spans_of_schemas (requests : List Registration)
    (hdeclared : ∀ q ∈ requests, q.Declared)
    (hcountable : (({} : Registry).performAll requests).Countable) :
    ∀ e ∈ (({} : Registry).performAll requests).entries,
      LaidOut requests (({} : Registry).performAll requests) e := by
  have h : Tiled (({} : Registry).performAll requests) :=
    ⟨valid_performAll valid_empty requests, layered_performAll hdeclared, hcountable⟩
  have hadded := exists_addedBy hdeclared
  generalize ({} : Registry).performAll requests = r at h hadded
  intro e he
  constructor
  case declared =>
    obtain ⟨front, back, hsplit⟩ := List.append_of_mem he
    obtain ⟨q, hq, hdecl⟩ := hadded front e back hsplit
    exact ⟨q, front, back, hq, hsplit, hdecl⟩
  case tiles => exact h.tiles he
  case width_pos => exact fun f hf => h.width_pos he hf
  case inner =>
    intro f hf key hkind
    obtain ⟨front, back, hsplit⟩ := List.append_of_mem he
    have hfounded := (h.layered front e back hsplit).founded f hf
    rw [Field.Founded, hkind] at hfounded
    obtain ⟨inner, hinner, hkey, hflat, hwidth⟩ := hfounded
    exact ⟨front, inner, back, hsplit, hinner, hkey, hflat, hwidth⟩
  case span_within =>
    intro path o w hspan
    obtain ⟨f, hleads, rfl⟩ := (fieldSpan_eq_ok_iff h he).mp hspan
    exact hleads.within h he
  case spans_disjoint =>
    intro p q o w o' w' hp hq hpq hqp
    obtain ⟨f, hleads, rfl⟩ := (fieldSpan_eq_ok_iff h he).mp hp
    obtain ⟨f', hleads', rfl⟩ := (fieldSpan_eq_ok_iff h he).mp hq
    exact hleads.disjoint h he hleads' (fun hpre => hpq (dottedPrefix_of_parts hpre))
      (fun hpre => hqp (dottedPrefix_of_parts hpre))
  case span_number =>
    intro path hnumber
    obtain ⟨offset, f, hleads, hkind⟩ := (endsInNumber_iff h he).mp hnumber
    have hwidth := hleads.width_number h he hkind
    have hwithin := (hleads.within h he).2
    exact ⟨offset, by omega, h.span_number he hleads hkind⟩
  case slot_path =>
    intro i hi
    obtain ⟨parts, f, hleads, hkind, hpoint⟩ := exists_leads_number h e he i hi
    have hne : parts ≠ [] := by
      rintro rfl
      cases hleads
    rw [← pathParts_intercalate hne hpoint] at hleads
    refine ⟨".".intercalate parts,
      ⟨(endsInNumber_iff h he).mpr ⟨i, f, hleads, hkind⟩, h.span_number he hleads hkind⟩, ?_⟩
    rintro path ⟨hnumber, hspan⟩
    obtain ⟨offset, g, hleads', hkind'⟩ := (endsInNumber_iff h he).mp hnumber
    have hspan' := h.span_number he hleads' hkind'
    rw [hspan] at hspan'
    cases hspan'
    exact pathParts_injective (hleads'.unique h he hkind' hleads hkind)

/-- The spans of rays: a vector, a ray of two of them, and another name for it. -/
theorem spans_of_schemas_ray :
    let requests : List Registration :=
      [.record .vec3, .plain "sphere" .sphere,
        .record ⟨.vec3 {}, "pair = \x7b f64 x; f64 y; \x7d", 3⟩, .record .ray,
        .flat "beam = ray" (.ray {})]
    (∀ q ∈ requests, q.Declared) ∧ (({} : Registry).performAll requests).Countable ∧
      ∀ e ∈ (({} : Registry).performAll requests).entries,
        LaidOut requests (({} : Registry).performAll requests) e := by
  intro requests
  have hdeclared : ∀ q ∈ requests, q.Declared := by decide
  have hcountable : (({} : Registry).performAll requests).Countable := by
    unfold Countable
    decide +kernel
  exact ⟨hdeclared, hcountable, spans_of_schemas requests hdeclared hcountable⟩

example : ((({} : Registry).performAll [.record .vec3, .record .ray]).fieldSpan
    (Key.ofName "ray") "d.z").toOption = some (5, 1) := by
  decide

end Registry

end SceneScript
