/-
SceneScript.Proofs.LayoutTheorems — the fields of a flat record tile its slots.

`Tiles` is the property: every field starts where the one before it stops. Fields
read off a schema are laid out that way, one for each declaration and of the
declared type (`layOut_spec`), and a layout that is shared by an alias stays as it
is, so every layout that a schema gives is the one that it `Declares`, and `Sound`
with respect to the types that were registered before it (`sound_layoutOfBody`).
Types are only ever added at the end, conversions do not touch layouts, and a
type that is taken out again leaves nothing behind; so in a registry that knows
its types from schemas alone, each one is sound with respect to the ones before
it (`layered_performAll`), and has the layout that the request declared which
added it (`exists_addedBy`). Facts about types follow by induction on the order in
which they came (`earlier_induction`).
-/
import SceneScript.Proofs.SchemaTheorems
import Mathlib.Algebra.GroupWithZero.Nat
import Mathlib.Data.List.Induction

namespace SceneScript

/-! ## §1 Counting slots -/

namespace Layout

/-- The number of slots, counted without a limit. -/
def total (l : Layout) : Nat := (l.fields.map Field.width).sum

theorem mem_of_field? {l : Layout} {name : String} {f : Field} (h : l.field? name = some f) :
    f ∈ l.fields :=
  List.mem_of_find?_eq_some h

theorem foldl_addSizes (start : Nat) (widths : List Nat) (h : start < sizeLimit) :
    widths.foldl addSizes start = (start + widths.sum) % sizeLimit := by
  induction widths generalizing start with
  | nil => simp [Nat.mod_eq_of_lt h]
  | cons w rest ih =>
    have hstart : addSizes start w < sizeLimit := Nat.mod_lt _ (by decide)
    rw [List.foldl_cons, ih _ hstart, addSizes, Nat.mod_add_mod, List.sum_cons, Nat.add_assoc]

/-- The slots are counted in 64 bits. -/
theorem slots_eq (l : Layout) : l.slots = l.total % sizeLimit := by
  rw [slots, foldl_addSizes 0 _ (by decide), Nat.zero_add, total]

theorem slots_of_lt {l : Layout} (h : l.total < sizeLimit) : l.slots = l.total := by
  rw [slots_eq, Nat.mod_eq_of_lt h]

end Layout

/-! ## §2 Tiling -/

/-- The fields cover the slots from `start` to `stop` in their order: the first one begins at
`start`, and each of the others where the one before it ends. -/
inductive Tiles : Nat → List Field → Nat → Prop
  | nil {n : Nat} : Tiles n [] n
  | cons {f : Field} {fields : List Field} {stop : Nat}
      (hrest : Tiles (f.offset + f.width) fields stop) : Tiles f.offset (f :: fields) stop

namespace Tiles

variable {start stop : Nat} {fields : List Field}

theorem le (h : Tiles start fields stop) : start ≤ stop := by
  induction h with
  | nil => exact Nat.le_refl _
  | cons _ ih => exact Nat.le_trans (Nat.le_add_right _ _) ih

/-- Every field lies within what is tiled. -/
theorem within (h : Tiles start fields stop) :
    ∀ f ∈ fields, start ≤ f.offset ∧ f.offset + f.width ≤ stop := by
  induction h with
  | nil => exact fun f hf => absurd hf List.not_mem_nil
  | cons hrest ih =>
    intro g hg
    rcases List.mem_cons.mp hg with rfl | hg
    · exact ⟨Nat.le_refl _, hrest.le⟩
    · obtain ⟨hstart, hstop⟩ := ih g hg
      exact ⟨by omega, hstop⟩

/-- Different fields do not overlap. -/
theorem disjoint (h : Tiles start fields stop) {f g : Field} (hf : f ∈ fields) (hg : g ∈ fields)
    (hne : f ≠ g) : f.offset + f.width ≤ g.offset ∨ g.offset + g.width ≤ f.offset := by
  induction h with
  | nil => cases hf
  | cons hrest ih =>
    rcases List.mem_cons.mp hf with rfl | hf' <;> rcases List.mem_cons.mp hg with rfl | hg'
    · exact absurd rfl hne
    · exact .inl (hrest.within g hg').1
    · exact .inr (hrest.within f hf').1
    · exact ih hf' hg'

/-- Every slot is covered by a field. -/
theorem covers (h : Tiles start fields stop) {i : Nat} (hstart : start ≤ i) (hstop : i < stop) :
    ∃ f ∈ fields, f.offset ≤ i ∧ i < f.offset + f.width := by
  induction h with
  | nil => omega
  | @cons f _ _ _ ih =>
    by_cases hi : i < f.offset + f.width
    · exact ⟨f, List.mem_cons_self, hstart, hi⟩
    · obtain ⟨g, hg, hcovers⟩ := ih (by omega) hstop
      exact ⟨g, List.mem_cons_of_mem _ hg, hcovers⟩

end Tiles

/-! ## §3 Layouts on top of earlier types -/

/-- A number covers one slot; a record covers the slots of a flat type that came earlier. -/
def Field.Founded (earlier : List TypeEntry) (f : Field) : Prop :=
  match f.kind with
  | .number => f.width = 1
  | .record key => ∃ inner ∈ earlier,
      inner.key = key ∧ inner.layout.isFlat ∧ inner.layout.slots = f.width

/-- The field that a declaration asks for, given the types that came earlier: a number if that is
the declared type, and otherwise a record of the flat type of the declared name. -/
inductive FieldDecl.Declares (earlier : List TypeEntry) (decl : FieldDecl) : Field → Prop
  | number {offset : Nat} (htype : decl.type = numberType) :
      Declares earlier decl ⟨decl.name, .number, offset, 1⟩
  | record {inner : TypeEntry} {offset : Nat} (htype : decl.type ≠ numberType)
      (hinner : inner ∈ earlier) (hname : inner.name = decl.type)
      (hflat : inner.layout.isFlat = true) :
      Declares earlier decl ⟨decl.name, .record inner.key, offset, inner.layout.slots⟩

/-- The layout that a schema asks for, given the types that came earlier: one field for each
declaration, in their order, or the layout of the flat type that it is another name of. -/
inductive SchemaBody.Declares (earlier : List TypeEntry) : SchemaBody → Layout → Prop
  | fields {decls : List FieldDecl} {layout : Layout}
      (hfields : List.Forall₂ (FieldDecl.Declares earlier) decls layout.fields) :
      Declares earlier (.fields decls) layout
  | shared {e : TypeEntry} (he : e ∈ earlier) (hflat : e.layout.isFlat = true) :
      Declares earlier (.alias e.name) e.layout

theorem FieldDecl.Declares.name_eq {earlier : List TypeEntry} {decl : FieldDecl} {f : Field}
    (h : decl.Declares earlier f) : f.name = decl.name := by
  cases h <;> rfl

theorem FieldDecl.Declares.founded {earlier : List TypeEntry} {decl : FieldDecl} {f : Field}
    (h : decl.Declares earlier f) : f.Founded earlier := by
  cases h with
  | number => rfl
  | @record inner _ _ hinner _ hflat => exact ⟨inner, hinner, rfl, hflat, rfl⟩

/-- Declared fields have the declared names. -/
theorem map_name_of_declares {earlier : List TypeEntry} {decls : List FieldDecl}
    {fields : List Field} (h : List.Forall₂ (FieldDecl.Declares earlier) decls fields) :
    fields.map Field.name = decls.map FieldDecl.name := by
  induction h with
  | nil => rfl
  | cons hdecl _ ih => rw [List.map_cons, List.map_cons, hdecl.name_eq, ih]

theorem founded_of_declares {earlier : List TypeEntry} {decls : List FieldDecl}
    {fields : List Field} (h : List.Forall₂ (FieldDecl.Declares earlier) decls fields) :
    ∀ f ∈ fields, f.Founded earlier := by
  induction h with
  | nil => exact fun f hf => absurd hf List.not_mem_nil
  | cons hdecl _ ih => exact List.forall_mem_cons.mpr ⟨hdecl.founded, ih⟩

/-- A change to types that leaves their names, keys and layouts as they are. -/
def KeepsLayouts (g : TypeEntry → TypeEntry) : Prop :=
  ∀ e, (g e).name = e.name ∧ (g e).key = e.key ∧ (g e).layout = e.layout

/-- No declaration depends on more of an earlier type than its name, key and layout. -/
theorem FieldDecl.Declares.map {earlier : List TypeEntry} {decl : FieldDecl} {f : Field}
    {g : TypeEntry → TypeEntry} (hg : KeepsLayouts g) (h : decl.Declares earlier f) :
    decl.Declares (earlier.map g) f := by
  cases h with
  | number htype => exact .number htype
  | @record inner _ htype hinner hdecl hflat =>
    obtain ⟨hname, hkey, hlayout⟩ := hg inner
    rw [← hkey, ← hlayout]
    exact .record htype (List.mem_map_of_mem hinner) (hname.trans hdecl) (by rwa [hlayout])

theorem SchemaBody.Declares.map {earlier : List TypeEntry} {body : SchemaBody} {layout : Layout}
    {g : TypeEntry → TypeEntry} (hg : KeepsLayouts g) (h : body.Declares earlier layout) :
    body.Declares (earlier.map g) layout := by
  cases h with
  | fields hfields => exact .fields (hfields.imp fun _ _ => .map hg)
  | @shared e he hflat =>
    obtain ⟨hname, -, hlayout⟩ := hg e
    rw [← hname, ← hlayout]
    exact .shared (List.mem_map_of_mem he) (by rwa [hlayout])

/-- What a schema makes sure of, given the types that came earlier. -/
structure Layout.Sound (earlier : List TypeEntry) (l : Layout) : Prop where
  nodup : (l.fields.map Field.name).Nodup
  point_not_mem : ∀ f ∈ l.fields, '.' ∉ f.name.toList
  founded : ∀ f ∈ l.fields, f.Founded earlier
  tiles : l.total < sizeLimit → Tiles 0 l.fields l.total

theorem Field.Founded.mono {earlier later : List TypeEntry} {f : Field}
    (hsub : ∀ e ∈ earlier, e ∈ later) (h : f.Founded earlier) : f.Founded later := by
  unfold Founded at h ⊢
  split at h
  · exact h
  · obtain ⟨inner, hinner, hrest⟩ := h
    exact ⟨inner, hsub inner hinner, hrest⟩

theorem Layout.Sound.mono {earlier later : List TypeEntry} {l : Layout}
    (hsub : ∀ e ∈ earlier, e ∈ later) (h : l.Sound earlier) : l.Sound later :=
  ⟨h.nodup, h.point_not_mem, fun f hf => (h.founded f hf).mono hsub, h.tiles⟩

/-- Nothing that a layout rests on changes when conversions are attached. -/
theorem Layout.Sound.map {earlier : List TypeEntry} {l : Layout} {g : TypeEntry → TypeEntry}
    (hg : KeepsLayouts g) (h : l.Sound earlier) : l.Sound (earlier.map g) := by
  refine ⟨h.nodup, h.point_not_mem, fun f hf => ?_, h.tiles⟩
  have hfounded := h.founded f hf
  unfold Field.Founded at hfounded ⊢
  split at hfounded
  · exact hfounded
  · obtain ⟨inner, hinner, hinnerKey, hflat, hwidth⟩ := hfounded
    obtain ⟨-, hkey, hlayout⟩ := hg inner
    refine ⟨g inner, List.mem_map_of_mem hinner, ?_⟩
    rw [hkey, hlayout]
    exact ⟨hinnerKey, hflat, hwidth⟩

theorem Layout.sound_empty (earlier : List TypeEntry) : ({} : Layout).Sound earlier :=
  ⟨List.nodup_nil, fun _ hf => absurd hf List.not_mem_nil,
    fun _ hf => absurd hf List.not_mem_nil, fun _ => .nil⟩

namespace Registry

variable {r : Registry}

theorem Valid.flatEntry_spec (h : r.Valid) {name : String} {e : TypeEntry}
    (hflat : r.flatEntry name = .ok e) :
    e ∈ r.entries ∧ e.name = name ∧ e.layout.isFlat = true := by
  unfold flatEntry at hflat
  split at hflat
  · next found hfound =>
    split at hflat
    · next hisFlat =>
      cases hflat
      obtain ⟨he, hname⟩ := h.findNamed?_iff.mp hfound
      exact ⟨he, hname, hisFlat⟩
    · cases hflat
  · cases hflat

theorem Valid.resolveType_spec (h : r.Valid) {decl : FieldDecl} {kind : FieldKind}
    {offset width : Nat} (htype : r.resolveType decl.type = .ok (kind, width)) :
    decl.Declares r.entries ⟨decl.name, kind, offset, width⟩ := by
  unfold resolveType at htype
  split at htype
  · next hnumber =>
    cases htype
    exact .number hnumber
  · next hnumber =>
    cases hentry : r.flatEntry decl.type with
    | error fault =>
      rw [hentry] at htype
      cases htype
    | ok e =>
      rw [hentry] at htype
      cases htype
      obtain ⟨he, hname, hflat⟩ := h.flatEntry_spec hentry
      exact .record hnumber he hname hflat

/-- Declared fields are laid out one after the other, as they are declared. -/
theorem Valid.layOut_spec (h : r.Valid) {decls : List FieldDecl} :
    ∀ {offset : Nat} {fields : List Field}, r.layOut offset decls = .ok fields →
    List.Forall₂ (FieldDecl.Declares r.entries) decls fields ∧
    (offset + (fields.map Field.width).sum < sizeLimit →
      Tiles offset fields (offset + (fields.map Field.width).sum)) := by
  induction decls with
  | nil =>
    intro offset fields hfields
    cases hfields
    exact ⟨.nil, fun _ => .nil⟩
  | cons decl rest ih =>
    intro offset fields hfields
    rw [layOut] at hfields
    split at hfields
    · cases hfields
    · next kind width htype =>
      cases hrest : r.layOut (addSizes offset width) rest with
      | error fault =>
        rw [hrest] at hfields
        cases hfields
      | ok fields' =>
        rw [hrest] at hfields
        cases hfields
        obtain ⟨hdeclared, htiles⟩ := ih hrest
        refine ⟨.cons (h.resolveType_spec htype) hdeclared, fun hsize => ?_⟩
        rw [List.map_cons, List.sum_cons, ← Nat.add_assoc] at hsize ⊢
        -- The offset of the rest is a true sum because the total is within the limit.
        have hoffset : addSizes offset width = offset + width :=
          Nat.mod_eq_of_lt (by dsimp only at hsize; omega)
        rw [hoffset] at htiles
        exact Tiles.cons (f := ⟨decl.name, kind, offset, width⟩) (htiles hsize)

/-- The layout of a schema is the one that it declares. -/
theorem Valid.layoutOfBody_declares (h : r.Valid) {body : SchemaBody} {layout : Layout}
    (hlayout : r.layoutOfBody body = .ok layout) : body.Declares r.entries layout := by
  rcases body with decls | target
  · rw [layoutOfBody] at hlayout
    obtain ⟨fields, hfields, rfl⟩ := exists_of_map_eq_ok hlayout
    exact .fields (h.layOut_spec hfields).1
  · rw [layoutOfBody] at hlayout
    obtain ⟨e, hentry, rfl⟩ := exists_of_map_eq_ok hlayout
    obtain ⟨he, rfl, hflat⟩ := h.flatEntry_spec hentry
    exact .shared he hflat

/-- A layout that a schema gives is sound on top of the registered types. -/
theorem Valid.sound_layoutOfBody (h : r.Valid) (hsound : ∀ e ∈ r.entries, e.layout.Sound r.entries)
    {source : String} {schema : Schema} {layout : Layout}
    (hparse : Schema.parse source = .ok schema)
    (hlayout : r.layoutOfBody schema.body = .ok layout) : layout.Sound r.entries := by
  rcases hbody : schema.body with decls | target
  · rw [hbody, layoutOfBody] at hlayout
    obtain ⟨fields, hfields, rfl⟩ := exists_of_map_eq_ok hlayout
    obtain ⟨hnodup, hpoint⟩ := Schema.parse_names hparse hbody
    obtain ⟨hdeclared, htiles⟩ := h.layOut_spec hfields
    have hnames := map_name_of_declares hdeclared
    refine ⟨by rw [hnames]; exact hnodup, fun f hf => ?_, founded_of_declares hdeclared,
      fun hsize => ?_⟩
    · obtain ⟨decl, hdecl, hname⟩ : ∃ decl ∈ decls, decl.name = f.name := by
        rw [← List.mem_map, ← hnames]
        exact List.mem_map_of_mem hf
      rw [← hname]
      exact hpoint decl hdecl
    · rw [Nat.zero_add] at htiles
      exact htiles hsize
  · rw [hbody, layoutOfBody] at hlayout
    obtain ⟨e, hentry, rfl⟩ := exists_of_map_eq_ok hlayout
    exact hsound e (h.flatEntry_spec hentry).1

end Registry

/-! ## §4 Runs -/

/-- Whether a request leaves the layout to a schema, or adds a type without fields. -/
def Registration.Declared : Registration → Prop
  | .laidOut _ _ _ => False
  | _ => True

instance (q : Registration) : Decidable q.Declared := by
  cases q <;> unfold Registration.Declared <;> infer_instance

/-- What a request declares about the type that it wants to add, given the types that came
earlier: its name and its layout. -/
inductive Registration.Declares (earlier : List TypeEntry) : Registration → String → Layout → Prop
  | plain {name : String} {kind : Kind} : Declares earlier (.plain name kind) name {}
  | flat {source : String} {fresh : Payload} {schema : Schema} {layout : Layout}
      (hparse : Schema.parse source = .ok schema)
      (hbody : schema.body.Declares earlier layout) :
      Declares earlier (.flat source fresh) schema.name layout
  | record {flat : FlatKind} {schema : Schema} {layout : Layout}
      (hparse : Schema.parse flat.schema = .ok schema)
      (hbody : schema.body.Declares earlier layout) :
      Declares earlier (.record flat) schema.name layout

theorem Registration.Declares.map {earlier : List TypeEntry} {q : Registration} {name : String}
    {layout : Layout} {g : TypeEntry → TypeEntry} (hg : KeepsLayouts g)
    (h : q.Declares earlier name layout) : q.Declares (earlier.map g) name layout := by
  cases h with
  | plain => exact .plain
  | flat hparse hbody => exact .flat hparse (hbody.map hg)
  | record hparse hbody => exact .record hparse (hbody.map hg)

/-- What follows for a member of a list from the same for the members before it holds for all. -/
theorem earlier_induction {α : Type} {P : α → Prop} {all : List α}
    (hstep : ∀ front a back, all = front ++ a :: back → (∀ b ∈ front, P b) → P a) :
    ∀ a ∈ all, P a := by
  have hfront : ∀ front back, all = front ++ back → ∀ a ∈ front, P a := by
    intro front
    induction front using List.reverseRecOn with
    | nil => exact fun _ _ a ha => absurd ha List.not_mem_nil
    | append_singleton front last ih =>
      intro back hall a ha
      rw [List.append_assoc, List.singleton_append] at hall
      rcases List.mem_append.mp ha with ha | ha
      · exact ih _ hall a ha
      · obtain rfl := List.mem_singleton.mp ha
        exact hstep front a back hall (ih _ hall)
  exact hfront all [] (List.append_nil all).symm

namespace Registry

variable {r : Registry}

/-- The layout of every type is sound on top of the types that came before it. -/
def Layered (r : Registry) : Prop :=
  ∀ front e back, r.entries = front ++ e :: back → e.layout.Sound front

theorem Layered.sound (h : r.Layered) : ∀ e ∈ r.entries, e.layout.Sound r.entries := by
  intro e he
  obtain ⟨front, back, hsplit⟩ := List.append_of_mem he
  refine (h front e back hsplit).mono fun inner hinner => ?_
  rw [hsplit]
  exact List.mem_append_left _ hinner

theorem Layered.added (h : r.Layered) (hvalid : r.Valid) {name : String} {fresh : Payload}
    {layout : Layout} (hfree : r.find? (Key.ofName name) = none)
    (hsound : layout.Sound r.entries) : (r.added name fresh layout).Layered := by
  intro front e back hsplit
  rw [hvalid.entries_added hfree] at hsplit
  rcases List.eq_nil_or_concat back with rfl | ⟨back', last, rfl⟩
  · obtain ⟨rfl, hlast⟩ := List.append_inj' hsplit rfl
    cases hlast
    exact hsound
  · rw [List.concat_eq_append, ← List.cons_append, ← List.append_assoc] at hsplit
    exact h front e back' (List.append_inj' hsplit rfl).1

/-- Where a type is after a conversion has been attached, it was before. -/
theorem Valid.split_converted (h : r.Valid) {key : Key} {conversion : Conversion}
    {front back : List TypeEntry} {e : TypeEntry}
    (hsplit : (r.converted key conversion).entries = front ++ e :: back) :
    ∃ g, KeepsLayouts g ∧ ∃ front' e' back', r.entries = front' ++ e' :: back' ∧
      front = front'.map g ∧ e = g e' := by
  rw [h.entries_converted, List.map_eq_append_iff] at hsplit
  obtain ⟨front', rest, hentries, rfl, hrest⟩ := hsplit
  obtain ⟨e', back', rfl, rfl, -⟩ := List.map_eq_cons_iff.mp hrest
  refine ⟨_, fun e => ?_, front', e', back', hentries, rfl, rfl⟩
  split <;> exact ⟨rfl, rfl, rfl⟩

theorem Layered.converted (h : r.Layered) (hvalid : r.Valid) (key : Key)
    (conversion : Conversion) : (r.converted key conversion).Layered := by
  intro front e back hsplit
  obtain ⟨g, hg, front', e', back', hentries, rfl, rfl⟩ := hvalid.split_converted hsplit
  rw [(hg e').2.2]
  exact (h front' e' back' hentries).map hg

theorem layered_perform (hvalid : r.Valid) {q : Registration} (hq : q.Declared)
    (h : r.Layered) : (r.perform q).2.Layered := by
  rcases perform_cases hvalid q with ⟨e, hperform⟩ |
    ⟨name, fresh, layout, hdesc, _, hfree, hperform⟩ | ⟨key, conversion, e, _, _, hperform⟩
  · rw [hperform]
    exact h
  · rw [hperform]
    refine h.added hvalid hfree ?_
    cases hdesc with
    | laidOut => exact absurd hq id
    | plain => exact Layout.sound_empty _
    | flat hparse hlayout => exact hvalid.sound_layoutOfBody h.sound hparse hlayout
    | record hparse hlayout => exact hvalid.sound_layoutOfBody h.sound hparse hlayout
  · rw [hperform]
    exact h.converted hvalid key conversion

/-- Types known from schemas alone rest on the types before them. -/
theorem layered_performAll {requests : List Registration} (hdeclared : ∀ q ∈ requests, q.Declared) :
    (({} : Registry).performAll requests).Layered := by
  refine performAll_induction (P := Layered)
    (fun r q hq hvalid h => layered_perform hvalid (hdeclared q hq) h) valid_empty ?_
  intro front e back hsplit
  cases front <;> cases hsplit

/-! ## §5 Declared layouts -/

theorem Describes.declares (hvalid : r.Valid) {q : Registration} (hq : q.Declared)
    {name : String} {fresh : Payload} {layout : Layout} (h : r.Describes q name fresh layout) :
    q.Declares r.entries name layout := by
  cases h with
  | laidOut => exact absurd hq id
  | plain => exact .plain
  | flat hparse hlayout => exact .flat hparse (hvalid.layoutOfBody_declares hlayout)
  | record hparse hlayout => exact .record hparse (hvalid.layoutOfBody_declares hlayout)

/-- The request that added a type, among requests to an empty registry: the key of the type was
free before it, and it succeeded with that key. -/
def AddedBy (requests : List Registration) (e : TypeEntry) (q : Registration) : Prop :=
  ∃ before after, requests = before ++ q :: after ∧
    (({} : Registry).performAll before).find? e.key = none ∧
    ((({} : Registry).performAll before).perform q).1 = .ok e.key

theorem AddedBy.append {requests : List Registration} {e : TypeEntry} {q : Registration}
    (h : AddedBy requests e q) (more : List Registration) : AddedBy (requests ++ more) e q := by
  obtain ⟨before, after, rfl, hfree, hok⟩ := h
  exact ⟨before, after ++ more, by simp, hfree, hok⟩

theorem AddedBy.of_key {requests : List Registration} {e e' : TypeEntry} {q : Registration}
    (h : AddedBy requests e q) (hkey : e.key = e'.key) : AddedBy requests e' q := by
  rwa [AddedBy, ← hkey]

/-- Every type was added by one of the requests, and is laid out on top of the types before it as
that request declares. By induction on the requests: the last one is refused, or it adds the last
type, or it attaches a conversion, which no declaration depends on. -/
theorem exists_addedBy {requests : List Registration} (hdeclared : ∀ q ∈ requests, q.Declared) :
    ∀ front e back, (({} : Registry).performAll requests).entries = front ++ e :: back →
      ∃ q, AddedBy requests e q ∧ q.Declares front e.name e.layout := by
  induction requests using List.reverseRecOn with
  | nil =>
    intro front e back hsplit
    cases front <;> cases hsplit
  | append_singleton requests last ih =>
    intro front e back hsplit
    have hearlier := ih fun q hq => hdeclared q (List.mem_append_left _ hq)
    have hlast := hdeclared last (List.mem_append_right _ List.mem_cons_self)
    have hvalid := valid_performAll valid_empty requests
    rw [performAll, List.foldl_append] at hsplit
    change ((({} : Registry).performAll requests).perform last).2.entries = _ at hsplit
    rcases perform_cases hvalid last with ⟨_, hrefused⟩ |
      ⟨name, fresh, layout, hdesc, -, hfree, hadded⟩ | ⟨key, conversion, _, -, -, hconverted⟩
    · rw [hrefused] at hsplit
      obtain ⟨q, hq, hdecl⟩ := hearlier front e back hsplit
      exact ⟨q, hq.append _, hdecl⟩
    · rw [hadded, hvalid.entries_added hfree] at hsplit
      rcases List.eq_nil_or_concat back with rfl | ⟨back', other, rfl⟩
      · obtain ⟨rfl, hnew⟩ := List.append_inj' hsplit rfl
        cases hnew
        exact ⟨last, ⟨requests, [], rfl, hfree, by rw [hadded]; rfl⟩,
          hdesc.declares hvalid hlast⟩
      · rw [List.concat_eq_append, ← List.cons_append, ← List.append_assoc] at hsplit
        obtain ⟨q, hq, hdecl⟩ := hearlier front e back' (List.append_inj' hsplit rfl).1
        exact ⟨q, hq.append _, hdecl⟩
    · rw [hconverted] at hsplit
      obtain ⟨g, hg, front', e', back', hentries, rfl, rfl⟩ := hvalid.split_converted hsplit
      obtain ⟨q, hq, hdecl⟩ := hearlier front' e' back' hentries
      obtain ⟨hname, hkey, hlayout⟩ := hg e'
      rw [hname, hlayout]
      exact ⟨q, (hq.append _).of_key hkey.symm, hdecl.map hg⟩

/-! ## §6 Sizes -/

/-- Sizes that are within the limit: no type has more slots than can be counted. -/
def Countable (r : Registry) : Prop := ∀ e ∈ r.entries, e.layout.total < sizeLimit

theorem Layered.tiles (h : r.Layered) (hsize : r.Countable) {e : TypeEntry} (he : e ∈ r.entries) :
    Tiles 0 e.layout.fields e.layout.slots := by
  rw [Layout.slots_of_lt (hsize e he)]
  exact (h.sound e he).tiles (hsize e he)

/-- No field is empty: a record within another is flat, so that it has a first field itself. -/
theorem Layered.width_pos (h : r.Layered) (hsize : r.Countable) :
    ∀ e ∈ r.entries, ∀ f ∈ e.layout.fields, 1 ≤ f.width := by
  refine earlier_induction fun front e back hsplit ih f hf => ?_
  have hfounded := (h front e back hsplit).founded f hf
  unfold Field.Founded at hfounded
  split at hfounded
  · exact Nat.le_of_eq hfounded.symm
  · obtain ⟨inner, hinner, -, hflat, hwidth⟩ := hfounded
    have hmem : inner ∈ r.entries := by
      rw [hsplit]
      exact List.mem_append_left _ hinner
    have htiles := h.tiles hsize hmem
    rw [Layout.isFlat] at hflat
    cases hfields : inner.layout.fields with
    | nil => simp [hfields] at hflat
    | cons g rest =>
      have hg : g ∈ inner.layout.fields := hfields ▸ List.mem_cons_self
      have hpos := ih inner hinner g hg
      have hwithin := htiles.within g hg
      omega

end Registry

end SceneScript
