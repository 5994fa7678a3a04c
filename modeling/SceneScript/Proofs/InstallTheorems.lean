/-
SceneScript.Proofs.InstallTheorems — when `init1` succeeds, and what comes of it.

`init1` goes through a fixed list of requests and stops at the first that is
refused. What it finds in its way is whatever the host has registered before.
`Ready` says that nothing there is in its way: no type under the key of a standard
type, no type with the name of a standard builtin, no builtin under the key of a
standard builtin.

That this is enough rests on a frame property. Requests that succeed one after the
other on a registry (`Grants`) also succeed on top of any other one in which their
keys are free, and come to the same there (`grants_over`): they find the types
inside their layouts among those that they have added themselves. So what is
standard has to be registered on an empty registry only once
(`grants_registrations`). That it is necessary follows from the listed keys, of
which no two are the same.

What is in the way stays there, whatever happens (`Ready.of_extends`). So `init1`
fails for good if it fails once. `init1_settles` puts all of this together.
-/
import SceneScript.Proofs.EngineTheorems

namespace SceneScript

namespace Registry

variable {r base own : Registry} {q : Registration} {requests : List Registration}
  {name : String} {fresh : Payload} {layout : Layout} {key : Key}

/-! ## §1 Requests that succeed one after the other -/

/-- Requests that succeed add a type for each of their names, in their order. -/
theorem successes_of_grants (h : r.Valid) (hgrants : r.Grants requests) :
    r.successes requests =
      (requests.filterMap Registration.name?).map fun name => (name, Key.ofName name) := by
  induction requests generalizing r with
  | nil => rfl
  | cons q rest ih =>
    obtain ⟨⟨key, hok⟩, hrest⟩ := hgrants
    rw [successes, ih (valid_perform h q) hrest]
    rcases perform_ok_cases h hok with
      ⟨name, fresh, layout, hdesc, -, -, rfl, hq⟩ | ⟨conversion, e, rfl, -, -⟩
    · simp [hq, hdesc.name?]
    · have hnone : (Registration.conversion key conversion).name? = none := rfl
      rw [List.filterMap_cons_none hnone]
      rfl

theorem names_of_grants (h : r.Valid) (hgrants : r.Grants requests) :
    (r.performAll requests).entries.map TypeEntry.name =
      r.entries.map TypeEntry.name ++ requests.filterMap Registration.name? := by
  have hentries := congrArg (List.map Prod.fst) (entries_performAll h requests)
  rw [successes_of_grants h hgrants] at hentries
  simpa [Function.comp_def] using hentries

theorem order_of_grants (h : r.Valid) (hgrants : r.Grants requests) :
    (r.performAll requests).catalog.order =
      r.catalog.order ++ (requests.filterMap Registration.name?).map Key.ofName := by
  have hentries := congrArg (List.map Prod.snd) (entries_performAll h requests)
  rw [successes_of_grants h hgrants] at hentries
  rw [← (valid_performAll h requests).map_key_entries, ← h.map_key_entries]
  simpa [Function.comp_def] using hentries

/-- The keys of requests that succeed were free. -/
theorem free_of_grants (h : r.Valid) (hgrants : r.Grants requests) :
    ∀ name ∈ requests.filterMap Registration.name?, r.find? (Key.ofName name) = none := by
  intro name hname
  have hnodup := (valid_performAll h requests).consistent.nodup
  rw [order_of_grants h hgrants, List.nodup_append] at hnodup
  by_contra hsome
  have hlisted := (h.consistent.mem_order_iff _).mpr (Option.isSome_iff_ne_none.mpr hsome)
  exact hnodup.2.2 _ hlisted _ (List.mem_map_of_mem hname) rfl

/-! ## §2 One registry on top of another -/

/-- The registry `r` is `own` on top of `base`. -/
def Over (base own r : Registry) : Prop := Catalog.Over base.catalog own.catalog r.catalog

theorem Over.find? (h : Over base own r) (key : Key) :
    r.find? key = (own.find? key).or (base.find? key) :=
  Catalog.Over.find? h key

/-- The registry `r` finds whatever is found in `own`, as it is there. -/
def Includes (r own : Registry) : Prop := ∀ key e, own.find? key = some e → r.find? key = some e

theorem Over.includes (h : Over base own r) : r.Includes own := by
  intro key e he
  rw [h.find?, he, Option.some_or]

theorem Includes.flatEntry (h : r.Includes own) {e : TypeEntry} (he : own.flatEntry name = .ok e) :
    r.flatEntry name = .ok e := by
  unfold Registry.flatEntry at he ⊢
  cases hfind : own.findNamed? name with
  | none =>
    rw [hfind] at he
    cases he
  | some e' =>
    have hfound : r.findNamed? name = some e' := by
      obtain ⟨hkey, hname⟩ := Option.filter_eq_some_iff.mp hfind
      exact Option.filter_eq_some_iff.mpr ⟨h _ _ hkey, hname⟩
    rw [hfind] at he
    rw [hfound]
    exact he

theorem Includes.resolveType (h : r.Includes own) {type : String} {resolved : FieldKind × Nat}
    (hok : own.resolveType type = .ok resolved) : r.resolveType type = .ok resolved := by
  unfold Registry.resolveType at hok ⊢
  split at hok
  · next hnumber =>
    rw [if_pos hnumber]
    exact hok
  · next hnumber =>
    rw [if_neg hnumber]
    cases hflat : own.flatEntry type with
    | error fault =>
      rw [hflat] at hok
      cases hok
    | ok e =>
      rw [hflat] at hok
      rw [h.flatEntry hflat]
      exact hok

theorem Includes.layOut (h : r.Includes own) {offset : Nat} {decls : List FieldDecl}
    {fields : List Field} (hok : own.layOut offset decls = .ok fields) :
    r.layOut offset decls = .ok fields := by
  induction decls generalizing offset fields with
  | nil => exact hok
  | cons decl rest ih =>
    rw [Registry.layOut] at hok ⊢
    cases htype : own.resolveType decl.type with
    | error fault =>
      rw [htype] at hok
      cases hok
    | ok resolved =>
      obtain ⟨kind, width⟩ := resolved
      simp only [htype] at hok
      obtain ⟨fields', hrest, rfl⟩ := exists_of_map_eq_ok hok
      simp only [h.resolveType htype, ih hrest]
      rfl

theorem Includes.layoutOfBody (h : r.Includes own) {body : SchemaBody}
    (hok : own.layoutOfBody body = .ok layout) : r.layoutOfBody body = .ok layout := by
  rcases body with decls | target
  · obtain ⟨fields, hfields, rfl⟩ := exists_of_map_eq_ok hok
    simp only [Registry.layoutOfBody, h.layOut hfields]
    rfl
  · obtain ⟨e, hflat, rfl⟩ := exists_of_map_eq_ok hok
    simp only [Registry.layoutOfBody, h.flatEntry hflat]
    rfl

/-- What a request describes depends on the types inside it alone. -/
theorem Includes.describes (h : r.Includes own) (hdesc : own.Describes q name fresh layout) :
    r.Describes q name fresh layout := by
  cases hdesc with
  | laidOut => exact .laidOut
  | plain => exact .plain
  | flat hparse hlayout => exact .flat hparse (h.layoutOfBody hlayout)
  | record hparse hlayout => exact .record hparse (h.layoutOfBody hlayout)

/-- A request that succeeds on `own` succeeds on top of any `base` in which its key is free. -/
theorem perform_over (hown : own.Valid) (hr : r.Valid) (hover : Over base own r)
    (hok : (own.perform q).1 = .ok key) (hfree : base.find? key = none) :
    (r.perform q).1 = .ok key ∧ Over base (own.perform q).2 (r.perform q).2 := by
  rcases perform_ok_cases hown hok with
    ⟨name, fresh, layout, hdesc, hfits, hkey, rfl, hq⟩ | ⟨conversion, e, rfl, hfind, hq⟩
  · have hfree' : r.find? (Key.ofName name) = none := by rw [hover.find?, hkey, hfree]; rfl
    rcases perform_of_free hr (hover.includes.describes hdesc) hfree' with
      ⟨-, hq'⟩ | ⟨hunfit, -⟩
    · rw [hq, hq']
      exact ⟨rfl, Catalog.Over.add hover _ _⟩
    · exact absurd hfits hunfit
  · have hq' : r.perform (.conversion key conversion) = (.ok key, r.converted key conversion) := by
      simp only [perform, setConversion, hover.includes _ _ hfind]
      rfl
    have hsome : (own.catalog.find? key).isSome := Option.isSome_of_eq_some hfind
    rw [hq, hq']
    exact ⟨rfl, Catalog.Over.update hover hsome _⟩

/-- The key that a successful request answers with is found from then on. -/
theorem find?_of_perform (h : r.Valid) (hok : (r.perform q).1 = .ok key) :
    ((r.perform q).2.find? key).isSome := by
  rcases perform_ok_cases h hok with
    ⟨name, fresh, layout, -, -, -, rfl, hq⟩ | ⟨conversion, e, -, hfind, hq⟩
  · rw [hq, find?_added, if_pos rfl]
    rfl
  · rw [hq, find?_converted, if_pos rfl, hfind]
    rfl

/-- **Requests on top of others.** What succeeds on `own` succeeds on top of any `base` that has
nothing under the keys that it comes to, and it comes to the same there. -/
theorem grants_over (hown : own.Valid) (hr : r.Valid) (hover : Over base own r)
    (hgrants : own.Grants requests)
    (hapart : ∀ key, ((own.performAll requests).find? key).isSome → base.find? key = none) :
    r.Grants requests ∧ Over base (own.performAll requests) (r.performAll requests) := by
  induction requests generalizing own r with
  | nil => exact ⟨trivial, hover⟩
  | cons q rest ih =>
    obtain ⟨⟨key, hok⟩, hrest⟩ := hgrants
    have hown' := valid_perform hown q
    have hfree : base.find? key = none := by
      obtain ⟨e, he⟩ := Option.isSome_iff_exists.mp (find?_of_perform hown hok)
      obtain ⟨c, hc⟩ := keeps_performAll hown' rest key e he
      exact hapart key (Option.isSome_of_eq_some hc)
    obtain ⟨hok', hover'⟩ := perform_over hown hr hover hok hfree
    obtain ⟨hgrants', hlast⟩ := ih hown' (valid_perform hr q) hover' hrest hapart
    exact ⟨⟨⟨key, hok'⟩, hgrants'⟩, hlast⟩

end Registry

/-! ## §3 What is standard -/

namespace Standard

/-- The names of the standard types, in the order in which they are registered. -/
def typeNames : List String := [
  "f64", "i64", "bool", "string", "v2d", "v3d", "m3d", "ray", "ray_cone", "color", "color_row",
  "color_image", "plane", "sphere", "squaroid", "torus"]

/-- The names of the standard builtins, in the order in which they are registered. -/
def builtinNames : List String := [
  "create_vec", "vecx", "vecy", "vecz", "create_color", "colr", "colg", "colb", "rotx", "roty",
  "rotz", "create_string_fa", "string_to_num", "sqrt", "sqr", "exp", "log", "to_deg", "to_rad",
  "sin", "cos", "tan", "sin_d", "cos_d", "tan_d", "asin", "acos", "atan", "pow", "ceiling",
  "floor", "file_exists", "file_touch", "file_delete", "file_rename", "create_object",
  "create_plane", "create_sphere", "create_squaroid", "create_cylinder", "create_torus",
  "create_hyperboloid1", "create_hyperboloid2", "create_ellipsoid", "create_cone",
  "create_image", "saturate", "get_time"]

/-- The standard types by themselves. -/
def types : Registry := ({} : Registry).performAll registrations

/-- The builtins that specifications describe. -/
def builtinsOf (specs : List Spec) : List Builtin :=
  specs.filterMap fun spec => spec.builtin.toOption

/-- The standard builtins. -/
def builtins : List Builtin := builtinsOf specs

theorem filterMap_name?_registrations :
    registrations.filterMap Registration.name? = typeNames := by
  decide

/-- Each specification declares the name that stands at its place. -/
theorem declares_builtinNames :
    List.Forall₂ (fun spec name => Declares spec.signature fun s => s.name = name)
      specs builtinNames := by
  unfold specs builtinNames
  repeat refine .cons (.of_chars rfl (by decide)) ?_
  exact .nil

theorem builtinsOf_spec {specs : List Spec} {names : List String}
    (h : List.Forall₂ (fun spec name => Declares spec.signature fun s => s.name = name)
      specs names) :
    Engine.Describe specs (builtinsOf specs) ∧
      (builtinsOf specs).map Builtin.name = names := by
  induction h with
  | nil => exact ⟨.nil, rfl⟩
  | @cons spec name specs names hdeclares _ ih =>
    obtain ⟨signature, hparse, hname⟩ := hdeclares
    have hb : spec.builtin = .ok ⟨signature, spec.entry⟩ := by
      simp only [Spec.builtin, Builtin.ofText, hparse]
    have hcons : builtinsOf (spec :: specs) = ⟨signature, spec.entry⟩ :: builtinsOf specs :=
      List.filterMap_cons_some (by rw [hb]; rfl)
    rw [hcons]
    refine ⟨.cons hb ih.1, ?_⟩
    rw [List.map_cons, ih.2, ← hname]
    rfl

theorem describe_builtins : Engine.Describe specs builtins :=
  (builtinsOf_spec declares_builtinNames).1

theorem eq_builtins {new : List Builtin} (h : Engine.Describe specs new) : new = builtins := by
  refine List.right_unique_forall₂' (fun spec b b' hb hb' => ?_) h describe_builtins
  rw [hb] at hb'
  exact Except.ok.inj hb'

theorem map_name_builtins : builtins.map Builtin.name = builtinNames :=
  (builtinsOf_spec declares_builtinNames).2

theorem name_mem_builtinNames {b : Builtin} (hb : b ∈ builtins) : b.name ∈ builtinNames := by
  rw [← map_name_builtins]
  exact List.mem_map_of_mem hb

theorem map_key_builtins : builtins.map Builtin.key = builtinNames.map Key.ofName := by
  rw [← map_name_builtins, List.map_map]
  rfl

theorem keys_nodup_builtins : (builtins.map Builtin.key).Nodup := by
  rw [map_key_builtins]
  decide

theorem disjoint_names : ∀ name ∈ builtinNames, name ∉ typeNames := by decide

end Standard

/-- On an empty registry what is standard can be registered. -/
theorem Standard.grants_registrations : ({} : Registry).Grants registrations := by
  have hok : (({} : Engine).registerTypes registrations).1.isOk = true := by decide
  rcases Engine.registerTypes_cases {} registrations with ⟨hgrants, -⟩ | ⟨-, e, done, -, hrun⟩
  · exact hgrants
  · rw [hrun] at hok
    cases hok

/-! ## §4 What stands in the way -/

namespace Standard

theorem valid_types : types.Valid := Registry.valid_performAll Registry.valid_empty registrations

theorem map_name_types : types.entries.map TypeEntry.name = typeNames := by
  have hnames := Registry.names_of_grants Registry.valid_empty grants_registrations
  rw [filterMap_name?_registrations] at hnames
  rw [types, hnames]
  rfl

theorem order_types : types.catalog.order = typeNames.map Key.ofName := by
  have horder := Registry.order_of_grants Registry.valid_empty grants_registrations
  rw [filterMap_name?_registrations] at horder
  rw [types, horder]
  rfl

end Standard

namespace Registry

variable {r : Registry}

/-- What is standard is registered on top of what is there if the keys are free. -/
theorem grants_standard (h : r.Valid)
    (hfree : ∀ name ∈ Standard.typeNames, r.find? (Key.ofName name) = none) :
    r.Grants Standard.registrations ∧
      Over r Standard.types (r.performAll Standard.registrations) := by
  refine grants_over valid_empty h (Catalog.over_empty r.catalog) Standard.grants_registrations ?_
  intro key hkey
  have hlisted : key ∈ Standard.types.catalog.order :=
    (Standard.valid_types.consistent.mem_order_iff key).mpr hkey
  rw [Standard.order_types] at hlisted
  obtain ⟨name, hname, rfl⟩ := List.mem_map.mp hlisted
  exact hfree name hname

end Registry

namespace Engine

variable {engine engine' : Engine} {new : List Builtin}

/-- Nothing stands in the way of `init1`. -/
structure Ready (engine : Engine) : Prop where
  /-- No type has the key of a standard type name. -/
  typeKeys : ∀ e ∈ engine.types.entries, ∀ name ∈ Standard.typeNames, e.key ≠ Key.ofName name
  /-- No type is named like a standard builtin. -/
  typeNames : ∀ e ∈ engine.types.entries, e.name ∉ Standard.builtinNames
  /-- No builtin has the key of a standard builtin name. -/
  builtinKeys : ∀ b ∈ engine.builtins.builtins, ∀ name ∈ Standard.builtinNames,
    b.key ≠ Key.ofName name

/-- Nothing stands in the way on an engine that knows nothing. -/
theorem ready_new (config : Config) : Ready { config := config } where
  typeKeys _ he := absurd he List.not_mem_nil
  typeNames _ he := absurd he List.not_mem_nil
  builtinKeys _ hb := absurd hb List.not_mem_nil

/-- What stands in the way stays there. -/
theorem Ready.of_extends (hready : engine'.Ready) (h : engine.Valid)
    (hext : engine.Extends engine' new) : engine.Ready := by
  constructor
  case typeKeys =>
    intro e he
    obtain ⟨e', he', hkey, -⟩ := hext.types.exists_mem h.types hext.valid.types he
    rw [← hkey]
    exact hready.typeKeys e' he'
  case typeNames =>
    intro e he
    obtain ⟨e', he', -, hname⟩ := hext.types.exists_mem h.types hext.valid.types he
    rw [← hname]
    exact hready.typeNames e' he'
  case builtinKeys =>
    intro b hb
    refine hready.builtinKeys b ?_
    rw [hext.builtins]
    exact List.mem_append_left _ hb

theorem Ready.free (hready : engine.Ready) (h : engine.Valid) :
    ∀ name ∈ Standard.typeNames, engine.types.find? (Key.ofName name) = none :=
  fun name hname => h.types.find?_eq_none_iff.mpr fun e he => hready.typeKeys e he name hname

theorem Ready.free_builtins (hready : engine.Ready) (h : engine.Valid) :
    ∀ b ∈ Standard.builtins, engine.builtins.find? b.key = none :=
  fun b hb => h.builtins.find?_eq_none_iff.mpr fun b' hb' =>
    hready.builtinKeys b' hb' b.name (Standard.name_mem_builtinNames hb)

/-- The standard types are not named like standard builtins. -/
theorem Ready.admits (hready : engine.Ready) (h : engine.Valid) :
    ∀ b ∈ Standard.builtins, (engine.grown Standard.registrations []).Admits b := by
  intro b hb
  have hname := Standard.name_mem_builtinNames hb
  constructor
  · have hgrants := (Registry.grants_standard h.types (hready.free h)).1
    have hnames := Registry.names_of_grants h.types hgrants
    have hvalid := Registry.valid_performAll h.types Standard.registrations
    rw [Standard.filterMap_name?_registrations] at hnames
    rw [types_grown]
    generalize engine.types.performAll Standard.registrations = types at hnames hvalid
    refine hvalid.contains_eq_false_iff.mpr fun e he heq => ?_
    have hmem : e.name ∈ types.entries.map TypeEntry.name := List.mem_map_of_mem he
    rw [hnames, heq] at hmem
    rcases List.mem_append.mp hmem with hmem | hmem
    · obtain ⟨e', he', hname'⟩ := List.mem_map.mp hmem
      exact hready.typeNames e' he' (hname' ▸ hname)
    · exact Standard.disjoint_names b.name hname hmem
  · rw [builtins_grown]
    exact hready.free_builtins h b hb

/-- Builtins with different keys can be added one after the other if each of them can be. -/
theorem admitsAll_of_admits (hkeys : (new.map Builtin.key).Nodup)
    (h : ∀ b ∈ new, engine.Admits b) : engine.AdmitsAll new := by
  induction new generalizing engine with
  | nil => trivial
  | cons b rest ih =>
    rw [List.forall_mem_cons] at h
    rw [List.map_cons, List.nodup_cons] at hkeys
    refine ⟨h.1, ih hkeys.2 fun b' hb' => ⟨(h.2 b' hb').1, ?_⟩⟩
    have hne : b.key ≠ b'.key := fun heq => hkeys.1 (heq ▸ List.mem_map_of_mem hb')
    have hfind : (engine.builtins.added b).find? b'.key = none := by
      rw [BuiltinTable.find?_added, if_neg hne]
      exact (h.2 b' hb').2
    exact hfind

/-- A builtin that can be added after others can be added before them as well. -/
theorem AdmitsAll.admits (hadmits : engine.AdmitsAll new) : ∀ b ∈ new, engine.Admits b := by
  induction new generalizing engine with
  | nil => exact fun b hb => absurd hb List.not_mem_nil
  | cons b rest ih =>
    refine List.forall_mem_cons.mpr ⟨hadmits.1, fun b' hb' => ?_⟩
    have hlater := ih hadmits.2 b' hb'
    have hfind : (engine.builtins.added b).find? b'.key = none := hlater.2
    rw [BuiltinTable.find?_added] at hfind
    split at hfind
    · cases hfind
    · exact ⟨hlater.1, hfind⟩

/-- What is standard can be registered if and only if nothing stands in its way. -/
theorem installs_iff_ready (h : engine.Valid) :
    engine.Installs Standard.builtins ↔ engine.Ready := by
  constructor
  · rintro ⟨hgrants, -, hall⟩
    have hfree := Registry.free_of_grants h.types hgrants
    have hkeeps := Registry.keeps_performAll h.types Standard.registrations
    have hvalid := Registry.valid_performAll h.types Standard.registrations
    have hadmits : ∀ name ∈ Standard.builtinNames,
        (engine.types.performAll Standard.registrations).contains name = false ∧
          engine.builtins.find? (Key.ofName name) = none := by
      intro name hname
      rw [← Standard.map_name_builtins] at hname
      obtain ⟨b, hb, rfl⟩ := List.mem_map.mp hname
      obtain ⟨htype, hkey⟩ := hall.admits b hb
      rw [types_grown] at htype
      rw [builtins_grown] at hkey
      exact ⟨htype, hkey⟩
    rw [Standard.filterMap_name?_registrations] at hfree
    generalize engine.types.performAll Standard.registrations = types at hkeeps hvalid hadmits
    constructor
    case typeKeys =>
      exact fun e he name hname => h.types.find?_eq_none_iff.mp (hfree name hname) e he
    case typeNames =>
      intro e he hname
      obtain ⟨e', he', -, hname'⟩ := hkeeps.exists_mem h.types hvalid he
      exact hvalid.contains_eq_false_iff.mp (hadmits e.name hname).1 e' he' hname'
    case builtinKeys =>
      exact fun b hb name hname => h.builtins.find?_eq_none_iff.mp (hadmits name hname).2 b hb
  · intro hready
    exact ⟨(Registry.grants_standard h.types (hready.free h)).1, Standard.describe_builtins,
      admitsAll_of_admits Standard.keys_nodup_builtins (hready.admits h)⟩

/-- The engine with everything standard, registered on top of what was there. -/
def equipped (engine : Engine) : Engine :=
  { engine.grown Standard.registrations Standard.builtins with initialized := true }

theorem install_of_ready (hready : engine.Ready) (h : engine.Valid) :
    engine.install = (.ok (), engine.equipped) := by
  rcases install_cases engine with ⟨new, hinstalls, hinstall⟩ | ⟨hnot, -⟩
  · rw [hinstall, Standard.eq_builtins hinstalls.2.1, equipped]
  · exact absurd ((installs_iff_ready h).mpr hready) (hnot Standard.builtins)

theorem ready_of_install (hok : engine.install.1 = .ok ()) (h : engine.Valid) :
    engine.Ready := by
  rcases install_cases engine with ⟨new, hinstalls, -⟩ | ⟨-, e, requests, new, -, -, -, -, hinstall⟩
  · rw [Standard.eq_builtins hinstalls.2.1] at hinstalls
    exact (installs_iff_ready h).mp hinstalls
  · rw [hinstall] at hok
    cases hok

/-! ## §5 Whether `init1` has succeeded -/

/-- Only an `install` that succeeds leaves a mark. -/
theorem initialized_install (engine : Engine) :
    engine.install.2.initialized = true ↔
      engine.install.1 = .ok () ∨ engine.initialized = true := by
  rcases install_cases engine with ⟨new, -, hinstall⟩ | ⟨-, e, requests, new, -, -, -, -, hinstall⟩
  · simp [hinstall]
  · simp [hinstall]

theorem signal_of_initialized (h : engine.initialized = true) (s : Signal) :
    engine.signal s = (.ok (), engine) := by
  rw [signal, if_neg]
  rintro ⟨-, hfalse⟩
  rw [h] at hfalse
  cases hfalse

theorem signal_init1 (h : engine.initialized = false) : engine.signal .init1 = engine.install := by
  rw [signal, if_pos ⟨rfl, h⟩]

/-- No setting keeps a fresh engine from taking what is standard. -/
theorem standard_eq (config : Config) :
    standard config = (.ok (), equipped { config := config }) := by
  rw [standard, signal_init1 rfl, install_of_ready (ready_new config) (sound_new config).valid]

/-- An engine is initialized by an `init1` that succeeds and by nothing else. -/
theorem initialized_after (h : engine.Valid) (event : Event) :
    (engine.after event).initialized = true ↔ engine.initialized = true ∨
      (event = .signal .init1 ∧ (engine.signal .init1).1 = .ok ()) := by
  cases event with
  | builtin b =>
    rcases registerBuiltin_cases h b with ⟨e, hb⟩ | ⟨engine', hb, -, hinit⟩
    · simp [after, hb]
    · simp [after, hb, hinit]
  | type request => simp [after, registerType]
  | signal s =>
    by_cases hinit : engine.initialized = true
    · simp [after, signal_of_initialized hinit, hinit]
    · rw [Bool.not_eq_true] at hinit
      by_cases hs : s = .init1
      · subst hs
        rw [after, signal_init1 hinit, initialized_install]
        simp [hinit]
      · have hnothing : engine.signal s = (.ok (), engine) := by
          rw [signal, if_neg fun hfirst => hs hfirst.1]
        simp [after, hnothing, hinit, hs]

/-- Whether an engine is initialized is a matter of its history: some `init1` has succeeded. -/
theorem initialized_run (h : engine.Valid) (events : List Event) :
    (engine.run events).initialized = true ↔ engine.initialized = true ∨
      ∃ front back, events = front ++ .signal .init1 :: back ∧
        ((engine.run front).signal .init1).1 = .ok () := by
  have hrun := run_iff_exists (P := fun engine => engine.initialized = true)
    (fun _ event hvalid => initialized_after hvalid event) h events
  refine hrun.trans (or_congr_right ⟨?_, ?_⟩)
  · rintro ⟨front, _, back, hevents, rfl, hok⟩
    exact ⟨front, back, hevents, hok⟩
  · rintro ⟨front, back, hevents, hok⟩
    exact ⟨front, _, back, hevents, rfl, hok⟩

/-- A fresh engine takes `init1`. -/
theorem initialized_run_init1 : (run {} [.signal .init1]).initialized = true := by
  have hvalid := (sound_new {}).valid
  rw [initialized_run hvalid]
  refine .inr ⟨[], [], rfl, ?_⟩
  rw [signal_init1 rfl]
  exact congrArg Prod.fst (install_of_ready (ready_new {}) hvalid)

/-! ## §6 The first success and the first failure -/

/-- From `engine` to `engine'` everything standard was added and nothing else, and no signal will
ever do anything again. -/
structure Started (engine engine' : Engine) : Prop where
  typeOrder : engine'.types.catalog.order =
    engine.types.catalog.order ++ Standard.typeNames.map Key.ofName
  /-- What is standard is as it would be without the types that were there before. -/
  types : engine'.types.entries = engine.types.entries ++ Standard.types.entries
  builtinOrder : engine'.builtins.catalog.order =
    engine.builtins.catalog.order ++ Standard.builtinNames.map Key.ofName
  builtins : engine'.builtins.builtins = engine.builtins.builtins ++ Standard.builtins
  config : engine'.config = engine.config
  initialized : engine'.initialized = true
  /-- Whatever happens later, signals succeed and change nothing. -/
  silent : ∀ later s, (engine'.run later).signal s = (.ok (), engine'.run later)

/-- Whatever happens later, the engine is not initialized, and `init1` fails. -/
def Barred (engine : Engine) : Prop :=
  ∀ later, (engine.run later).initialized = false ∧
    ((engine.run later).signal .init1).1 ≠ .ok ()

theorem started_equipped (hready : engine.Ready) (h : engine.Valid) :
    Started engine engine.equipped := by
  have hover := (Registry.grants_standard h.types (hready.free h)).2
  have hall := ((installs_iff_ready h).mpr hready).2.2
  have htypes := (extends_grown h hall).valid.types
  have hext := (extends_grown h hall).marked
  rw [types_grown] at htypes
  constructor
  case typeOrder =>
    rw [← Standard.order_types, equipped, types_grown]
    exact hover.order
  case types =>
    rw [equipped, types_grown]
    exact Catalog.Over.items hover Standard.valid_types.consistent htypes.consistent
  case builtinOrder =>
    have hkeys := congrArg (List.map Builtin.key) hext.builtins
    rw [List.map_append, h.builtins.map_key_builtins, Standard.map_key_builtins] at hkeys
    rw [← hkeys, equipped]
    exact hext.valid.builtins.map_key_builtins.symm
  case builtins => exact hext.builtins
  case config => simp only [equipped, config_grown]
  case initialized => simp only [equipped]
  case silent =>
    intro later s
    exact signal_of_initialized ((initialized_run hext.valid later).mpr (.inl rfl)) s

theorem barred_of_not_ready (hnot : ¬ engine.Ready) (h : engine.Valid)
    (hinit : engine.initialized = false) : Barred engine := by
  intro later
  induction later generalizing engine with
  | nil =>
    refine ⟨hinit, fun hok => hnot (ready_of_install ?_ h)⟩
    rw [← signal_init1 hinit]
    exact hok
  | cons event rest ih =>
    obtain ⟨new, hext, -⟩ := extends_after h event
    refine ih (fun hready => hnot (hready.of_extends h hext)) hext.valid ?_
    rw [← Bool.not_eq_true, initialized_after h event]
    rintro (htrue | ⟨rfl, hok⟩)
    · rw [hinit] at htrue
      cases htrue
    · rw [signal_init1 hinit] at hok
      exact hnot (ready_of_install hok h)

/-- What becomes of `init1` on an engine on which it has not succeeded yet. -/
structure Settles (engine : Engine) : Prop where
  succeeds_iff : (engine.signal .init1).1 = .ok () ↔ engine.Ready
  success : (engine.signal .init1).1 = .ok () → Started engine (engine.signal .init1).2
  failure : (engine.signal .init1).1 ≠ .ok () → Barred (engine.signal .init1).2

theorem settles_of_uninitialized (h : engine.Valid) (hinit : engine.initialized = false) :
    Settles engine := by
  have hiff : engine.install.1 = .ok () ↔ engine.Ready := by
    refine ⟨fun hok => ready_of_install hok h, fun hready => ?_⟩
    rw [install_of_ready hready h]
  constructor
  case succeeds_iff =>
    rw [signal_init1 hinit]
    exact hiff
  case success =>
    rw [signal_init1 hinit]
    intro hok
    have hready := hiff.mp hok
    rw [install_of_ready hready h]
    exact started_equipped hready h
  case failure =>
    rw [signal_init1 hinit]
    intro hfails
    have hnot : ¬ engine.Ready := fun hready => hfails (hiff.mpr hready)
    obtain ⟨new, hext, -⟩ := install_spec h
    refine barred_of_not_ready (fun hready => hnot (hready.of_extends h hext)) hext.valid ?_
    rw [← Bool.not_eq_true, initialized_install, hinit]
    rintro (hok | hfalse)
    · exact hfails hok
    · cases hfalse

/-- **Initialization.** As long as no `init1` has succeeded, whatever a host has registered, the
next one succeeds if and only if nothing stands in its way. If it does, what is standard comes
after what was there, and signals do nothing any more; if it does not, no `init1` ever will. -/
theorem init1_settles (config : Config) (events : List Event)
    (hnone : ∀ front back, events = front ++ .signal .init1 :: back →
      ((run { config := config } front).signal .init1).1 ≠ .ok ()) :
    Settles (run { config := config } events) := by
  have hsound := sound_run config events
  have hinit : (run { config := config } events).initialized = false := by
    rw [← Bool.not_eq_true, initialized_run (sound_new config).valid]
    rintro (hfalse | ⟨front, back, hevents, hok⟩)
    · cases hfalse
    · exact hnone front back hevents hok
  exact settles_of_uninitialized hsound.valid hinit

/-- A host that has a type of its own. -/
theorem init1_settles_sprite :
    (∀ front back, [Event.type (.plain "sprite" .number)] = front ++ .signal .init1 :: back →
      ((run {} front).signal .init1).1 ≠ .ok ()) ∧
    (run {} [.type (.plain "sprite" .number)]).Ready ∧
    Started (run {} [.type (.plain "sprite" .number)])
      ((run {} [.type (.plain "sprite" .number)]).signal .init1).2 := by
  have hnone : ∀ front back,
      [Event.type (.plain "sprite" .number)] = front ++ .signal .init1 :: back →
      ((run {} front).signal .init1).1 ≠ .ok () := by
    intro front back hevents
    have hmem : Event.signal .init1 ∈ [Event.type (.plain "sprite" .number)] := by
      rw [hevents]
      exact List.mem_append_right _ List.mem_cons_self
    simp at hmem
  have hready : (run {} [.type (.plain "sprite" .number)]).Ready :=
    ⟨by decide +kernel, by decide +kernel, by decide +kernel⟩
  have hsettles := init1_settles {} [.type (.plain "sprite" .number)] hnone
  exact ⟨hnone, hready, hsettles.success (hsettles.succeeds_iff.mpr hready)⟩

end Engine

end SceneScript
