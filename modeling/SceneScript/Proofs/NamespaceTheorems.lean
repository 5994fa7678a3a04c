/-
SceneScript.Proofs.NamespaceTheorems — names that a type and a builtin have at once.

Types and builtins share one space of names as far as builtins are concerned: none
is added under the name of a type, neither by a host nor by a stage. Types, on the
other hand, are added without a look at the builtins. `after_eq_grown` says both of
any event, and where the types come from: a request of the host, or `init1`.

So there is one way for a name to be shared (`Shares`): a builtin has it when a type
of that name comes (`Overlays`). `shares_run_iff` says this of any engine that began
empty. It happens on both ways: a request for a type is granted under the name of a
builtin (`shares_of_request`), and `init1` succeeds although a builtin has the name
of a standard type (`shares_of_ready`).
-/
import SceneScript.Proofs.InstallTheorems

namespace SceneScript

/-! ## §1 What is contained -/

namespace Registry

variable {r : Registry} {requests : List Registration} {name : String} {key : Key}

/-- What requests add bears the names that they ask for. -/
theorem exists_of_mem_successes (h : (name, key) ∈ r.successes requests) :
    ∃ q ∈ requests, q.name? = some name := by
  induction requests generalizing r with
  | nil => cases h
  | cons q rest ih =>
    rw [successes] at h
    rcases List.mem_append.mp h with h | h
    · split at h
      · next name' key' hname _ =>
        obtain ⟨rfl, rfl⟩ := Prod.mk.inj (List.mem_singleton.mp h)
        exact ⟨q, List.mem_cons_self, hname⟩
      · cases h
    · obtain ⟨q', hq', hname⟩ := ih h
      exact ⟨q', List.mem_cons_of_mem _ hq', hname⟩

/-- A type that is there after requests was there before, or one of them asks for its name. -/
theorem contains_performAll (h : r.Valid)
    (hcontains : (r.performAll requests).contains name = true) :
    r.contains name = true ∨ ∃ q ∈ requests, q.name? = some name := by
  obtain ⟨e, he, hname⟩ := (valid_performAll h requests).contains_iff.mp hcontains
  have hpair : (e.name, e.key) ∈ (r.performAll requests).entries.map fun e => (e.name, e.key) :=
    List.mem_map_of_mem he
  rw [entries_performAll h, List.mem_append] at hpair
  rcases hpair with hold | hnew
  · obtain ⟨e', he', heq⟩ := List.mem_map.mp hold
    exact .inl (h.contains_iff.mpr ⟨e', he', (congrArg Prod.fst heq).trans hname⟩)
  · rw [hname] at hnew
    exact .inr (exists_of_mem_successes hnew)

end Registry

namespace BuiltinTable

variable {t : BuiltinTable} {new : List Builtin} {name : String}

theorem contains_added {b : Builtin} (h : (t.added b).contains name = true) :
    t.contains name = true ∨ b.name = name := by
  unfold contains get? at h
  rw [find?_added] at h
  split at h
  · obtain ⟨b', hb'⟩ := Option.isSome_iff_exists.mp h
    obtain ⟨hsome, hname⟩ := Option.filter_eq_some_iff.mp hb'
    obtain rfl := Option.some.inj hsome
    exact .inr (beq_iff_eq.mp hname)
  · exact .inl h

/-- A builtin that is there after some were added was there before, or it is one of them. -/
theorem contains_addedAll (h : (t.addedAll new).contains name = true) :
    t.contains name = true ∨ ∃ b ∈ new, b.name = name := by
  induction new generalizing t with
  | nil => exact .inl h
  | cons b rest ih =>
    rcases ih h with h | ⟨b', hb', hname⟩
    · rcases contains_added h with h | hname
      · exact .inl h
      · exact .inr ⟨b, List.mem_cons_self, hname⟩
    · exact .inr ⟨b', List.mem_cons_of_mem _ hb', hname⟩

end BuiltinTable

namespace Engine

variable {engine engine' : Engine} {event : Event} {name : String} {new : List Builtin}

/-! ## §2 What events add -/

/-- Whatever happens, requests are answered, and then builtins are added. The requests are those of
the host, or they are for what is standard. -/
theorem after_eq_grown (engine : Engine) (event : Event) : ∃ requests new initialized,
    engine.after event = { engine.grown requests new with initialized := initialized } ∧
    (engine.grown requests []).AdmitsAll new ∧
    ∀ q ∈ requests, event = .type q ∨ (event = .signal .init1 ∧ q ∈ Standard.registrations) := by
  have hnone : ∀ q ∈ ([] : List Registration),
      event = .type q ∨ (event = .signal .init1 ∧ q ∈ Standard.registrations) :=
    fun q hq => absurd hq List.not_mem_nil
  cases event with
  | type q =>
    refine ⟨[q], [], engine.initialized, rfl, trivial, fun q' hq' => .inl ?_⟩
    rw [List.mem_singleton.mp hq']
  | builtin b =>
    by_cases hadmits : engine.Admits b
    · refine ⟨[], [b], engine.initialized, ?_, ⟨hadmits, trivial⟩, hnone⟩
      rw [after, registerBuiltin_of_admits hadmits]
      rfl
    · obtain ⟨e, hb⟩ := registerBuiltin_of_not_admits hadmits
      refine ⟨[], [], engine.initialized, ?_, trivial, hnone⟩
      rw [after, hb]
      rfl
  | signal s =>
    by_cases hfirst : s = .init1 ∧ engine.initialized = false
    · have hsignal : engine.after (.signal s) = engine.install.2 := by
        rw [after, signal, if_pos hfirst]
      rw [hsignal, hfirst.1]
      rcases install_cases engine with ⟨new, ⟨-, -, hall⟩, hinstall⟩ |
        ⟨-, e, requests, new, hfront, -, hall, -, hinstall⟩
      · exact ⟨_, new, true, by rw [hinstall], hall, fun q hq => .inr ⟨rfl, hq⟩⟩
      · exact ⟨requests, new, engine.initialized, by rw [hinstall]; rfl, hall,
          fun q hq => .inr ⟨rfl, hfront.subset hq⟩⟩
    · refine ⟨[], [], engine.initialized, ?_, trivial, hnone⟩
      rw [after, signal, if_neg hfirst]
      rfl

/-! ## §3 Shared names -/

/-- A type and a builtin have the name at once. -/
structure Shares (engine : Engine) (name : String) : Prop where
  type : engine.types.contains name = true
  builtin : engine.builtins.contains name = true

/-- The event adds a type under the name of a builtin, at the request of the host or because the
type is standard. -/
structure Overlays (engine : Engine) (event : Event) (name : String) : Prop where
  builtin : engine.builtins.contains name = true
  free : engine.types.contains name = false
  type : (engine.after event).types.contains name = true
  cause : (∃ q, event = .type q ∧ q.name? = some name) ∨
    (event = .signal .init1 ∧ name ∈ Standard.typeNames)

theorem Extends.contains_type (hext : engine.Extends engine' new) (h : engine.Valid)
    (htype : engine.types.contains name = true) : engine'.types.contains name = true :=
  hext.types.contains h.types hext.valid.types htype

theorem Extends.contains_builtin (hext : engine.Extends engine' new) (h : engine.Valid)
    (hbuiltin : engine.builtins.contains name = true) :
    engine'.builtins.contains name = true := by
  obtain ⟨b, hb, hname⟩ := h.builtins.contains_iff.mp hbuiltin
  refine hext.valid.builtins.contains_iff.mpr ⟨b, ?_, hname⟩
  rw [hext.builtins]
  exact List.mem_append_left _ hb

/-- Names come to be shared in one way only. -/
theorem shares_after (h : engine.Valid) (event : Event) :
    (engine.after event).Shares name ↔ engine.Shares name ∨ engine.Overlays event name := by
  obtain ⟨requests, new, initialized, hafter, hadmits, hrequests⟩ := after_eq_grown engine event
  have htypes : (engine.after event).types = engine.types.performAll requests := by rw [hafter]; rfl
  have hbuiltins : (engine.after event).builtins = engine.builtins.addedAll new := by
    rw [hafter]
    rfl
  constructor
  · rintro ⟨htype, hbuiltin⟩
    rw [htypes] at htype
    rw [hbuiltins] at hbuiltin
    have hold : engine.builtins.contains name = true := by
      rcases BuiltinTable.contains_addedAll hbuiltin with hold | ⟨b, hb, rfl⟩
      · exact hold
      · have hfree := hadmits.unnamed b hb
        rw [types_grown, htype] at hfree
        cases hfree
    by_cases hfree : engine.types.contains name = true
    · exact .inl ⟨hfree, hold⟩
    · refine .inr ⟨hold, Bool.not_eq_true _ ▸ hfree, htypes ▸ htype, ?_⟩
      obtain ⟨q, hq, hname⟩ := (Registry.contains_performAll h.types htype).resolve_left hfree
      rcases hrequests q hq with rfl | ⟨hinit1, hstandard⟩
      · exact .inl ⟨q, rfl, hname⟩
      · refine .inr ⟨hinit1, ?_⟩
        rw [← Standard.filterMap_name?_registrations]
        exact List.mem_filterMap.mpr ⟨q, hstandard, hname⟩
  · obtain ⟨new, hext, -⟩ := extends_after h event
    rintro (hshares | hoverlays)
    · exact ⟨hext.contains_type h hshares.type, hext.contains_builtin h hshares.builtin⟩
    · exact ⟨hoverlays.type, hext.contains_builtin h hoverlays.builtin⟩

/-- Builtins do not stand in the way of a type that a host asks for. -/
theorem shares_of_request {q : Registration} {fresh : Payload} {layout : Layout}
    (h : engine.Valid) (hbuiltin : engine.builtins.contains name = true)
    (hdesc : engine.types.Describes q name fresh layout) (hfits : q.Fits layout)
    (hfree : engine.types.find? (Key.ofName name) = none) :
    (engine.after (.type q)).Shares name := by
  obtain ⟨new, hext, -⟩ := extends_after h (.type q)
  refine ⟨?_, hext.contains_builtin h hbuiltin⟩
  rcases Registry.perform_of_free h.types hdesc hfree with ⟨-, hq⟩ | ⟨hunfit, -⟩
  · have htypes : (engine.after (.type q)).types = engine.types.added name fresh layout :=
      congrArg Prod.snd hq
    rw [htypes, (h.types.added hfree).contains_iff, h.types.entries_added hfree]
    exact ⟨.new name fresh layout, by simp, rfl⟩
  · exact absurd hfits hunfit

/-- `init1` does not look at builtins when it adds types: if a builtin has the name of a standard
type, it succeeds nevertheless. -/
theorem shares_of_ready (hready : engine.Ready) (h : engine.Valid)
    (hinit : engine.initialized = false) (hname : name ∈ Standard.typeNames)
    (hbuiltin : engine.builtins.contains name = true) :
    (engine.signal .init1).1 = .ok () ∧ (engine.after (.signal .init1)).Shares name := by
  have hok := (settles_of_uninitialized h hinit).succeeds_iff.mpr hready
  obtain ⟨new, hext, -⟩ := extends_after h (.signal .init1)
  refine ⟨hok, ?_, hext.contains_builtin h hbuiltin⟩
  have hstarted := (settles_of_uninitialized h hinit).success hok
  rw [← Standard.map_name_types] at hname
  obtain ⟨e, he, hname⟩ := List.mem_map.mp hname
  refine hext.valid.types.contains_iff.mpr ⟨e, ?_, hname⟩
  rw [after, hstarted.types]
  exact List.mem_append_right _ he

theorem not_shares_new (config : Config) : ¬ Shares { config := config } name := by
  intro hshares
  obtain ⟨b, hb, -⟩ := (sound_new config).valid.builtins.contains_iff.mp hshares.builtin
  exact absurd hb List.not_mem_nil

/-- **Shared names.** On an engine that began empty, a type and a builtin have one name at once if
and only if there was a time when a builtin had it, no type did, and a type of that name was added,
by the host or as a standard one. -/
theorem shares_run_iff (config : Config) (events : List Event) (name : String) :
    (run { config := config } events).Shares name ↔
      ∃ front event back, events = front ++ event :: back ∧
        (run { config := config } front).Overlays event name := by
  have hrun := run_iff_exists (P := fun engine => engine.Shares name)
    (fun _ event hvalid => shares_after hvalid event) (sound_new config).valid events
  exact hrun.trans (or_iff_right (not_shares_new config))

/-- A builtin and after it a type of its name. -/
theorem shares_tick : (run {} [
    .builtin ⟨⟨some "num", "tick", []⟩,
      fun _ _ args => return .payload (.integer (Int64.ofNat args.size))⟩,
    .type (.plain "tick" .number)]).Shares "tick" := by
  refine shares_of_request (sound_run {} [.builtin _]).valid ?_ .plain trivial ?_
  · decide +kernel
  · decide +kernel

end Engine

end SceneScript
