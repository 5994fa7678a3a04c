/-
SceneScript.Proofs.TableTheorems — which builtins a table has, and under which names.

A table only ever grows. Registering a builtin adds it as the last one if its key
is free, and does nothing otherwise (`Valid.register_cases`), so that after any
registrations, granted or refused, the table lists exactly the builtins that were
admitted, in the order in which they were (`Lists`), and each is found under its
own key and name. What is there keeps its place for good; a name that merely has
the key of another is not found and cannot be registered (`Guarded`).

On an engine the names of types are out of bounds as well, and builtins come with a
stage as well as from the host. `builtins_after` says what one event adds, and
`builtins_run` what a whole run does.
-/
import SceneScript.Proofs.EngineTheorems

namespace SceneScript

/-! ## §1 One table -/

namespace BuiltinTable

variable {t : BuiltinTable} {b : Builtin} {bs : List Builtin} {name : String}

/-- The table after builtins have been registered one after the other, whether or not they were
refused. -/
def registerAll (t : BuiltinTable) (bs : List Builtin) : BuiltinTable :=
  bs.foldl (fun t b => (t.register b).2) t

/-- Those of the builtins whose registration succeeds, the first to succeed first. -/
def admitted (t : BuiltinTable) : List Builtin → List Builtin
  | [] => []
  | b :: rest =>
    match t.register b with
    | (.ok _, t) => b :: t.admitted rest
    | (.error _, t) => t.admitted rest

/-- The builtins of the table are these: in this order, each under the key of its name, and found
under its name. -/
structure Lists (t : BuiltinTable) (bs : List Builtin) : Prop where
  nodup : t.catalog.order.Nodup
  order : t.catalog.order = bs.map Builtin.key
  builtins : t.builtins = bs
  size : t.size = bs.length
  stored : ∀ key b, t.find? key = some b ↔ b ∈ bs ∧ Key.ofName b.name = key
  found : ∀ name b, t.get? name = some b ↔ b ∈ bs ∧ b.name = name
  absent : ∀ name, t.get? name = none ↔ ∀ b ∈ bs, b.name ≠ name

/-- The table answers to registrations as it should, now and after whatever is registered later: it
refuses what has a taken key and is then the same as before, it never loses or replaces a builtin,
and it neither finds nor takes a name that has the key of another. -/
structure Guarded (t : BuiltinTable) : Prop where
  granted : ∀ b, (∀ b' ∈ t.builtins, b'.key ≠ b.key) →
    (t.register b).1 = .ok () ∧ (t.register b).2.builtins = t.builtins ++ [b]
  refused : ∀ b, (∃ b' ∈ t.builtins, b'.key = b.key) →
    t.register b = (.error (.duplicateBuiltin b.name), t)
  kept : ∀ later key b, t.find? key = some b → (t.registerAll later).find? key = some b
  collides : ∀ later, ∀ b ∈ t.builtins, ∀ name, name ≠ b.name → Key.ofName name = b.key →
    (t.registerAll later).get? name = none ∧ ∀ b', b'.name = name →
      (t.registerAll later).register b' = (.error (.duplicateBuiltin name), t.registerAll later)

theorem register_of_free (hfree : t.find? b.key = none) : t.register b = (.ok (), t.added b) := by
  rw [register, hfree]
  rfl

theorem register_of_taken (htaken : t.find? b.key ≠ none) :
    t.register b = (.error (.duplicateBuiltin b.name), t) := by
  obtain ⟨existing, hexisting⟩ := Option.ne_none_iff_exists'.mp htaken
  rw [register, hexisting]

/-- A key is taken if and only if a builtin has it. -/
theorem Valid.find?_ne_none_iff (h : t.Valid) {key : Key} :
    t.find? key ≠ none ↔ ∃ b ∈ t.builtins, b.key = key := by
  rw [Ne, h.find?_eq_none_iff]
  simp

/-- A builtin is added as the last one, or the table stays as it is. -/
theorem Valid.register_cases (h : t.Valid) (b : Builtin) :
    (t.register b = (.ok (), t.added b) ∧ (t.added b).Valid ∧
      (t.added b).builtins = t.builtins ++ [b] ∧
      ∀ key existing, t.find? key = some existing → (t.added b).find? key = some existing) ∨
    t.register b = (.error (.duplicateBuiltin b.name), t) := by
  by_cases hfree : t.find? b.key = none
  · refine .inl ⟨register_of_free hfree, h.added hfree, h.builtins_added hfree, ?_⟩
    intro key existing hexisting
    rw [find?_added, if_neg, hexisting]
    rintro rfl
    rw [hfree] at hexisting
    cases hexisting
  · exact .inr (register_of_taken hfree)

/-- The books determine each other: which builtins there are says everything about a table. -/
theorem Valid.lists (h : t.Valid) (hbuiltins : t.builtins = bs) : t.Lists bs := by
  subst hbuiltins
  refine ⟨h.consistent.nodup, h.map_key_builtins.symm, rfl, ?_, fun key b => ?_,
    fun name b => h.get?_iff, fun name => ?_⟩
  · rw [size, h.consistent.size_eq_length, ← h.map_key_builtins, List.length_map]
  · exact h.keyed.find?_iff_mem h.consistent
  · rw [Option.eq_none_iff_forall_ne_some]
    simp only [ne_eq, h.get?_iff, not_and]

theorem registerAll_cons (t : BuiltinTable) (b : Builtin) (rest : List Builtin) :
    t.registerAll (b :: rest) = (t.register b).2.registerAll rest := rfl

/-- Registrations leave the books in order, add what they admit, and leave everything that was
stored where it was. -/
theorem Valid.registerAll (h : t.Valid) (bs : List Builtin) :
    (t.registerAll bs).Valid ∧ (t.registerAll bs).builtins = t.builtins ++ t.admitted bs ∧
      ∀ key b, t.find? key = some b → (t.registerAll bs).find? key = some b := by
  induction bs generalizing t with
  | nil => exact ⟨h, (List.append_nil _).symm, fun _ _ hb => hb⟩
  | cons b rest ih =>
    rw [registerAll_cons, admitted]
    rcases h.register_cases b with ⟨hb, hvalid, hbuiltins, hkept⟩ | hb
    · obtain ⟨hvalid', hbuiltins', hkept'⟩ := ih hvalid
      rw [hb]
      refine ⟨hvalid', ?_, fun key b hb => hkept' key b (hkept key b hb)⟩
      rw [hbuiltins', hbuiltins, List.append_assoc]
      rfl
    · rw [hb]
      exact ih h

/-- A name that has the key of a builtin but is not its name is not found, and cannot be
registered. -/
theorem not_found_of_collides (hb : t.find? b.key = some b)
    (hname : name ≠ b.name) (hkey : Key.ofName name = b.key) :
    t.get? name = none ∧ ∀ b', b'.name = name →
      t.register b' = (.error (.duplicateBuiltin name), t) := by
  constructor
  · rw [get?, hkey, hb]
    simpa using Ne.symm hname
  · rintro b' rfl
    refine register_of_taken ?_
    rw [Builtin.key, hkey, hb]
    exact Option.some_ne_none b

/-- A table whose books are in order is guarded. -/
theorem Valid.guarded (h : t.Valid) : t.Guarded := by
  refine ⟨fun b hfree => ?_, fun b htaken => ?_, fun later => (h.registerAll later).2.2,
    fun later b hb name hname hkey => ?_⟩
  · rw [register_of_free (h.find?_eq_none_iff.mpr hfree)]
    exact ⟨rfl, h.builtins_added (h.find?_eq_none_iff.mpr hfree)⟩
  · exact register_of_taken (h.find?_ne_none_iff.mpr htaken)
  · obtain ⟨hvalid, -, hkept⟩ := h.registerAll later
    have hfound : t.find? b.key = some b := (h.keyed.find?_iff_mem h.consistent).mpr ⟨hb, rfl⟩
    exact not_found_of_collides (hkept _ _ hfound) hname hkey

end BuiltinTable

/-! ## §2 Engines -/

namespace Engine

variable {engine : Engine} {b : Builtin}

/-- The builtins that registering specifications in a row adds. -/
def admittedSpecs (engine : Engine) : List Standard.Spec → List Builtin
  | [] => []
  | spec :: rest =>
    match spec.builtin with
    | .error _ => []
    | .ok b =>
      match engine.registerBuiltin b with
      | (.ok _, engine) => b :: engine.admittedSpecs rest
      | (.error _, _) => []

/-- The standard builtins that `init1` adds, if the types let it come to that. -/
def admittedStandard (engine : Engine) : List Builtin :=
  match engine.registerTypes Standard.registrations with
  | (.error _, _) => []
  | (.ok _, engine) => engine.admittedSpecs Standard.specs

/-- The builtins whose registration succeeds in the course of an event. -/
def admittedBy (engine : Engine) : Event → List Builtin
  | .signal s => if s = .init1 ∧ engine.initialized = false then engine.admittedStandard else []
  | .builtin b =>
    match engine.registerBuiltin b with
    | (.ok _, _) => [b]
    | (.error _, _) => []
  | .type _ => []

/-- The builtins whose registration succeeds in the course of events, the first to succeed
first. -/
def admitted (engine : Engine) : List Event → List Builtin
  | [] => []
  | event :: rest => engine.admittedBy event ++ (engine.after event).admitted rest

/-- The engine answers to registrations of builtins as it should, now and after whatever happens
later. The names of types are refused with the same error as taken keys, and a refusal leaves the
whole engine as it was. -/
structure Guarded (engine : Engine) : Prop where
  granted : ∀ b, engine.types.contains b.name = false →
    (∀ b' ∈ engine.builtins.builtins, b'.key ≠ b.key) →
    ∃ table, engine.registerBuiltin b = (.ok (), { engine with builtins := table }) ∧
      table.builtins = engine.builtins.builtins ++ [b]
  refused_type : ∀ b, engine.types.contains b.name = true →
    engine.registerBuiltin b = (.error (.duplicateBuiltin b.name), engine)
  refused_key : ∀ b, (∃ b' ∈ engine.builtins.builtins, b'.key = b.key) →
    engine.registerBuiltin b = (.error (.duplicateBuiltin b.name), engine)
  kept : ∀ later key b, engine.builtins.find? key = some b →
    (engine.run later).builtins.find? key = some b
  collides : ∀ later, ∀ b ∈ engine.builtins.builtins, ∀ name, name ≠ b.name →
    Key.ofName name = b.key →
    (engine.run later).builtins.get? name = none ∧ ∀ b', b'.name = name →
      (engine.run later).registerBuiltin b' = (.error (.duplicateBuiltin name), engine.run later)

theorem registerBuiltin_of_type (htype : engine.types.contains b.name = true) :
    engine.registerBuiltin b = (.error (.duplicateBuiltin b.name), engine) := by
  rw [registerBuiltin, if_pos htype]

/-- What the table refuses the engine refuses, if it has not refused it already. -/
theorem registerBuiltin_of_refused
    (hrefused : engine.builtins.register b =
      (.error (.duplicateBuiltin b.name), engine.builtins)) :
    engine.registerBuiltin b = (.error (.duplicateBuiltin b.name), engine) := by
  rw [registerBuiltin, hrefused]
  split <;> rfl

theorem builtins_registerSpecs (h : engine.Valid) (specs : List Standard.Spec) :
    (engine.registerSpecs specs).2.builtins.builtins =
      engine.builtins.builtins ++ engine.admittedSpecs specs := by
  induction specs generalizing engine with
  | nil => exact (List.append_nil _).symm
  | cons spec rest ih =>
    cases hspec : spec.builtin with
    | error e =>
      simp only [registerSpecs, admittedSpecs, hspec, List.append_nil]
    | ok b =>
      rcases registerBuiltin_cases h b with ⟨e, hb⟩ | ⟨engine', hb, hext, -⟩
      · simp only [registerSpecs, admittedSpecs, hspec, hb, List.append_nil]
      · simp only [registerSpecs, admittedSpecs, hspec, hb]
        rw [ih hext.valid, hext.builtins, List.append_assoc]
        rfl

theorem builtins_install (h : engine.Valid) : engine.install.2.builtins.builtins =
    engine.builtins.builtins ++ engine.admittedStandard := by
  unfold install admittedStandard
  generalize Standard.specs = specs
  rcases registerTypes_cases engine Standard.registrations with
    ⟨-, htypes⟩ | ⟨-, e, done, -, htypes⟩
  · have hext := extends_performAll h Standard.registrations
    have hspecs := builtins_registerSpecs hext.valid specs
    rw [hext.builtins, List.append_nil] at hspecs
    simp only [htypes]
    split <;> simp_all only
  · simp only [htypes, List.append_nil]
    rfl

/-- An event adds what it admits, after what is there. -/
theorem builtins_after (h : engine.Valid) (event : Event) :
    (engine.after event).builtins.builtins =
      engine.builtins.builtins ++ engine.admittedBy event := by
  cases event with
  | signal s =>
    rw [after, signal, admittedBy]
    split
    · exact builtins_install h
    · exact (List.append_nil _).symm
  | builtin b =>
    rw [after, admittedBy]
    rcases registerBuiltin_cases h b with ⟨e, hb⟩ | ⟨engine', hb, hext, -⟩
    · rw [hb]
      exact (List.append_nil _).symm
    · rw [hb]
      exact hext.builtins
  | type request => exact (List.append_nil _).symm

/-- So does a run. -/
theorem builtins_run (h : engine.Valid) (events : List Event) :
    (engine.run events).builtins.builtins =
      engine.builtins.builtins ++ engine.admitted events := by
  induction events generalizing engine with
  | nil => exact (List.append_nil _).symm
  | cons event rest ih =>
    rw [run_cons, ih (h.after event), builtins_after h event, List.append_assoc]
    rfl

/-- What is found under a key stays there when builtins are added. -/
theorem Extends.find? {engine' : Engine} {new : List Builtin} {key : Key}
    (hext : engine.Extends engine' new) (h : engine.Valid)
    (hb : engine.builtins.find? key = some b) : engine'.builtins.find? key = some b := by
  obtain ⟨hmem, hkey⟩ := (h.builtins.keyed.find?_iff_mem h.builtins.consistent).mp hb
  refine (hext.valid.builtins.keyed.find?_iff_mem hext.valid.builtins.consistent).mpr ⟨?_, hkey⟩
  have hmem' : b ∈ engine'.builtins.builtins := by
    rw [hext.builtins]
    exact List.mem_append_left _ hmem
  exact hmem'

theorem Valid.guarded (h : engine.Valid) : engine.Guarded := by
  have htable := h.builtins.guarded
  have hkept : ∀ later key b, engine.builtins.find? key = some b →
      (engine.run later).builtins.find? key = some b := by
    intro later key b hb
    obtain ⟨new, hext, -⟩ := extends_run h later
    exact hext.find? h hb
  refine ⟨fun b htype hfree => ?_, fun b htype => registerBuiltin_of_type htype,
    fun b htaken => registerBuiltin_of_refused (htable.refused b htaken), hkept,
    fun later b hb name hname hkey => ?_⟩
  · have hadmits : engine.Admits b := ⟨htype, h.builtins.find?_eq_none_iff.mpr hfree⟩
    exact ⟨_, registerBuiltin_of_admits hadmits, h.builtins.builtins_added hadmits.2⟩
  · obtain ⟨new, hext, -⟩ := extends_run h later
    have hfound : engine.builtins.find? b.key = some b :=
      (h.builtins.keyed.find?_iff_mem h.builtins.consistent).mpr ⟨hb, rfl⟩
    obtain ⟨habsent, hrefused⟩ :=
      BuiltinTable.not_found_of_collides (hkept later _ _ hfound) hname hkey
    refine ⟨habsent, ?_⟩
    rintro b' rfl
    exact registerBuiltin_of_refused (hrefused b' rfl)

/-- **The table of builtins.** After any registrations on an empty table, granted or refused, the
table lists those that were granted, each once, in their order and under its own key and name; and
it refuses, keeps and tells names apart as it should. The same holds of the table of an engine that
began empty, whatever has happened to the engine, where moreover the names of types are refused. -/
theorem builtins_bookkeeping (config : Config) :
    (∀ bs, (({} : BuiltinTable).registerAll bs).Lists (({} : BuiltinTable).admitted bs) ∧
      (({} : BuiltinTable).registerAll bs).Guarded) ∧
    ∀ events, (run { config := config } events).builtins.Lists
        (admitted { config := config } events) ∧
      (run { config := config } events).Guarded := by
  constructor
  · intro bs
    obtain ⟨hvalid, hbuiltins, -⟩ := BuiltinTable.valid_empty.registerAll bs
    exact ⟨hvalid.lists hbuiltins, hvalid.guarded⟩
  · intro events
    have hvalid := (sound_run config events).valid
    exact ⟨hvalid.builtins.lists (builtins_run (sound_new config).valid events), hvalid.guarded⟩

end Engine

end SceneScript
