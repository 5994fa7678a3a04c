/-
SceneScript.Proofs.EngineTheorems — what stays true of an engine, whatever happens to it.

A host tells an engine about its stages, registers builtins of its own and
registers types, in any order (`Event`). `init1` may fail halfway and leave part of
what is standard behind; a host may have taken a standard name before. When it
succeeds, and what it leaves behind when it does not, is said once
(`install_cases`), in terms of requests that are granted (`Grants`) and builtins
that are admitted (`AdmitsAll`); everything else follows from that.

None of that brings a standard builtin into an engine without the standard types:
the builtins are registered after the types, types are never changed except for
their conversions, and a failure among the types keeps the builtins out. The
invariant is `Engine.Sound`; one event preserves it (`Sound.after`), and so does
any run (`Sound.run`).

So a call finds what a stage has added or what the host has (`installed_or_added`),
and in the first case it keeps to its signature (`conforms_of_installed`). Once `init1`
has succeeded, every standard builtin is found and does so (`conforms_of_initialized`).
-/
import SceneScript.Proofs.StandardTheorems

namespace SceneScript

/-! ## §1 Types that are there -/

theorem exists_mem_of_forall₂ {α β : Type} {R : α → β → Prop} {as : List α} {bs : List β}
    (h : List.Forall₂ R as bs) : ∀ a ∈ as, ∃ b ∈ bs, R a b := by
  induction h with
  | nil => exact fun a ha => absurd ha List.not_mem_nil
  | @cons a b as bs hab _ ih =>
    intro a' ha'
    rcases List.mem_cons.mp ha' with rfl | ha'
    · exact ⟨b, List.mem_cons_self, hab⟩
    · obtain ⟨b', hb', hab'⟩ := ih a' ha'
      exact ⟨b', List.mem_cons_of_mem _ hb', hab'⟩

/-- What a request would construct for the type that it adds. -/
def Registration.fresh? : Registration → Option Payload
  | .laidOut _ fresh _ => some fresh
  | .plain _ kind => some kind.default
  | .flat _ fresh => some fresh
  | .record type => some type.fresh
  | .conversion _ _ => none

namespace Registry

variable {r r' : Registry} {q : Registration} {name : String} {fresh : Payload}

/-- The registry has a type of this name and constructs this for it. -/
def Has (r : Registry) (name : String) (fresh : Payload) : Prop :=
  ∃ e, r.find? (Key.ofName name) = some e ∧ e.name = name ∧ e.fresh = fresh

theorem Has.mono (h : r.Has name fresh) (hkeeps : r.Keeps r') : r'.Has name fresh := by
  obtain ⟨e, he, hname, hfresh⟩ := h
  obtain ⟨c, hc⟩ := hkeeps _ _ he
  exact ⟨_, hc, hname, hfresh⟩

theorem Stocked.mono (h : r.Stocked) (hkeeps : r.Keeps r') : r'.Stocked :=
  fun kind hkind => Has.mono (h kind hkind) hkeeps

/-- A request that succeeds has what it asked for. -/
theorem has_of_perform (hvalid : r.Valid) {key : Key} (hok : (r.perform q).1 = .ok key)
    (hname : q.name? = some name) (hfresh : q.fresh? = some fresh) :
    (r.perform q).2.Has name fresh := by
  rcases perform_ok_cases hvalid hok with
    ⟨name', fresh', layout, hdesc, -, hfree, -, hq⟩ | ⟨_, _, rfl, -, -⟩
  · rw [hdesc.name?] at hname
    cases hname
    have hsame : q.fresh? = some fresh' := by cases hdesc <;> rfl
    rw [hsame] at hfresh
    cases hfresh
    rw [hq]
    exact ⟨.new name fresh layout, by rw [find?_added, if_pos rfl], rfl, rfl⟩
  · cases hname

/-- None of the requests is refused, each made to what the ones before it have left. -/
def Grants (r : Registry) : List Registration → Prop
  | [] => True
  | q :: rest => (∃ key, (r.perform q).1 = .ok key) ∧ (r.perform q).2.Grants rest

/-- Requests that succeed one after the other have what they asked for. -/
theorem has_of_grants {requests : List Registration} (h : r.Valid)
    (hgrants : r.Grants requests) :
    ∀ q ∈ requests, ∀ name fresh, q.name? = some name → q.fresh? = some fresh →
      (r.performAll requests).Has name fresh := by
  induction requests generalizing r with
  | nil => exact fun q hq => absurd hq List.not_mem_nil
  | cons q rest ih =>
    obtain ⟨⟨key, hok⟩, hrest⟩ := hgrants
    have hvalid := valid_perform h q
    intro q' hq' name fresh hname hfresh
    rw [performAll_cons]
    rcases List.mem_cons.mp hq' with rfl | hq'
    · exact (has_of_perform h hok hname hfresh).mono (keeps_performAll hvalid rest)
    · exact ih hvalid hrest q' hq' name fresh hname hfresh

end Registry

/-- The standard registrations ask for every standard type and its default. -/
theorem Standard.exists_registration (kind : Kind) (hkind : kind.isHosted = false) :
    ∃ q ∈ registrations, q.name? = some kind.typeName ∧ q.fresh? = some kind.default := by
  have hrecord : ∀ type : FlatKind, .record type ∈ registrations →
      Registration.nameIn? type.schema = some kind.typeName → type.fresh = kind.default →
      ∃ q ∈ registrations, q.name? = some kind.typeName ∧ q.fresh? = some kind.default :=
    fun type hmem hname hfresh => ⟨.record type, hmem, hname, congrArg some hfresh⟩
  have hplain : .plain kind.typeName kind ∈ registrations →
      ∃ q ∈ registrations, q.name? = some kind.typeName ∧ q.fresh? = some kind.default :=
    fun hmem => ⟨_, hmem, rfl, rfl⟩
  cases kind with
  | vec2 => exact hrecord .vec2 (by simp [registrations]) (by decide) rfl
  | vec3 => exact hrecord .vec3 (by simp [registrations]) (by decide) rfl
  | mat3 => exact hrecord .mat3 (by simp [registrations]) (by decide) rfl
  | ray => exact hrecord .ray (by simp [registrations]) (by decide) rfl
  | rayCone => exact hrecord .rayCone (by simp [registrations]) (by decide) rfl
  | color => exact hrecord .color (by simp [registrations]) (by decide) rfl
  | hosted type => cases hkind
  | _ => exact hplain (by simp [registrations, Kind.typeName])

theorem Registry.stocked_of_grants {r : Registry} (h : r.Valid)
    (hgrants : r.Grants Standard.registrations) :
    (r.performAll Standard.registrations).Stocked := by
  intro kind hkind
  obtain ⟨q, hq, hname, hfresh⟩ := Standard.exists_registration kind hkind
  exact has_of_grants h hgrants q hq _ _ hname hfresh

/-! ## §2 Tables of builtins -/

namespace BuiltinTable

/-- The books of the table agree, and every builtin is under the key of its name. -/
structure Valid (t : BuiltinTable) : Prop where
  consistent : t.catalog.Consistent
  keyed : t.catalog.Keyed Builtin.key

variable {t : BuiltinTable} {b : Builtin} {name : String}

theorem valid_empty : ({} : BuiltinTable).Valid :=
  ⟨Catalog.consistent_empty, Catalog.keyed_empty⟩

/-- The table with one more builtin. -/
def added (t : BuiltinTable) (b : Builtin) : BuiltinTable := ⟨t.catalog.add b.key b⟩

theorem find?_added (key : Key) :
    (t.added b).find? key = if b.key = key then some b else t.find? key :=
  Catalog.find?_add _ _ _ _

theorem Valid.added (h : t.Valid) (hfree : t.find? b.key = none) : (t.added b).Valid :=
  ⟨h.consistent.add hfree, h.keyed.add rfl⟩

theorem Valid.builtins_added (h : t.Valid) (hfree : t.find? b.key = none) :
    (t.added b).builtins = t.builtins ++ [b] :=
  h.consistent.items_add hfree

/-- The table with more builtins, one after the other. -/
def addedAll (t : BuiltinTable) (new : List Builtin) : BuiltinTable := new.foldl added t

theorem addedAll_append (t : BuiltinTable) (first later : List Builtin) :
    t.addedAll (first ++ later) = (t.addedAll first).addedAll later :=
  List.foldl_append

theorem Valid.map_key_builtins (h : t.Valid) : t.builtins.map Builtin.key = t.catalog.order :=
  h.consistent.map_items h.keyed

theorem Valid.find?_eq_none_iff (h : t.Valid) {key : Key} :
    t.find? key = none ↔ ∀ b ∈ t.builtins, b.key ≠ key :=
  h.keyed.find?_eq_none_iff h.consistent

/-- What is found under a name is one of the builtins, and has the name. -/
theorem Valid.get?_iff (h : t.Valid) : t.get? name = some b ↔ b ∈ t.builtins ∧ b.name = name := by
  rw [get?, Option.filter_eq_some_iff, beq_iff_eq, find?, h.keyed.find?_iff_mem h.consistent]
  constructor
  · rintro ⟨⟨hb, -⟩, hname⟩
    exact ⟨hb, hname⟩
  · rintro ⟨hb, rfl⟩
    exact ⟨⟨hb, rfl⟩, rfl⟩

theorem Valid.contains_iff (h : t.Valid) :
    t.contains name = true ↔ ∃ b ∈ t.builtins, b.name = name := by
  simp only [contains, Option.isSome_iff_exists, h.get?_iff]

end BuiltinTable

/-! ## §3 Steps of an engine -/

namespace Engine

/-- The books of an engine are in order. -/
structure Valid (engine : Engine) : Prop where
  types : engine.types.Valid
  builtins : engine.builtins.Valid

/-- From one engine to another types stay but for conversions, and builtins are added. -/
structure Extends (engine engine' : Engine) (new : List Builtin) : Prop where
  valid : engine'.Valid
  types : engine.types.Keeps engine'.types
  builtins : engine'.builtins.builtins = engine.builtins.builtins ++ new

variable {engine engine' engine'' : Engine} {new new' : List Builtin}

theorem Extends.refl (h : engine.Valid) : engine.Extends engine [] :=
  ⟨h, .refl _, (List.append_nil _).symm⟩

theorem Extends.trans (h : engine.Extends engine' new) (h' : engine'.Extends engine'' new') :
    engine.Extends engine'' (new ++ new') :=
  ⟨h'.valid, h.types.trans h'.types, by rw [h'.builtins, h.builtins, List.append_assoc]⟩

theorem Extends.marked (h : engine.Extends engine' new) :
    engine.Extends { engine' with initialized := true } new :=
  ⟨⟨h.valid.types, h.valid.builtins⟩, h.types, h.builtins⟩

/-- Nothing that the engine knows stands in the way of a builtin. -/
def Admits (engine : Engine) (b : Builtin) : Prop :=
  engine.types.contains b.name = false ∧ engine.builtins.find? b.key = none

theorem registerBuiltin_of_admits {b : Builtin} (h : engine.Admits b) :
    engine.registerBuiltin b =
      (.ok (), { engine with builtins := engine.builtins.added b }) := by
  simp only [registerBuiltin, h.1, BuiltinTable.register, h.2]
  rfl

theorem registerBuiltin_of_not_admits {b : Builtin} (h : ¬ engine.Admits b) :
    ∃ e, engine.registerBuiltin b = (.error e, engine) := by
  unfold registerBuiltin
  split
  · exact ⟨_, rfl⟩
  · next hname =>
    cases hfind : engine.builtins.find? b.key with
    | none => exact absurd ⟨by simpa using hname, hfind⟩ h
    | some existing =>
      simp only [BuiltinTable.register, hfind]
      exact ⟨_, rfl⟩

/-- The engine after it has answered requests and added builtins. -/
def grown (engine : Engine) (requests : List Registration) (new : List Builtin) : Engine :=
  { engine with
    types := engine.types.performAll requests
    builtins := engine.builtins.addedAll new }

variable {requests : List Registration} {b : Builtin}

@[simp] theorem types_grown :
    (engine.grown requests new).types = engine.types.performAll requests := rfl

@[simp] theorem builtins_grown :
    (engine.grown requests new).builtins = engine.builtins.addedAll new := rfl

@[simp] theorem config_grown : (engine.grown requests new).config = engine.config := rfl

@[simp] theorem initialized_grown :
    (engine.grown requests new).initialized = engine.initialized := rfl

theorem grown_grown : (engine.grown requests new).grown [] new' =
    engine.grown requests (new ++ new') := by
  simp [grown, BuiltinTable.addedAll_append]

/-- Requests leave the types that are there as they are, but for conversions. -/
theorem extends_performAll (h : engine.Valid) (requests : List Registration) :
    engine.Extends (engine.grown requests []) [] :=
  ⟨⟨Registry.valid_performAll h.types requests, h.builtins⟩,
    Registry.keeps_performAll h.types requests, (List.append_nil _).symm⟩

theorem extends_registerType (h : engine.Valid) (q : Registration) :
    engine.Extends (engine.registerType q).2 [] :=
  extends_performAll h [q]

theorem Admits.extends (hadmits : engine.Admits b) (h : engine.Valid) :
    engine.Extends (engine.grown [] [b]) [b] :=
  ⟨⟨h.types, h.builtins.added hadmits.2⟩, .refl _, h.builtins.builtins_added hadmits.2⟩

/-- A builtin is refused, or it is added to those that are there. -/
theorem registerBuiltin_cases (h : engine.Valid) (b : Builtin) :
    (∃ e, engine.registerBuiltin b = (.error e, engine)) ∨
    ∃ engine', engine.registerBuiltin b = (.ok (), engine') ∧ engine.Extends engine' [b] ∧
      engine'.initialized = engine.initialized := by
  by_cases hadmits : engine.Admits b
  · exact .inr ⟨_, registerBuiltin_of_admits hadmits, hadmits.extends h, rfl⟩
  · exact .inl (registerBuiltin_of_not_admits hadmits)

/-- Nothing stands in the way of the builtins, each added to what the ones before it have left. -/
def AdmitsAll (engine : Engine) : List Builtin → Prop
  | [] => True
  | b :: rest => engine.Admits b ∧ (engine.grown [] [b]).AdmitsAll rest

theorem AdmitsAll.extends (hadmits : engine.AdmitsAll new) (h : engine.Valid) :
    engine.Extends (engine.grown [] new) new := by
  induction new generalizing engine with
  | nil => exact .refl h
  | cons b rest ih =>
    have hfirst := hadmits.1.extends h
    have hrest := hfirst.trans (ih hadmits.2 hfirst.valid)
    rwa [grown_grown] at hrest

/-- Builtins that are added do not have the name of a type. -/
theorem AdmitsAll.unnamed (hadmits : engine.AdmitsAll new) :
    ∀ b ∈ new, engine.types.contains b.name = false := by
  induction new generalizing engine with
  | nil => exact fun b hb => absurd hb List.not_mem_nil
  | cons b rest ih =>
    have hrest := ih hadmits.2
    exact List.forall_mem_cons.mpr ⟨hadmits.1.1, hrest⟩

theorem extends_grown (h : engine.Valid) (hadmits : (engine.grown requests []).AdmitsAll new) :
    engine.Extends (engine.grown requests new) new := by
  have htypes := extends_performAll h requests
  have hboth := htypes.trans (hadmits.extends htypes.valid)
  rwa [grown_grown] at hboth

/-- Registering types in a row comes to an end with the first refusal, if there is one. -/
theorem registerTypes_cases (engine : Engine) (requests : List Registration) :
    (engine.types.Grants requests ∧
      engine.registerTypes requests = (.ok (), engine.grown requests [])) ∨
    (¬ engine.types.Grants requests ∧ ∃ e done, done <+: requests ∧
      engine.registerTypes requests = (.error e, engine.grown done [])) := by
  induction requests generalizing engine with
  | nil => exact .inl ⟨trivial, rfl⟩
  | cons q rest ih =>
    have hnext : (engine.registerType q).2 = engine.grown [q] [] := rfl
    cases hq : engine.registerType q with
    | mk answer next =>
      have hanswer : (engine.types.perform q).1 = answer := congrArg Prod.fst hq
      rw [hq] at hnext
      obtain rfl : next = engine.grown [q] [] := hnext
      simp only [registerTypes, hq]
      cases answer with
      | error e =>
        refine .inr ⟨?_, e, [q], List.cons_prefix_cons.mpr ⟨rfl, List.nil_prefix⟩, rfl⟩
        rintro ⟨⟨key, hok⟩, -⟩
        rw [hok] at hanswer
        cases hanswer
      | ok key =>
        rcases ih (engine.grown [q] []) with ⟨hgrants, hrest⟩ | ⟨hnot, e, done, hfront, hrest⟩
        · exact .inl ⟨⟨⟨key, hanswer⟩, hgrants⟩, hrest⟩
        · exact .inr ⟨fun hgrants => hnot hgrants.2, e, q :: done,
            List.cons_prefix_cons.mpr ⟨rfl, hfront⟩, hrest⟩

/-- The builtins are those that the specifications describe, in their order. -/
def Describe (specs : List Standard.Spec) (new : List Builtin) : Prop :=
  List.Forall₂ (fun spec b => spec.builtin = .ok b) specs new

/-- Registering builtins in a row comes to an end with the first that cannot be added, if there is
one. -/
theorem registerSpecs_cases (engine : Engine) (specs : List Standard.Spec) :
    (∃ new, Describe specs new ∧ engine.AdmitsAll new ∧
      engine.registerSpecs specs = (.ok (), engine.grown [] new)) ∨
    ((∀ new, Describe specs new → ¬ engine.AdmitsAll new) ∧
      ∃ e done new, done <+: specs ∧ Describe done new ∧ engine.AdmitsAll new ∧
        engine.registerSpecs specs = (.error e, engine.grown [] new)) := by
  induction specs generalizing engine with
  | nil => exact .inl ⟨[], .nil, trivial, rfl⟩
  | cons spec rest ih =>
    have hstop : ∀ e, engine.registerSpecs (spec :: rest) = (.error e, engine) →
        ∃ e done new, done <+: spec :: rest ∧ Describe done new ∧ engine.AdmitsAll new ∧
          engine.registerSpecs (spec :: rest) = (.error e, engine.grown [] new) :=
      fun e he => ⟨e, [], [], List.nil_prefix, .nil, trivial, he⟩
    cases hspec : spec.builtin with
    | error e =>
      refine .inr ⟨fun new hnew => ?_, hstop e (by simp only [registerSpecs, hspec])⟩
      cases hnew with
      | cons hb _ =>
        rw [hspec] at hb
        cases hb
    | ok b =>
      by_cases hadmits : engine.Admits b
      · have hstep : engine.registerSpecs (spec :: rest) =
            (engine.grown [] [b]).registerSpecs rest := by
          simp only [registerSpecs, hspec, registerBuiltin_of_admits hadmits]
          rfl
        rw [hstep]
        rcases ih (engine.grown [] [b]) with
          ⟨new, hnew, hall, hrest⟩ | ⟨hnot, e, done, new, hfront, hnew, hall, hrest⟩
        · exact .inl ⟨b :: new, .cons hspec hnew, ⟨hadmits, hall⟩, hrest⟩
        · refine .inr ⟨fun new hnew hall => ?_, e, spec :: done, b :: new,
            List.cons_prefix_cons.mpr ⟨rfl, hfront⟩, .cons hspec hnew, ⟨hadmits, hall⟩, hrest⟩
          cases hnew with
          | cons hb hnew =>
            rw [hspec] at hb
            cases hb
            exact hnot _ hnew hall.2
      · obtain ⟨e, hb⟩ := registerBuiltin_of_not_admits hadmits
        refine .inr ⟨fun new hnew hall => ?_, hstop e (by simp only [registerSpecs, hspec, hb])⟩
        cases hnew with
        | cons hb' _ =>
          rw [hspec] at hb'
          cases hb'
          exact hadmits hall.1

/-- The builtin is one that the specifications describe. -/
def DescribedBy (specs : List Standard.Spec) (b : Builtin) : Prop :=
  ∃ spec ∈ specs, spec.builtin = .ok b

theorem Describe.describedBy {done specs : List Standard.Spec} (h : Describe done new)
    (hfront : done <+: specs) : ∀ b ∈ new, DescribedBy specs b := by
  intro b hb
  obtain ⟨spec, hspec, hbuiltin⟩ := exists_mem_of_forall₂ h.flip b hb
  exact ⟨spec, hfront.subset hspec, hbuiltin⟩

/-- Nothing stands in the way of what is standard: types after types and then the builtins. -/
def Installs (engine : Engine) (new : List Builtin) : Prop :=
  engine.types.Grants Standard.registrations ∧ Describe Standard.specs new ∧
    (engine.grown Standard.registrations []).AdmitsAll new

/-- Registering what is standard succeeds if nothing stands in the way. If something does, the
first of the types are left behind, and no builtins unless all types are. -/
theorem install_cases (engine : Engine) :
    (∃ new, engine.Installs new ∧ engine.install =
      (.ok (), { engine.grown Standard.registrations new with initialized := true })) ∨
    ((∀ new, ¬ engine.Installs new) ∧ ∃ e requests new, requests <+: Standard.registrations ∧
      (∀ b ∈ new, DescribedBy Standard.specs b) ∧ (engine.grown requests []).AdmitsAll new ∧
      (new ≠ [] → requests = Standard.registrations ∧ engine.types.Grants Standard.registrations) ∧
      engine.install = (.error e, engine.grown requests new)) := by
  rcases registerTypes_cases engine Standard.registrations with
    ⟨hgrants, htypes⟩ | ⟨hnot, e, done, hfront, htypes⟩
  · rcases registerSpecs_cases (engine.grown Standard.registrations []) Standard.specs with
      ⟨new, hnew, hall, hspecs⟩ | ⟨hnot, e, done, new, hfront, hnew, hall, hspecs⟩
    · refine .inl ⟨new, ⟨hgrants, hnew, hall⟩, ?_⟩
      simp only [install, htypes, hspecs, grown_grown, List.nil_append]
    · refine .inr ⟨fun new' hnew' => hnot new' hnew'.2.1 hnew'.2.2, e, _, new, List.prefix_rfl,
        hnew.describedBy hfront, hall, fun _ => ⟨rfl, hgrants⟩, ?_⟩
      simp only [install, htypes, hspecs, grown_grown, List.nil_append]
  · refine .inr ⟨fun new hnew => hnot hnew.1, e, done, [], hfront,
      fun b hb => absurd hb List.not_mem_nil, trivial, fun hne => absurd rfl hne, ?_⟩
    simp only [install, htypes]

/-! ## §4 Runs -/

/-- Something that happens to an engine. -/
inductive Event
  /-- The host announces a stage. -/
  | signal (s : Signal)
  /-- The host adds a builtin. -/
  | builtin (b : Builtin)
  /-- The host adds a type or a conversion. -/
  | type (request : Registration)

/-- The engine after an event, whether or not anything was refused. -/
def after (engine : Engine) : Event → Engine
  | .signal s => (engine.signal s).2
  | .builtin b => (engine.registerBuiltin b).2
  | .type request => (engine.registerType request).2

/-- The engine after events one after the other. -/
def run (engine : Engine) (events : List Event) : Engine := events.foldl after engine

/-- The builtins that an event adds on its own account: those that come with a stage. -/
def installedBy (engine : Engine) : Event → List Builtin
  | .signal s => (engine.signal s).2.builtins.builtins.drop engine.builtins.builtins.length
  | .builtin _ => []
  | .type _ => []

/-- The builtins that stages have added in the course of events. -/
def installed (engine : Engine) : List Event → List Builtin
  | [] => []
  | event :: rest => engine.installedBy event ++ (engine.after event).installed rest

/-- One stage adds what is new after it. -/
theorem installed_signal (engine : Engine) (s : Signal) :
    engine.installed [.signal s] =
      (engine.run [.signal s]).builtins.builtins.drop engine.builtins.builtins.length :=
  List.append_nil _

/-- All that is standard is there, types and builtins. -/
structure Complete (engine : Engine) : Prop where
  stocked : engine.types.Stocked
  builtins : ∀ spec ∈ Standard.specs, ∃ b ∈ engine.builtins.builtins, spec.builtin = .ok b

theorem Complete.mono (h : engine.Complete) (hext : engine.Extends engine' new) :
    engine'.Complete := by
  refine ⟨h.stocked.mono hext.types, fun spec hspec => ?_⟩
  obtain ⟨b, hb, hspec⟩ := h.builtins spec hspec
  refine ⟨b, ?_, hspec⟩
  rw [hext.builtins]
  exact List.mem_append_left _ hb

/-- What holds of an engine in which `installed` are the builtins that stages have added: they
are standard ones, and if there are any, the standard types are there. If `init1` has succeeded,
all that is standard is there. -/
structure Sound (engine : Engine) (installed : List Builtin) : Prop where
  valid : engine.Valid
  described : ∀ b ∈ installed, DescribedBy Standard.specs b
  stocked : installed ≠ [] → engine.types.Stocked
  complete : engine.initialized = true → engine.Complete

theorem sound_new (config : Config) : Sound { config := config } [] where
  valid := ⟨Registry.valid_empty, BuiltinTable.valid_empty⟩
  described _ hb := absurd hb List.not_mem_nil
  stocked h := absurd rfl h
  complete h := nomatch h

variable {installed : List Builtin}

/-- What is sound stays sound when types and builtins are added. -/
theorem Sound.extends (h : engine.Sound installed) (hext : engine.Extends engine' new)
    (hinit : engine'.initialized = engine.initialized) : engine'.Sound installed where
  valid := hext.valid
  described := h.described
  stocked hne := (h.stocked hne).mono hext.types
  complete htrue := (h.complete (hinit ▸ htrue)).mono hext

theorem stocked_grown (new : List Builtin) (h : engine.Valid)
    (hgrants : engine.types.Grants Standard.registrations) :
    (engine.grown Standard.registrations new).types.Stocked := by
  rw [types_grown]
  exact Registry.stocked_of_grants h.types hgrants

/-- Registering what is standard: the builtins come after all of the types. -/
theorem install_spec (h : engine.Valid) : ∃ new, engine.Extends engine.install.2 new ∧
    (∀ b ∈ new, DescribedBy Standard.specs b) ∧
    (new ≠ [] → engine.install.2.types.Stocked) ∧
    (engine.install.2.initialized = true →
      engine.initialized = true ∨ engine.install.2.Complete) := by
  rcases install_cases engine with
    ⟨new, ⟨hgrants, hnew, hall⟩, hinstall⟩ |
    ⟨-, e, requests, new, -, hnew, hall, hstocked, hinstall⟩
  · have hext := extends_grown h hall
    have hstocked := stocked_grown new h hgrants
    rw [hinstall]
    generalize engine.grown Standard.registrations new = last at hext hstocked
    refine ⟨new, hext.marked, hnew.describedBy List.prefix_rfl, fun _ => hstocked,
      fun _ => .inr ⟨hstocked, fun spec hspec => ?_⟩⟩
    obtain ⟨b, hb, hbuiltin⟩ := exists_mem_of_forall₂ hnew spec hspec
    refine ⟨b, ?_, hbuiltin⟩
    rw [hext.marked.builtins]
    exact List.mem_append_right _ hb
  · rw [hinstall]
    refine ⟨new, extends_grown h hall, hnew, fun hne => ?_, fun htrue => .inl htrue⟩
    obtain ⟨rfl, hgrants⟩ := hstocked hne
    exact stocked_grown new h hgrants

/-- The builtins that an event adds are those that come with a stage, or the one that the host
adds. -/
theorem extends_after (h : engine.Valid) (event : Event) :
    ∃ new, engine.Extends (engine.after event) new ∧
      (∀ b ∈ new, b ∈ engine.installedBy event ∨ event = .builtin b) ∧
      ∀ b ∈ engine.installedBy event, b ∈ new := by
  cases event with
  | signal s =>
    rw [Engine.after, installedBy]
    unfold signal
    split
    · obtain ⟨new, hext, -⟩ := install_spec h
      refine ⟨new, hext, ?_⟩
      rw [hext.builtins, List.drop_left]
      exact ⟨fun b hb => .inl hb, fun b hb => hb⟩
    · refine ⟨[], .refl h, fun b hb => absurd hb List.not_mem_nil, ?_⟩
      rw [List.drop_length]
      exact fun b hb => hb
  | builtin b =>
    rcases registerBuiltin_cases h b with ⟨e, hb⟩ | ⟨engine', hb, hext, -⟩
    · rw [Engine.after, hb]
      exact ⟨[], .refl h, fun b hb => absurd hb List.not_mem_nil, fun b hb => hb⟩
    · rw [Engine.after, hb]
      refine ⟨[b], hext, fun b' hb' => .inr ?_, fun b' hb' => absurd hb' List.not_mem_nil⟩
      rw [List.mem_singleton.mp hb']
  | type request =>
    exact ⟨[], extends_registerType h request, fun b hb => absurd hb List.not_mem_nil,
      fun b hb => hb⟩

/-- The builtins that events add have come with a stage or were added by the host. -/
theorem extends_run (h : engine.Valid) (events : List Event) :
    ∃ new, engine.Extends (engine.run events) new ∧
      (∀ b ∈ new, b ∈ engine.installed events ∨ .builtin b ∈ events) ∧
      ∀ b ∈ engine.installed events, b ∈ new := by
  induction events generalizing engine with
  | nil => exact ⟨[], .refl h, fun b hb => absurd hb List.not_mem_nil, fun b hb => hb⟩
  | cons event rest ih =>
    obtain ⟨new, hext, hnew, hall⟩ := extends_after h event
    obtain ⟨later, hext', hlater, hall'⟩ := ih hext.valid
    refine ⟨new ++ later, hext.trans hext', fun b hb => ?_, fun b hb => ?_⟩
    · rw [Engine.installed, List.mem_append]
      rcases List.mem_append.mp hb with hb | hb
      · rcases hnew b hb with hb | rfl
        · exact .inl (.inl hb)
        · exact .inr List.mem_cons_self
      · rcases hlater b hb with hb | hb
        · exact .inl (.inr hb)
        · exact .inr (List.mem_cons_of_mem _ hb)
    · rw [Engine.installed] at hb
      rcases List.mem_append.mp hb with hb | hb
      · exact List.mem_append_left _ (hall b hb)
      · exact List.mem_append_right _ (hall' b hb)

theorem Valid.after (h : engine.Valid) (event : Event) : (engine.after event).Valid := by
  obtain ⟨new, hext, -⟩ := extends_after h event
  exact hext.valid

theorem run_cons (engine : Engine) (event : Event) (rest : List Event) :
    engine.run (event :: rest) = (engine.after event).run rest := rfl

/-- What single events bring about and never undo has been brought about by one of the events. -/
theorem run_iff_exists {P : Engine → Prop} {Q : Engine → Event → Prop}
    (hstep : ∀ engine event, engine.Valid → (P (engine.after event) ↔ P engine ∨ Q engine event))
    (h : engine.Valid) (events : List Event) :
    P (engine.run events) ↔ P engine ∨
      ∃ front event back, events = front ++ event :: back ∧ Q (engine.run front) event := by
  induction events generalizing engine with
  | nil => simp [run]
  | cons event rest ih =>
    rw [run_cons, ih (h.after event), hstep engine event h, or_assoc]
    refine or_congr_right ⟨?_, ?_⟩
    · rintro (hfirst | ⟨front, later, back, rfl, hlater⟩)
      · exact ⟨[], event, rest, rfl, hfirst⟩
      · exact ⟨event :: front, later, back, rfl, hlater⟩
    · rintro ⟨front, later, back, hevents, hlater⟩
      cases front with
      | nil =>
        cases hevents
        exact .inl hlater
      | cons first front =>
        obtain ⟨rfl, rfl⟩ := List.cons.inj hevents
        exact .inr ⟨front, later, back, rfl, hlater⟩

/-- An event preserves soundness. -/
theorem Sound.after (h : engine.Sound installed) (event : Event) :
    (engine.after event).Sound (installed ++ engine.installedBy event) := by
  cases event with
  | builtin b =>
    rw [installedBy, List.append_nil]
    rcases registerBuiltin_cases h.valid b with ⟨e, hb⟩ | ⟨engine', hb, hext, hinit⟩
    · rw [Engine.after, hb]
      exact h
    · rw [Engine.after, hb]
      exact h.extends hext hinit
  | type request =>
    rw [installedBy, List.append_nil]
    exact h.extends (extends_registerType h.valid request) rfl
  | signal s =>
    rw [installedBy, Engine.after]
    unfold signal
    split
    · obtain ⟨new, hext, hnew, hstocked, hdone⟩ := install_spec h.valid
      rw [hext.builtins, List.drop_left]
      refine ⟨hext.valid, fun b hb => ?_, fun hne => ?_, fun htrue => ?_⟩
      · rcases List.mem_append.mp hb with hb | hb
        · exact h.described b hb
        · exact hnew b hb
      · by_cases hold : installed = []
        · refine hstocked fun hnil => hne ?_
          rw [hold, hnil, List.append_nil]
        · exact (h.stocked hold).mono hext.types
      · rcases hdone htrue with hbefore | hcomplete
        · exact (h.complete hbefore).mono hext
        · exact hcomplete
    · rw [List.drop_length, List.append_nil]
      exact h

/-- Whatever happens, an engine stays sound. -/
theorem Sound.run (h : engine.Sound installed) (events : List Event) :
    (engine.run events).Sound (installed ++ engine.installed events) := by
  induction events generalizing engine installed with
  | nil =>
    rw [Engine.installed, List.append_nil]
    exact h
  | cons event rest ih =>
    rw [Engine.installed, ← List.append_assoc]
    exact ih (h.after event)

/-- An engine that began empty is sound. -/
theorem sound_run (config : Config) (events : List Event) :
    (run { config := config } events).Sound
      (Engine.installed { config := config } events) := by
  have h := (sound_new config).run events
  rwa [List.nil_append] at h

/-- What a call finds in an engine that began empty has come with a stage, or the host has added
it. -/
theorem installed_or_added {config : Config} {events : List Event} {name : String} {b : Builtin}
    (hget : (run { config := config } events).builtins.get? name = some b) :
    b ∈ Engine.installed { config := config } events ∨ .builtin b ∈ events := by
  obtain ⟨new, hext, hnew, -⟩ := extends_run (sound_new config).valid events
  refine hnew b ?_
  have hmem := (hext.valid.builtins.get?_iff.mp hget).1
  rw [hext.builtins] at hmem
  exact hmem

/-- What has come with a stage is found under its name. -/
theorem get?_of_installed {config : Config} {events : List Event} {b : Builtin}
    (hb : b ∈ Engine.installed { config := config } events) :
    (run { config := config } events).builtins.get? b.name = some b := by
  obtain ⟨new, hext, -, hall⟩ := extends_run (sound_new config).valid events
  refine hext.valid.builtins.get?_iff.mpr ⟨?_, rfl⟩
  rw [hext.builtins]
  exact List.mem_append_right _ (hall b hb)

/-- What has come with a stage keeps to its signature. -/
theorem conforms_of_installed {config : Config} {events : List Event} {b : Builtin}
    (hb : b ∈ Engine.installed { config := config } events) (clock : Float) (memory : Memory) :
    Standard.Conforms ((run { config := config } events).host clock memory) b.signature
      b.entry := by
  have hsound := sound_run config events
  obtain ⟨spec, hspec, hbuiltin⟩ := hsound.described b hb
  obtain ⟨b', hb', hconforms⟩ := Standard.conforms_of_mem_specs
    ((run { config := config } events).host clock memory)
    (hsound.stocked (List.ne_nil_of_mem hb)) hsound.valid.types spec hspec
  rw [hbuiltin] at hb'
  cases hb'
  exact hconforms

/-- Once `init1` has succeeded, every standard builtin is found under its name and keeps to its
signature. -/
theorem conforms_of_initialized {config : Config} {events : List Event}
    (hinit : (run { config := config } events).initialized = true) {spec : Standard.Spec}
    (hspec : spec ∈ Standard.specs) :
    ∃ b, spec.builtin = .ok b ∧
      (run { config := config } events).builtins.get? b.name = some b ∧
      ∀ clock memory, Standard.Conforms ((run { config := config } events).host clock memory)
        b.signature b.entry := by
  have hsound := sound_run config events
  obtain ⟨hstocked, hall⟩ := hsound.complete hinit
  obtain ⟨b, hb, hbuiltin⟩ := hall spec hspec
  refine ⟨b, hbuiltin, hsound.valid.builtins.get?_iff.mpr ⟨hb, rfl⟩, fun clock memory => ?_⟩
  obtain ⟨b', hb', hconforms⟩ := Standard.conforms_of_mem_specs
    ((run { config := config } events).host clock memory) hstocked hsound.valid.types spec hspec
  rw [hbuiltin] at hb'
  cases hb'
  exact hconforms

end Engine

end SceneScript
