/-
SceneScript.Proofs.RegistryTheorems — what requests do to a registry.

`Refuses` lists the reasons for which a request is refused, and the error that
each of them gives. `perform_cases` says once and for all what a request can come
to: it is refused and changes nothing, or it adds the entry that it describes at
the end, under a key that was free, or it attaches a conversion to an entry that
is there. All that holds after any requests is derived from it: the books of the
registry stay in step with every entry under the key of its name
(`valid_performAll`), entries stay but for their conversions (`keeps_performAll`),
and the list of entries is the list of requests that succeeded
(`entries_performAll`).

`bookkeeping` puts together what this means for names and keys.
-/
import SceneScript.Proofs.CatalogTheorems
import SceneScript.Registry
import Mathlib.Data.List.Nodup

namespace SceneScript

/-! ## §1 Requests as descriptions -/

/-- What a request describes to a registry that knows the types inside it: the name of a type,
what is constructed for it, and its layout. -/
inductive Registry.Describes (r : Registry) : Registration → String → Payload → Layout → Prop
  | laidOut {name : String} {fresh : Payload} {layout : Layout} :
      Describes r (.laidOut name fresh layout) name fresh layout
  | plain {name : String} {kind : Kind} : Describes r (.plain name kind) name kind.default {}
  | flat {source : String} {fresh : Payload} {schema : Schema} {layout : Layout}
      (hparse : Schema.parse source = .ok schema)
      (hlayout : r.layoutOfBody schema.body = .ok layout) :
      Describes r (.flat source fresh) schema.name fresh layout
  | record {flat : FlatKind} {schema : Schema} {layout : Layout}
      (hparse : Schema.parse flat.schema = .ok schema)
      (hlayout : r.layoutOfBody schema.body = .ok layout) :
      Describes r (.record flat) schema.name flat.fresh layout

namespace Registration

/-- Whether values of the described type fit its layout, as far as the request tells. -/
def Fits : Registration → Layout → Prop
  | .record type, layout => type.provided = layout.slots
  | _, _ => True

/-- The schema that a request brings along. -/
def source? : Registration → Option String
  | .flat source _ => some source
  | .record type => some type.schema
  | .laidOut _ _ _ => none
  | .plain _ _ => none
  | .conversion _ _ => none

/-- The name in a schema. -/
def nameIn? (source : String) : Option String :=
  match Schema.parse source with
  | .ok schema => some schema.name
  | .error _ => none

/-- The name of the type that a request wants to add. -/
def name? : Registration → Option String
  | .laidOut name _ _ => some name
  | .plain name _ => some name
  | .flat source _ => nameIn? source
  | .record type => nameIn? type.schema
  | .conversion _ _ => none

end Registration

namespace Registry

variable {r r' : Registry} {q : Registration} {name : String} {fresh : Payload} {layout : Layout}

theorem Describes.name? (h : r.Describes q name fresh layout) : q.name? = some name := by
  cases h with
  | laidOut => rfl
  | plain => rfl
  | flat hparse _ => simp [Registration.name?, Registration.nameIn?, hparse]
  | record hparse _ => simp [Registration.name?, Registration.nameIn?, hparse]

/-! ## §2 Validity -/

/-- The books of the registry agree, and every entry is under the key of its name. -/
structure Valid (r : Registry) : Prop where
  consistent : r.catalog.Consistent
  keyed : r.catalog.Keyed TypeEntry.key
  key_eq : ∀ key e, r.find? key = some e → e.key = Key.ofName e.name

theorem valid_empty : ({} : Registry).Valid :=
  ⟨Catalog.consistent_empty, Catalog.keyed_empty, fun key e h => by simp [find?] at h⟩

/-- The registry with one more type. -/
def added (r : Registry) (name : String) (fresh : Payload) (layout : Layout) : Registry :=
  ⟨r.catalog.add (Key.ofName name) (.new name fresh layout)⟩

/-- The registry with a conversion attached to a type. -/
def converted (r : Registry) (key : Key) (conversion : Conversion) : Registry :=
  ⟨r.catalog.update key fun e => e.withConversion conversion⟩

theorem find?_added (key : Key) :
    (r.added name fresh layout).find? key =
      if Key.ofName name = key then some (.new name fresh layout) else r.find? key :=
  Catalog.find?_add _ _ _ _

theorem find?_converted (key other : Key) (conversion : Conversion) :
    (r.converted key conversion).find? other =
      if key = other then (r.find? key).map (·.withConversion conversion)
      else r.find? other :=
  Catalog.find?_update _ _ _ _

theorem Valid.added (h : r.Valid) (hfree : r.find? (Key.ofName name) = none) :
    (r.added name fresh layout).Valid := by
  refine ⟨h.consistent.add hfree, h.keyed.add rfl, fun key e he => ?_⟩
  rw [find?_added] at he
  split at he
  · obtain rfl := Option.some.inj he
    rfl
  · exact h.key_eq key e he

theorem Valid.converted (h : r.Valid) (key : Key) (conversion : Conversion) :
    (r.converted key conversion).Valid := by
  refine ⟨h.consistent.update _, h.keyed.update fun _ => rfl, fun other e he => ?_⟩
  rw [find?_converted] at he
  split at he
  · obtain ⟨e', he', rfl⟩ := Option.map_eq_some_iff.mp he
    exact h.key_eq key e' he'
  · exact h.key_eq other e he

/-- Being found under a key is being an entry with that key. -/
theorem Valid.find?_iff_mem (h : r.Valid) {key : Key} {e : TypeEntry} :
    r.find? key = some e ↔ e ∈ r.entries ∧ e.key = key :=
  h.keyed.find?_iff_mem h.consistent

theorem Valid.find?_eq_none_iff (h : r.Valid) {key : Key} :
    r.find? key = none ↔ ∀ e ∈ r.entries, e.key ≠ key :=
  h.keyed.find?_eq_none_iff h.consistent

theorem Valid.find?_key (h : r.Valid) {e : TypeEntry} (he : e ∈ r.entries) :
    r.find? e.key = some e :=
  h.find?_iff_mem.mpr ⟨he, rfl⟩

theorem Valid.key_of_mem (h : r.Valid) {e : TypeEntry} (he : e ∈ r.entries) :
    e.key = Key.ofName e.name :=
  h.key_eq e.key e (h.find?_key he)

/-- No two types have one key. -/
theorem Valid.eq_of_key (h : r.Valid) {e e' : TypeEntry} (he : e ∈ r.entries)
    (he' : e' ∈ r.entries) (hkey : e.key = e'.key) : e = e' := by
  have hfind := h.find?_key he
  rw [hkey, h.find?_key he'] at hfind
  exact (Option.some.inj hfind).symm

/-- The listed keys are those of the entries. -/
theorem Valid.map_key_entries (h : r.Valid) : r.entries.map TypeEntry.key = r.catalog.order :=
  h.consistent.map_items h.keyed

theorem Valid.entries_added (h : r.Valid) (hfree : r.find? (Key.ofName name) = none) :
    (r.added name fresh layout).entries = r.entries ++ [.new name fresh layout] :=
  h.consistent.items_add hfree

theorem Valid.entries_converted (h : r.Valid) (key : Key) (conversion : Conversion) :
    (r.converted key conversion).entries =
      r.entries.map fun e => if e.key = key then e.withConversion conversion else e :=
  h.keyed.items_update _

/-! ## §3 What a request comes to -/

theorem register_of_free (hfree : r.find? (Key.ofName name) = none) :
    r.register name fresh layout = (.ok (Key.ofName name), r.added name fresh layout) := by
  simp [register, hfree, added]

theorem register_of_taken {e : TypeEntry} (htaken : r.find? (Key.ofName name) = some e) :
    r.register name fresh layout =
      (.error (if e.name = name then .duplicateType name
        else .keyCollision name e.name (Key.ofName name)), r) := by
  simp [register, htaken]

theorem registerFlat_of_free {source : String} {schema : Schema}
    (hparse : Schema.parse source = .ok schema)
    (hlayout : r.layoutOfBody schema.body = .ok layout)
    (hfree : r.find? (Key.ofName schema.name) = none) :
    r.registerFlat source fresh =
      (.ok (Key.ofName schema.name), r.added schema.name fresh layout) := by
  simp only [registerFlat, hparse, hlayout]
  exact register_of_free hfree

/-- A flat kind that does not fit its schema is taken out again, and nothing is left of it. -/
theorem registerRecord_of_free (h : r.Valid) {flat : FlatKind} {schema : Schema}
    (hparse : Schema.parse flat.schema = .ok schema)
    (hlayout : r.layoutOfBody schema.body = .ok layout)
    (hfree : r.find? (Key.ofName schema.name) = none) :
    r.registerRecord flat =
      if flat.provided = layout.slots then
        (.ok (Key.ofName schema.name), r.added schema.name flat.fresh layout)
      else (.error (.schema flat.schema (.slotCount layout.slots flat.provided)), r) := by
  have hfound : (r.added schema.name flat.fresh layout).layoutOf? (Key.ofName schema.name) =
      some layout := by
    rw [layoutOf?, find?_added, if_pos rfl]
    rfl
  have hback : (r.added schema.name flat.fresh layout).unregister (Key.ofName schema.name) = r :=
    congrArg Registry.mk (h.consistent.remove_add hfree)
  simp only [registerRecord, registerFlat_of_free hparse hlayout hfree, hfound, Option.map_some,
    Option.getD_some, hback]

/-- A request for a name whose key is taken is refused: as a duplicate if the name is the same,
otherwise as a collision. -/
theorem perform_of_taken {e : TypeEntry} (h : r.Describes q name fresh layout)
    (htaken : r.find? (Key.ofName name) = some e) :
    r.perform q =
      (.error (if e.name = name then .duplicateType name
        else .keyCollision name e.name (Key.ofName name)), r) := by
  have hregister : ∀ fresh layout, r.register name fresh layout = _ :=
    fun fresh layout => register_of_taken htaken
  cases h with
  | laidOut => exact hregister _ _
  | plain => exact hregister _ _
  | flat hparse hlayout =>
    simp only [perform, registerFlat, hparse, hlayout]
    exact hregister _ _
  | record hparse hlayout =>
    simp only [perform, registerRecord, registerFlat, hparse, hlayout, hregister]

/-- A request for a name whose key is free adds the type, unless its values do not fit it. -/
theorem perform_of_free (hvalid : r.Valid) (h : r.Describes q name fresh layout)
    (hfree : r.find? (Key.ofName name) = none) :
    (q.Fits layout ∧ r.perform q = (.ok (Key.ofName name), r.added name fresh layout)) ∨
    (¬ q.Fits layout ∧ ∃ e, r.perform q = (.error e, r)) := by
  cases h with
  | laidOut => exact .inl ⟨trivial, register_of_free hfree⟩
  | plain => exact .inl ⟨trivial, register_of_free hfree⟩
  | flat hparse hlayout => exact .inl ⟨trivial, registerFlat_of_free hparse hlayout hfree⟩
  | @record flat schema layout hparse hlayout =>
    have hrecord := registerRecord_of_free hvalid hparse hlayout hfree
    by_cases hfits : flat.provided = layout.slots
    · rw [if_pos hfits] at hrecord
      exact .inl ⟨hfits, hrecord⟩
    · rw [if_neg hfits] at hrecord
      exact .inr ⟨hfits, _, hrecord⟩

/-- The reasons for which a registry refuses a request, each with its error. -/
inductive Refuses (r : Registry) : Registration → Error → Prop
  /-- The schema cannot be read. -/
  | unreadable {q : Registration} {source : String} {fault : SchemaFault}
      (hsource : q.source? = some source) (hparse : Schema.parse source = .error fault) :
      Refuses r q (.schema source fault)
  /-- A type inside the schema is not a registered flat record. -/
  | unfounded {q : Registration} {source : String} {schema : Schema} {fault : SchemaFault}
      (hsource : q.source? = some source) (hparse : Schema.parse source = .ok schema)
      (hlayout : r.layoutOfBody schema.body = .error fault) :
      Refuses r q (.schema source fault)
  /-- A type has the name already. -/
  | duplicate {q : Registration} {name : String} {fresh : Payload} {layout : Layout}
      {e : TypeEntry} (hdesc : r.Describes q name fresh layout)
      (htaken : r.find? (Key.ofName name) = some e) (hname : e.name = name) :
      Refuses r q (.duplicateType name)
  /-- A type of another name has the key of this one. -/
  | collision {q : Registration} {name : String} {fresh : Payload} {layout : Layout}
      {e : TypeEntry} (hdesc : r.Describes q name fresh layout)
      (htaken : r.find? (Key.ofName name) = some e) (hname : e.name ≠ name) :
      Refuses r q (.keyCollision name e.name (Key.ofName name))
  /-- The values of a flat kind have another number of slots than its schema declares. -/
  | misfit {type : FlatKind} {name : String} {fresh : Payload} {layout : Layout}
      (hdesc : r.Describes (.record type) name fresh layout)
      (hfree : r.find? (Key.ofName name) = none) (hslots : type.provided ≠ layout.slots) :
      Refuses r (.record type) (.schema type.schema (.slotCount layout.slots type.provided))
  /-- A conversion is for a type that is not there. -/
  | absent {key : Key} {conversion : Conversion} (hfree : r.find? key = none) :
      Refuses r (.conversion key conversion) (.unregistered key)

/-- A request with a schema fails as its schema does. -/
theorem perform_of_registerFlat {source : String} {e : Error} (hsource : q.source? = some source)
    (h : ∀ fresh, r.registerFlat source fresh = (.error e, r)) : r.perform q = (.error e, r) := by
  cases q with
  | flat source' fresh =>
    obtain rfl := Option.some.inj hsource
    exact h fresh
  | record type =>
    obtain rfl := Option.some.inj hsource
    simp only [perform, registerRecord, h]
  | laidOut name fresh layout => cases hsource
  | plain name kind => cases hsource
  | conversion key conversion => cases hsource

/-- Whatever the reason, a refused request gives its error and leaves the registry as it is. -/
theorem perform_of_refuses (hvalid : r.Valid) {e : Error} (h : r.Refuses q e) :
    r.perform q = (.error e, r) := by
  cases h with
  | unreadable hsource hparse =>
    exact perform_of_registerFlat hsource fun fresh => by simp only [registerFlat, hparse]
  | unfounded hsource hparse hlayout =>
    exact perform_of_registerFlat hsource fun fresh => by simp only [registerFlat, hparse, hlayout]
  | duplicate hdesc htaken hname => rw [perform_of_taken hdesc htaken, if_pos hname]
  | collision hdesc htaken hname => rw [perform_of_taken hdesc htaken, if_neg hname]
  | misfit hdesc hfree hslots =>
    cases hdesc with
    | record hparse hlayout =>
      rw [perform, registerRecord_of_free hvalid hparse hlayout hfree, if_neg hslots]
  | absent hfree => simp only [perform, setConversion, hfree]

/-- A request that describes a type is refused, or its key is free and its values fit. -/
theorem Describes.refuses_or (hdesc : r.Describes q name fresh layout) :
    (∃ e, r.Refuses q e) ∨ (q.Fits layout ∧ r.find? (Key.ofName name) = none) := by
  cases hfind : r.find? (Key.ofName name) with
  | some e =>
    by_cases hname : e.name = name
    · exact .inl ⟨_, .duplicate hdesc hfind hname⟩
    · exact .inl ⟨_, .collision hdesc hfind hname⟩
  | none =>
    cases q with
    | record type =>
      by_cases hslots : type.provided = layout.slots
      · exact .inr ⟨hslots, rfl⟩
      · exact .inl ⟨_, .misfit hdesc hfind hslots⟩
    | flat source fresh => exact .inr ⟨trivial, rfl⟩
    | laidOut name fresh layout => exact .inr ⟨trivial, rfl⟩
    | plain name kind => exact .inr ⟨trivial, rfl⟩
    | conversion key conversion => cases hdesc

/-- There is a reason to refuse a request, or it describes a type that can be added, or it is a
conversion to a type that is there. -/
theorem refuses_or (r : Registry) (q : Registration) :
    (∃ e, r.Refuses q e) ∨
    (∃ name fresh layout, r.Describes q name fresh layout ∧ q.Fits layout ∧
      r.find? (Key.ofName name) = none) ∨
    (∃ key conversion e, q = .conversion key conversion ∧ r.find? key = some e) := by
  have hdescribed : ∀ {name fresh layout}, r.Describes q name fresh layout →
      (∃ e, r.Refuses q e) ∨ (∃ name fresh layout, r.Describes q name fresh layout ∧
        q.Fits layout ∧ r.find? (Key.ofName name) = none) :=
    fun hdesc => hdesc.refuses_or.imp_right fun h => ⟨_, _, _, hdesc, h⟩
  have hread : ∀ source, q.source? = some source →
      (∃ e, r.Refuses q e) ∨ ∃ schema layout, Schema.parse source = .ok schema ∧
        r.layoutOfBody schema.body = .ok layout := by
    intro source hsource
    cases hparse : Schema.parse source with
    | error fault => exact .inl ⟨_, .unreadable hsource hparse⟩
    | ok schema =>
      cases hlayout : r.layoutOfBody schema.body with
      | error fault => exact .inl ⟨_, .unfounded hsource hparse hlayout⟩
      | ok layout => exact .inr ⟨schema, layout, rfl, hlayout⟩
  rw [← or_assoc]
  cases q with
  | laidOut name fresh layout => exact .inl (hdescribed .laidOut)
  | plain name kind => exact .inl (hdescribed .plain)
  | flat source fresh =>
    rcases hread source rfl with hrefused | ⟨schema, layout, hparse, hlayout⟩
    · exact .inl (.inl hrefused)
    · exact .inl (hdescribed (.flat hparse hlayout))
  | record type =>
    rcases hread type.schema rfl with hrefused | ⟨schema, layout, hparse, hlayout⟩
    · exact .inl (.inl hrefused)
    · exact .inl (hdescribed (.record hparse hlayout))
  | conversion key conversion =>
    cases hfind : r.find? key with
    | none => exact .inl (.inl ⟨_, .absent hfind⟩)
    | some e => exact .inr ⟨key, conversion, e, rfl, hfind⟩

/-- What a request can come to: a refusal, a new entry at the end, or a conversion. -/
theorem perform_cases (h : r.Valid) (q : Registration) :
    (∃ e, r.perform q = (.error e, r)) ∨
    (∃ name fresh layout, r.Describes q name fresh layout ∧ q.Fits layout ∧
      r.find? (Key.ofName name) = none ∧
      r.perform q = (.ok (Key.ofName name), r.added name fresh layout)) ∨
    (∃ key conversion e, q = .conversion key conversion ∧ r.find? key = some e ∧
      r.perform q = (.ok key, r.converted key conversion)) := by
  rcases refuses_or r q with ⟨e, hrefuses⟩ | ⟨name, fresh, layout, hdesc, hfits, hfree⟩ |
    ⟨key, conversion, e, rfl, hfind⟩
  · exact .inl ⟨e, perform_of_refuses h hrefuses⟩
  · rcases perform_of_free h hdesc hfree with ⟨-, hq⟩ | ⟨hunfit, -⟩
    · exact .inr (.inl ⟨name, fresh, layout, hdesc, hfits, hfree, hq⟩)
    · exact absurd hfits hunfit
  · refine .inr (.inr ⟨key, conversion, e, rfl, hfind, ?_⟩)
    simp only [perform, setConversion, hfind]
    rfl

/-- What a request that succeeds comes to. -/
theorem perform_ok_cases (h : r.Valid) {key : Key} (hok : (r.perform q).1 = .ok key) :
    (∃ name fresh layout, r.Describes q name fresh layout ∧ q.Fits layout ∧
      r.find? key = none ∧ key = Key.ofName name ∧
      r.perform q = (.ok key, r.added name fresh layout)) ∨
    (∃ conversion e, q = .conversion key conversion ∧ r.find? key = some e ∧
      r.perform q = (.ok key, r.converted key conversion)) := by
  rcases perform_cases h q with ⟨e, hq⟩ | ⟨name, fresh, layout, hdesc, hfits, hfree, hq⟩ |
    ⟨key', conversion, e, hconversion, hfind, hq⟩
  · rw [hq] at hok
    cases hok
  · obtain rfl : Key.ofName name = key := by simpa [hq] using hok
    exact .inl ⟨name, fresh, layout, hdesc, hfits, hfree, rfl, hq⟩
  · obtain rfl : key' = key := by simpa [hq] using hok
    exact .inr ⟨conversion, e, hconversion, hfind, hq⟩

/-! ## §4 Runs -/

theorem valid_perform (h : r.Valid) (q : Registration) : (r.perform q).2.Valid := by
  rcases perform_cases h q with ⟨e, hq⟩ | ⟨name, fresh, layout, _, _, hfree, hq⟩ |
    ⟨key, conversion, e, _, _, hq⟩
  · rw [hq]
    exact h
  · rw [hq]
    exact h.added hfree
  · rw [hq]
    exact h.converted key conversion

@[simp] theorem performAll_nil (r : Registry) : r.performAll [] = r := rfl

@[simp] theorem performAll_cons (r : Registry) (q : Registration) (rest : List Registration) :
    r.performAll (q :: rest) = (r.perform q).2.performAll rest := rfl

/-- What one request preserves in a valid registry, requests one after the other preserve. -/
theorem performAll_induction {P : Registry → Prop} {requests : List Registration}
    (hstep : ∀ r q, q ∈ requests → r.Valid → P r → P (r.perform q).2)
    (hvalid : r.Valid) (hstart : P r) : P (r.performAll requests) := by
  induction requests generalizing r with
  | nil => exact hstart
  | cons q rest ih =>
    exact ih (fun r q hq => hstep r q (List.mem_cons_of_mem _ hq)) (valid_perform hvalid q)
      (hstep r q List.mem_cons_self hvalid hstart)

theorem valid_performAll (h : r.Valid) (requests : List Registration) :
    (r.performAll requests).Valid :=
  performAll_induction (P := Valid) (fun _ q _ hr _ => valid_perform hr q) h h

/-- Whatever is found in `r` is found in `r'`, but for its conversion. -/
def Keeps (r r' : Registry) : Prop :=
  ∀ key e, r.find? key = some e → ∃ c, r'.find? key = some { e with conversion := c }

theorem Keeps.refl (r : Registry) : r.Keeps r :=
  fun _ e he => ⟨e.conversion, he⟩

theorem Keeps.trans {r'' : Registry} (h : r.Keeps r') (h' : r'.Keeps r'') : r.Keeps r'' := by
  intro key e he
  obtain ⟨c, hc⟩ := h key e he
  obtain ⟨c', hc'⟩ := h' key _ hc
  exact ⟨c', hc'⟩

theorem keeps_perform (h : r.Valid) (q : Registration) : r.Keeps (r.perform q).2 := by
  rcases perform_cases h q with ⟨e, hq⟩ | ⟨name, fresh, layout, _, _, hfree, hq⟩ |
    ⟨key, conversion, e, _, _, hq⟩
  · rw [hq]
    exact .refl r
  · intro key e he
    refine ⟨e.conversion, ?_⟩
    rw [hq, find?_added, if_neg, he]
    rintro rfl
    rw [hfree] at he
    cases he
  · intro other e he
    rw [hq, find?_converted]
    by_cases hother : key = other
    · subst hother
      exact ⟨some conversion, by rw [if_pos rfl, he]; rfl⟩
    · exact ⟨e.conversion, by rw [if_neg hother, he]⟩

theorem keeps_performAll (h : r.Valid) (requests : List Registration) :
    r.Keeps (r.performAll requests) :=
  performAll_induction (P := r.Keeps)
    (fun _ q _ hr hkeeps => hkeeps.trans (keeps_perform hr q)) h (.refl r)

/-- Types that stay keep their names and keys. -/
theorem Keeps.exists_mem (hkeeps : r.Keeps r') (h : r.Valid) (h' : r'.Valid) {e : TypeEntry}
    (he : e ∈ r.entries) : ∃ e' ∈ r'.entries, e'.key = e.key ∧ e'.name = e.name := by
  obtain ⟨c, hc⟩ := hkeeps e.key e (h.find?_key he)
  exact ⟨_, (h'.find?_iff_mem.mp hc).1, rfl, rfl⟩

/-! ## §5 Names -/

theorem Valid.findNamed?_iff (h : r.Valid) {e : TypeEntry} :
    r.findNamed? name = some e ↔ e ∈ r.entries ∧ e.name = name := by
  rw [findNamed?, Option.filter_eq_some_iff, beq_iff_eq]
  constructor
  · rintro ⟨he, hname⟩
    exact ⟨(h.find?_iff_mem.mp he).1, hname⟩
  · rintro ⟨he, rfl⟩
    refine ⟨?_, rfl⟩
    rw [← h.key_of_mem he]
    exact h.find?_key he

theorem Valid.contains_iff (h : r.Valid) :
    r.contains name = true ↔ ∃ e ∈ r.entries, e.name = name := by
  simp only [contains, Option.isSome_iff_exists, h.findNamed?_iff]

theorem Keeps.contains (hkeeps : r.Keeps r') (h : r.Valid) (h' : r'.Valid)
    (hcontains : r.contains name = true) : r'.contains name = true := by
  obtain ⟨e, he, hname⟩ := h.contains_iff.mp hcontains
  obtain ⟨e', he', -, hname'⟩ := hkeeps.exists_mem h h' he
  exact h'.contains_iff.mpr ⟨e', he', hname'.trans hname⟩

theorem Valid.contains_eq_false_iff (h : r.Valid) :
    r.contains name = false ↔ ∀ e ∈ r.entries, e.name ≠ name := by
  rw [← Bool.not_eq_true, h.contains_iff]
  simp

theorem Valid.resolve_eq_ok_iff (h : r.Valid) {key : Key} :
    r.resolve name = .ok key ↔ (∃ e ∈ r.entries, e.name = name) ∧ key = Key.ofName name := by
  unfold resolve
  cases hfind : r.findNamed? name with
  | none =>
    refine ⟨fun hok => (nomatch hok), ?_⟩
    rintro ⟨⟨e, he⟩, -⟩
    rw [h.findNamed?_iff.mpr he] at hfind
    cases hfind
  | some e =>
    obtain ⟨he, rfl⟩ := h.findNamed?_iff.mp hfind
    constructor
    · intro hok
      cases hok
      exact ⟨⟨e, he, rfl⟩, h.key_of_mem he⟩
    · rintro ⟨-, rfl⟩
      exact congrArg Except.ok (h.key_of_mem he)

theorem resolve_of_unnamed (h : r.Valid) (hname : ∀ e ∈ r.entries, e.name ≠ name) :
    r.resolve name = .error (.unknownType name) := by
  unfold resolve
  cases hfind : r.findNamed? name with
  | none => rfl
  | some e =>
    obtain ⟨he, hn⟩ := h.findNamed?_iff.mp hfind
    exact absurd hn (hname e he)

theorem Valid.keys_nodup (h : r.Valid) : (r.entries.map TypeEntry.key).Nodup := by
  rw [h.map_key_entries]
  exact h.consistent.nodup

/-- No two types have one name: they would have one key. -/
theorem Valid.names_nodup (h : r.Valid) : (r.entries.map TypeEntry.name).Nodup := by
  have hkeys : (r.entries.map TypeEntry.name).map Key.ofName = r.entries.map TypeEntry.key := by
    rw [List.map_map]
    exact List.map_congr_left fun e he => (h.key_of_mem he).symm
  refine List.Nodup.of_map Key.ofName ?_
  rw [hkeys]
  exact h.keys_nodup

/-- A name that shares its key with another one's type stays unknown, whatever is requested. -/
theorem resolve_of_collision (h : r.Valid) {e : TypeEntry} (he : e ∈ r.entries)
    (hname : name ≠ e.name) (hkey : Key.ofName name = e.key) (later : List Registration) :
    (r.performAll later).resolve name = .error (.unknownType name) := by
  have hlater := valid_performAll h later
  refine resolve_of_unnamed hlater fun e' he' hname' => ?_
  obtain ⟨c, hc⟩ := keeps_performAll h later e.key e (h.find?_key he)
  have hfound := hlater.find?_key he'
  rw [hlater.key_of_mem he', hname', hkey, hc] at hfound
  obtain rfl := Option.some.inj hfound
  exact hname hname'.symm

/-! ## §6 Bookkeeping -/

/-- The names and keys of the types that requests add, in the order of the requests. -/
def successes (r : Registry) : List Registration → List (String × Key)
  | [] => []
  | q :: rest =>
    (match q.name?, (r.perform q).1 with
      | some name, .ok key => [(name, key)]
      | _, _ => []) ++ (r.perform q).2.successes rest

/-- Requests lengthen the list of entries by the types that they add. -/
theorem entries_performAll (h : r.Valid) (requests : List Registration) :
    (r.performAll requests).entries.map (fun e => (e.name, e.key)) =
      r.entries.map (fun e => (e.name, e.key)) ++ r.successes requests := by
  induction requests generalizing r with
  | nil => simp [successes]
  | cons q rest ih =>
    rw [performAll_cons, ih (valid_perform h q), successes, ← List.append_assoc]
    congr 1
    rcases perform_cases h q with ⟨e, hq⟩ | ⟨name, fresh, layout, hdesc, _, hfree, hq⟩ |
      ⟨key, conversion, e, rfl, _, hq⟩
    · cases q.name? <;> simp [hq]
    · simp [hq, hdesc.name?, h.entries_added hfree, TypeEntry.new]
    · have hsame : ∀ e : TypeEntry, (if e.key = key then e.withConversion conversion else e).name
          = e.name ∧ (if e.key = key then e.withConversion conversion else e).key = e.key := by
        intro e
        split <;> exact ⟨rfl, rfl⟩
      simp [hq, Registration.name?, h.entries_converted, hsame]

/-- What the books of a registry say after some requests. -/
structure Bookkept (requests : List Registration) (r : Registry) : Prop where
  /-- No key is listed twice. -/
  order_nodup : r.catalog.order.Nodup
  /-- The listed keys are those under which a type is stored. -/
  mem_order_iff : ∀ key, key ∈ r.catalog.order ↔ key ∈ r.catalog.stored
  /-- Every type is stored under the key of its own name. -/
  key_eq : ∀ key e, r.catalog.stored[key]? = some e → e.key = key ∧ key = Key.ofName e.name
  /-- Listed are the types whose registration succeeded, in that order. -/
  listed : r.entries.map (fun e => (e.name, e.key)) = ({} : Registry).successes requests
  counted : r.size = (({} : Registry).successes requests).length
  /-- A type whose key is free is added, unless its values do not fit it. -/
  accepted : ∀ q name fresh layout, r.Describes q name fresh layout →
    r.find? (Key.ofName name) = none →
    ((r.perform q).1 = .ok (Key.ofName name) ↔ q.Fits layout)
  /-- A name is resolved exactly if a type has it, and then to its own key. -/
  resolve_iff : ∀ name key,
    r.resolve name = .ok key ↔ (∃ e ∈ r.entries, e.name = name) ∧ key = Key.ofName name
  nameOf_resolve : ∀ name key, r.resolve name = .ok key → r.nameOf? key = some name
  /-- The listing pairs names and keys one to one. -/
  names_nodup : (r.entries.map TypeEntry.name).Nodup
  keys_nodup : (r.entries.map TypeEntry.key).Nodup
  /-- A name that only shares its key with the name of a type is refused as a collision, and it
  is never resolved. -/
  collision : ∀ e ∈ r.entries, ∀ name, name ≠ e.name → Key.ofName name = e.key →
    (∀ q fresh layout, r.Describes q name fresh layout →
      r.perform q = (.error (.keyCollision name e.name e.key), r)) ∧
    ∀ later, (r.performAll later).resolve name = .error (.unknownType name)

/-- **The books of a registry**, after any requests to an empty one. -/
theorem bookkeeping (requests : List Registration) :
    Bookkept requests (({} : Registry).performAll requests) := by
  have hvalid := valid_performAll valid_empty requests
  have hlisted := entries_performAll valid_empty requests
  rw [show ({} : Registry).entries = [] from rfl, List.map_nil, List.nil_append] at hlisted
  generalize ({} : Registry).performAll requests = r at hvalid hlisted
  constructor
  case order_nodup => exact hvalid.consistent.nodup
  case mem_order_iff =>
    intro key
    rw [hvalid.consistent.mem_order_iff, Catalog.find?, Std.ExtTreeMap.isSome_getElem?_iff_mem]
  case key_eq =>
    intro key e he
    have hkey := hvalid.keyed key e he
    exact ⟨hkey, hkey.symm.trans (hvalid.key_eq key e he)⟩
  case listed => exact hlisted
  case counted =>
    rw [← hlisted, List.length_map, size, hvalid.consistent.size_eq_length,
      ← hvalid.map_key_entries, List.length_map]
  case accepted =>
    intro q name fresh layout hdesc hfree
    rcases perform_of_free hvalid hdesc hfree with ⟨hfits, hq⟩ | ⟨hunfit, e, hq⟩
    · simp [hq, hfits]
    · simp [hq, hunfit]
  case resolve_iff => exact fun name key => hvalid.resolve_eq_ok_iff
  case nameOf_resolve =>
    intro name key hok
    obtain ⟨⟨e, he, rfl⟩, rfl⟩ := hvalid.resolve_eq_ok_iff.mp hok
    rw [nameOf?, ← hvalid.key_of_mem he, hvalid.find?_key he]
    rfl
  case names_nodup => exact hvalid.names_nodup
  case keys_nodup => exact hvalid.keys_nodup
  case collision =>
    intro e he name hname hkey
    refine ⟨fun q fresh layout hdesc => ?_, resolve_of_collision hvalid he hname hkey⟩
    have htaken : r.find? (Key.ofName name) = some e := by
      rw [hkey]
      exact hvalid.find?_key he
    rw [perform_of_taken hdesc htaken, if_neg (Ne.symm hname), hkey]

/-- There are different names with one key. -/
example : Key.ofName "8yn0iYCKYHlIj4-BwPqk" = Key.ofName "GReLUrM4wMqfg9yzV3KQ" := by
  decide

end Registry

end SceneScript
