/-
SceneScript.Proofs.AtomicityTheorems — a request to a registry is carried out whole or not at all.

A request can be refused at five stages: its schema cannot be read, a type inside
it is not there, its name is taken, its key is taken by another name, or its
values do not fit the layout; and a conversion needs the type that it is for. The
last stage of a flat kind comes after the type has been added, and then the type
is taken out again.

`requests_atomic` says what that comes to at any time. A refused request leaves
both books as they are. A type that is registered makes one entry more, at the
end and under a key that was free (`OneMore`); a conversion changes one entry
(`OneConverted`). And a history comes to the same registry as the requests among
it that were accepted (`performAll_accepted`).
-/
import SceneScript.Proofs.RegistryTheorems

namespace SceneScript

namespace Registry

variable {r r' : Registry} {q : Registration}

/-! ## §1 One entry more, one conversion more -/

/-- `r'` is `r` with one more entry: it comes last, its key was free, and no other entry is
different. -/
structure OneMore (r r' : Registry) (e : TypeEntry) : Prop where
  free : r.find? e.key = none
  unlisted : e.key ∉ r.catalog.order
  order : r'.catalog.order = r.catalog.order ++ [e.key]
  found : r'.find? e.key = some e
  others : ∀ key, key ≠ e.key → r'.find? key = r.find? key

/-- `r'` is `r` with a conversion attached to the entry of a key, and no other entry is
different. -/
structure OneConverted (r r' : Registry) (key : Key) (conversion : Conversion) : Prop where
  order : r'.catalog.order = r.catalog.order
  found : ∃ e, r.find? key = some e ∧ r'.find? key = some (e.withConversion conversion)
  others : ∀ other, other ≠ key → r'.find? other = r.find? other

theorem oneMore_added (hvalid : r.Valid) {name : String} (fresh : Payload) (layout : Layout)
    (hfree : r.find? (Key.ofName name) = none) :
    r.OneMore (r.added name fresh layout) (.new name fresh layout) where
  free := hfree
  unlisted := hvalid.consistent.not_mem_order hfree
  order := rfl
  found := by
    rw [find?_added]
    exact if_pos rfl
  others key hkey := by
    rw [find?_added]
    exact if_neg (Ne.symm hkey)

theorem oneConverted_converted {key : Key} {e : TypeEntry} (hfind : r.find? key = some e)
    (conversion : Conversion) : r.OneConverted (r.converted key conversion) key conversion where
  order := rfl
  found := by
    refine ⟨e, hfind, ?_⟩
    rw [find?_converted, if_pos rfl, hfind]
    rfl
  others other hother := by rw [find?_converted, if_neg (Ne.symm hother)]

/-! ## §2 Histories -/

/-- The requests that are not refused, when all are made one after the other. -/
def accepted (r : Registry) : List Registration → List Registration
  | [] => []
  | q :: rest =>
    match r.perform q with
    | (.ok _, r) => q :: r.accepted rest
    | (.error _, r) => r.accepted rest

/-- Without the requests that are refused, a history comes to the same registry. -/
theorem performAll_accepted (hvalid : r.Valid) (requests : List Registration) :
    r.performAll (r.accepted requests) = r.performAll requests := by
  induction requests generalizing r with
  | nil => rfl
  | cons q rest ih =>
    have hnext := ih (valid_perform hvalid q)
    rw [performAll_cons, ← hnext, accepted]
    rcases perform_cases hvalid q with ⟨e, hq⟩ | ⟨name, fresh, layout, _, _, _, hq⟩ |
      ⟨key, conversion, e, _, _, hq⟩
    · rw [hq]
    · simp only [hq, performAll_cons]
    · simp only [hq, performAll_cons]

/-! ## §3 Atomicity -/

/-- A request is refused for a reason, and with the error of that reason. -/
theorem perform_error_iff (hvalid : r.Valid) {e : Error} :
    (r.perform q).1 = .error e ↔ r.Refuses q e := by
  refine ⟨fun he => ?_, fun hrefuses => by rw [perform_of_refuses hvalid hrefuses]⟩
  rcases refuses_or r q with ⟨e', hrefuses⟩ | ⟨name, fresh, layout, hdesc, hfits, hfree⟩ |
    ⟨key, conversion, e', rfl, hfind⟩
  · rw [perform_of_refuses hvalid hrefuses] at he
    cases he
    exact hrefuses
  · rcases perform_of_free hvalid hdesc hfree with ⟨-, hq⟩ | ⟨hunfit, -⟩
    · rw [hq] at he
      cases he
    · exact absurd hfits hunfit
  · simp only [perform, setConversion, hfind] at he
    cases he

/-- The request is carried out whole or not at all. -/
structure Atomic (r : Registry) (q : Registration) : Prop where
  /-- It is refused exactly if there is a reason, with the error of that reason. -/
  error_iff : ∀ e, (r.perform q).1 = .error e ↔ r.Refuses q e
  /-- If it is refused, both books stay as they are. -/
  refused : ∀ e, (r.perform q).1 = .error e →
    (r.perform q).2.catalog.stored = r.catalog.stored ∧
    (r.perform q).2.catalog.order = r.catalog.order
  /-- If it registers a type, there is one entry more, of the type that it describes. -/
  registered : ∀ key, (r.perform q).1 = .ok key → (∀ type c, q ≠ .conversion type c) →
    ∃ name fresh layout, r.Describes q name fresh layout ∧ key = Key.ofName name ∧
      r.OneMore (r.perform q).2 (.new name fresh layout)
  /-- If it attaches a conversion, one entry has it. -/
  converted : ∀ key type c, (r.perform q).1 = .ok key → q = .conversion type c →
    key = type ∧ r.OneConverted (r.perform q).2 type c
  /-- A flat kind whose values do not fit its schema is refused, whatever types are inside it and
  whether or not its name is taken, and nothing is left of it. -/
  misfit : ∀ type name fresh layout, q = .record type → r.Describes q name fresh layout →
    type.provided ≠ layout.slots → ∃ e, r.perform q = (.error e, r)

theorem Valid.atomic (hvalid : r.Valid) (q : Registration) : r.Atomic q := by
  constructor
  case error_iff => exact fun e => perform_error_iff hvalid
  case refused =>
    intro e he
    rw [perform_of_refuses hvalid ((perform_error_iff hvalid).mp he)]
    exact ⟨rfl, rfl⟩
  case registered =>
    intro key hok hnot
    rcases perform_ok_cases hvalid hok with
      ⟨name, fresh, layout, hdesc, -, hfree, rfl, hq⟩ | ⟨c, e, hc, -, -⟩
    · rw [hq]
      exact ⟨name, fresh, layout, hdesc, rfl, oneMore_added hvalid fresh layout hfree⟩
    · exact absurd hc (hnot key c)
  case converted =>
    rintro key type c hok rfl
    rcases perform_ok_cases hvalid hok with
      ⟨name, fresh, layout, hdesc, -, -, -, -⟩ | ⟨c', e, hc, hfind, hq⟩
    · cases hdesc
    · cases hc
      rw [hq]
      exact ⟨rfl, oneConverted_converted hfind c⟩
  case misfit =>
    rintro type name fresh layout rfl hdesc hslots
    rcases hdesc.refuses_or with ⟨e, hrefuses⟩ | ⟨hfits, -⟩
    · exact ⟨e, perform_of_refuses hvalid hrefuses⟩
    · exact absurd hfits hslots

/-- **Requests are atomic.** After any requests to an empty registry, every request is carried out
whole or not at all; and the requests that were refused until then might as well not have been
made. -/
theorem requests_atomic (requests : List Registration) :
    (∀ q, Atomic (({} : Registry).performAll requests) q) ∧
    ({} : Registry).performAll (accepted {} requests) = ({} : Registry).performAll requests :=
  ⟨(valid_performAll valid_empty requests).atomic, performAll_accepted valid_empty requests⟩

/-- The name of a kind that does not fit stays free. -/
example : ({} : Registry).accepted
    [.record ⟨.vec3 {}, "pair = \x7b f64 x; f64 y; \x7d", 3⟩, .plain "pair" .number] =
    [.plain "pair" .number] := by
  rfl

end Registry

end SceneScript
