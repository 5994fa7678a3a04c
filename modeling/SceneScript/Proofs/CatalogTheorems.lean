/-
SceneScript.Proofs.CatalogTheorems — the two books of a catalog stay in step.

`Consistent` says that they agree: no key is listed twice, and the listed keys
are exactly those under which something is stored. Adding under a free key and
updating keep it (`Consistent.add`, `Consistent.update`), and what has been added
under a free key can be taken out again without a trace
(`Consistent.remove_add`).

For a catalog in which whatever is stored knows its own key (`Keyed`), the list
of items is the list of keys read off the store, so that finding by key and
being an item come to the same (`Keyed.find?_iff_mem`).

`Over` says that a catalog is one on top of another. What is done to the upper one
can then be done to the whole, whatever is below (`Over.add`, `Over.update`).
-/
import SceneScript.Catalog
import Mathlib.Data.List.Basic

namespace SceneScript

namespace Catalog

variable {α : Type} {c : Catalog α} {key : Key} {a : α}

/-! ## §1 Consistency -/

/-- The two books agree. -/
structure Consistent (c : Catalog α) : Prop where
  nodup : c.order.Nodup
  mem_order_iff : ∀ key, key ∈ c.order ↔ (c.find? key).isSome

theorem consistent_empty : ({} : Catalog α).Consistent := by
  refine ⟨List.nodup_nil, fun key => ?_⟩
  simp

theorem Consistent.not_mem_order (h : c.Consistent) (hfree : c.find? key = none) :
    key ∉ c.order := by
  rw [h.mem_order_iff, hfree]
  simp

theorem Consistent.add (h : c.Consistent) (hfree : c.find? key = none) :
    (c.add key a).Consistent := by
  constructor
  · rw [order_add, List.nodup_append]
    refine ⟨h.nodup, by simp, fun k hk l hl => ?_⟩
    obtain rfl := List.mem_singleton.mp hl
    rintro rfl
    exact h.not_mem_order hfree hk
  · intro other
    rw [order_add, find?_add, List.mem_append, List.mem_singleton, h.mem_order_iff]
    by_cases hk : key = other
    · simp [hk]
    · simp [hk, Ne.symm hk]

theorem Consistent.update (h : c.Consistent) (f : α → α) : (c.update key f).Consistent := by
  refine ⟨h.nodup, fun other => ?_⟩
  rw [order_update, find?_update, h.mem_order_iff]
  by_cases hk : key = other
  · simp [hk]
  · simp [hk]

/-- Taking out what has just been added under a free key leaves both books as they were. -/
theorem Consistent.remove_add (h : c.Consistent) (hfree : c.find? key = none) :
    (c.add key a).remove key = c := by
  have hstored : ((c.add key a).remove key).stored = c.stored := by
    refine Std.ExtTreeMap.ext_getElem? fun other => ?_
    show ((c.add key a).remove key).find? other = c.find? other
    rw [find?_remove, find?_add]
    by_cases hk : key = other
    · subst hk
      rw [if_pos rfl, hfree]
    · rw [if_neg hk, if_neg hk]
  have horder : (c.order ++ [key]).filter (fun other => other != key) = c.order := by
    rw [List.filter_append, List.filter_eq_self.mpr]
    · simp
    · intro other hother
      have hne : other ≠ key := by
        rintro rfl
        exact h.not_mem_order hfree hother
      simpa using hne
  exact congr (congrArg Catalog.mk hstored) horder

/-- There are as many things stored as there are keys listed. -/
theorem Consistent.size_eq_length (h : c.Consistent) : c.size = c.order.length := by
  have hperm : c.stored.keys.Perm c.order := by
    refine (List.perm_ext_iff_of_nodup Std.ExtTreeMap.nodup_keys h.nodup).mpr fun key => ?_
    rw [Std.ExtTreeMap.mem_keys, h.mem_order_iff, find?, Std.ExtTreeMap.isSome_getElem?_iff_mem]
  rw [← hperm.length_eq, Std.ExtTreeMap.length_keys, size]

/-! ## §2 Items -/

/-- Whatever is stored knows its own key. -/
def Keyed (keyOf : α → Key) (c : Catalog α) : Prop :=
  ∀ key a, c.find? key = some a → keyOf a = key

variable {keyOf : α → Key}

theorem keyed_empty : Keyed keyOf {} := by
  intro key a h
  simp at h

theorem Keyed.add (h : c.Keyed keyOf) (hkey : keyOf a = key) :
    (c.add key a).Keyed keyOf := by
  intro other b hb
  rw [find?_add] at hb
  split at hb
  · obtain rfl := Option.some.inj hb
    rw [hkey]
    assumption
  · exact h other b hb

theorem Keyed.update (h : c.Keyed keyOf) {f : α → α} (hf : ∀ b, keyOf (f b) = keyOf b) :
    (c.update key f).Keyed keyOf := by
  intro other b hb
  rw [find?_update] at hb
  split at hb
  · obtain ⟨b', hb', rfl⟩ := Option.map_eq_some_iff.mp hb
    rw [hf, h key b' hb']
    assumption
  · exact h other b hb

/-- The keys of the items are the listed keys. -/
theorem Consistent.map_items (h : c.Consistent) (hk : c.Keyed keyOf) :
    c.items.map keyOf = c.order := by
  have hkeys : ∀ keys : List Key, (∀ key ∈ keys, (c.find? key).isSome) →
      (keys.filterMap c.find?).map keyOf = keys := by
    intro keys
    induction keys with
    | nil => intro _; rfl
    | cons key rest ih =>
      intro hsome
      obtain ⟨b, hb⟩ := Option.isSome_iff_exists.mp (hsome key (by simp))
      rw [List.filterMap_cons_some hb, List.map_cons, hk key b hb,
        ih fun other hother => hsome other (List.mem_cons_of_mem _ hother)]
  exact hkeys c.order fun key hkey => (h.mem_order_iff key).mp hkey

theorem mem_items (ha : a ∈ c.items) : ∃ key, c.find? key = some a := by
  obtain ⟨key, _, hkey⟩ := List.mem_filterMap.mp ha
  exact ⟨key, hkey⟩

/-- Finding something under a key is finding it among the items, with that key. -/
theorem Keyed.find?_iff_mem (hk : c.Keyed keyOf) (h : c.Consistent) :
    c.find? key = some a ↔ a ∈ c.items ∧ keyOf a = key := by
  constructor
  · intro ha
    have hlisted : key ∈ c.order := by
      rw [h.mem_order_iff, ha]
      rfl
    exact ⟨List.mem_filterMap.mpr ⟨key, hlisted, ha⟩, hk key a ha⟩
  · rintro ⟨ha, rfl⟩
    obtain ⟨other, hother⟩ := mem_items ha
    rw [hk other a hother]
    exact hother

/-- A key is free if and only if no item has it. -/
theorem Keyed.find?_eq_none_iff (hk : c.Keyed keyOf) (h : c.Consistent) :
    c.find? key = none ↔ ∀ a ∈ c.items, keyOf a ≠ key := by
  rw [Option.eq_none_iff_forall_ne_some]
  refine forall_congr' fun a => ?_
  rw [ne_eq, hk.find?_iff_mem h, not_and]

/-- What is added under a free key is the last item. -/
theorem Consistent.items_add (h : c.Consistent) (hfree : c.find? key = none) :
    (c.add key a).items = c.items ++ [a] := by
  have hold : c.order.filterMap (c.add key a).find? = c.order.filterMap c.find? := by
    refine List.filterMap_congr fun other hother => ?_
    rw [find?_add, if_neg]
    rintro rfl
    exact h.not_mem_order hfree hother
  have hnew : (c.add key a).find? key = some a := by
    rw [find?_add, if_pos rfl]
  rw [items, order_add, List.filterMap_append, hold, List.filterMap_cons_some hnew]
  rfl

/-- An update changes one item and leaves the items in their places. -/
theorem Keyed.items_update (hk : c.Keyed keyOf) (f : α → α) :
    (c.update key f).items = c.items.map fun b => if keyOf b = key then f b else b := by
  rw [items, items, order_update, List.map_filterMap]
  refine List.filterMap_congr fun other _ => ?_
  rw [find?_update]
  by_cases hother : key = other
  · subst hother
    rw [if_pos rfl]
    cases hb : c.find? key with
    | none => rfl
    | some b => simp [hk key b hb]
  · rw [if_neg hother]
    cases hb : c.find? other with
    | none => rfl
    | some b => simp [hk other b hb, Ne.symm hother]

/-! ## §3 One catalog on top of another -/

/-- The catalog `c` is `own` on top of `base`: it lists what is in `base` and then what is in `own`,
and it finds what is in either, in `own` first. -/
structure Over (base own c : Catalog α) : Prop where
  order : c.order = base.order ++ own.order
  find? : ∀ key, c.find? key = (own.find? key).or (base.find? key)

variable {base own : Catalog α}

theorem over_empty (c : Catalog α) : Over c {} c :=
  ⟨(List.append_nil _).symm, fun key => by simp⟩

/-- What is added to the upper catalog is added to the whole. -/
theorem Over.add (h : Over base own c) (key : Key) (a : α) :
    Over base (own.add key a) (c.add key a) := by
  constructor
  · rw [order_add, order_add, h.order, List.append_assoc]
  · intro other
    rw [find?_add, find?_add, h.find?]
    split <;> rfl

/-- What is changed in the upper catalog is changed in the whole. -/
theorem Over.update (h : Over base own c) (hown : (own.find? key).isSome) (f : α → α) :
    Over base (own.update key f) (c.update key f) := by
  constructor
  · rw [order_update, order_update, h.order]
  · intro other
    rw [find?_update, find?_update, h.find?, h.find?]
    split
    · obtain ⟨b, hb⟩ := Option.isSome_iff_exists.mp hown
      simp [hb]
    · rfl

/-- If the keys are apart, the items of the upper catalog come after those of the lower one. -/
theorem Over.items (h : Over base own c) (hown : own.Consistent) (hc : c.Consistent) :
    c.items = base.items ++ own.items := by
  have hnodup := hc.nodup
  rw [h.order, List.nodup_append] at hnodup
  have hlower : base.order.filterMap c.find? = base.order.filterMap base.find? := by
    refine List.filterMap_congr fun key hkey => ?_
    have hnone : own.find? key = none := by
      by_contra hsome
      have hlisted := (hown.mem_order_iff key).mpr (Option.isSome_iff_ne_none.mpr hsome)
      exact hnodup.2.2 key hkey key hlisted rfl
    rw [h.find?, hnone, Option.none_or]
  have hupper : own.order.filterMap c.find? = own.order.filterMap own.find? := by
    refine List.filterMap_congr fun key hkey => ?_
    obtain ⟨b, hb⟩ := Option.isSome_iff_exists.mp ((hown.mem_order_iff key).mp hkey)
    rw [h.find?, hb, Option.some_or]
  rw [Catalog.items, h.order, List.filterMap_append, hlower, hupper]
  rfl

end Catalog

end SceneScript
