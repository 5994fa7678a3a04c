/-
SceneScript.Proofs.TreeTheorems — trees of files, seen through what is at each place.

A tree is a list of places with what is at them, and everything about it is said through
`Tree.lookup`. `Tree.Sound` is what makes such a list a tree: no place is listed twice, the root is
not listed, and whatever is somewhere is in a directory. So nothing is below a place that is no
directory (`Sound.bare`).

The three ways of changing a tree are pinned down by what is then at each place
(`lookup_insert`, `lookup_erase`), for `move` by the relation `Tree.Moved`: what was at and below
one place is at and below another, nothing is left behind, and all else is as it was
(`Clearable.moved`). Each of them leaves a sound tree sound.
-/
import Mathlib.Data.List.Find
import Mathlib.Data.List.Infix
import Mathlib.Data.List.Nodup
import SceneScript.Files

namespace SceneScript.Tree

variable {t t' : Tree} {place other dir source target rest : Place} {entry : FileEntry}
  {name : String}

/-! ## §1 Places -/

theorem lookup_root (t : Tree) : t.lookup [] = some .directory := if_pos rfl

theorem lookup_of_ne_nil (h : place ≠ []) :
    t.lookup place = (t.entries.find? fun e => e.1 == place).map (·.2) := if_neg h

theorem ne_nil_of_lookup (h : t.lookup place ≠ some .directory) : place ≠ [] := by
  rintro rfl
  exact h (lookup_root t)

/-- Nothing is at a place exactly if it is not listed and is not the root. -/
theorem lookup_eq_none_iff :
    t.lookup place = none ↔ place ≠ [] ∧ ∀ e ∈ t.entries, e.1 ≠ place := by
  by_cases hplace : place = []
  · rw [hplace, lookup_root]
    simp
  · rw [lookup_of_ne_nil hplace, Option.map_eq_none_iff, List.find?_eq_none]
    simp [hplace]

/-- The places of a tree under other names: what is at one is what was at the place that is renamed
to it, if there is just one. -/
theorem lookup_map {f : Place → Place} (hplace : place ≠ []) (hother : other ≠ [])
    (h : ∀ e ∈ t.entries, f e.1 = place ↔ e.1 = other) :
    (⟨t.entries.map fun e => (f e.1, e.2), t.base⟩ : Tree).lookup place = t.lookup other := by
  have hsame : t.entries.find? ((fun e => e.1 == place) ∘ fun e => (f e.1, e.2)) =
      t.entries.find? fun e => e.1 == other := by
    refine List.find?_congr fun e he => Bool.eq_iff_iff.mpr ?_
    rw [Function.comp_apply, beq_iff_eq, beq_iff_eq]
    exact h e he
  rw [lookup_of_ne_nil hplace, lookup_of_ne_nil hother, List.find?_map, hsame, Option.map_map]
  rfl

/-- What makes a list of places a tree: each place is listed once, the root is not, and whatever is
at a place is in a directory. -/
structure Sound (t : Tree) : Prop where
  nodup : (t.entries.map (·.1)).Nodup
  ne_root : ∀ e ∈ t.entries, e.1 ≠ []
  in_directory : ∀ e ∈ t.entries, t.lookup e.1.dropLast = some .directory

instance (t : Tree) : Decidable t.Sound :=
  decidable_of_iff ((t.entries.map (·.1)).Nodup ∧ (∀ e ∈ t.entries, e.1 ≠ []) ∧
      ∀ e ∈ t.entries, t.lookup e.1.dropLast = some .directory)
    ⟨fun ⟨hnodup, hroot, hdir⟩ => ⟨hnodup, hroot, hdir⟩,
      fun ⟨hnodup, hroot, hdir⟩ => ⟨hnodup, hroot, hdir⟩⟩

/-- The working directory has no part in it. -/
theorem Sound.rebase (h : t.Sound) (base : Place) : (t.rebase base).Sound :=
  ⟨h.nodup, h.ne_root, h.in_directory⟩

theorem Sound.parent (h : t.Sound) (hfound : t.lookup place = some entry) :
    t.lookup place.dropLast = some .directory := by
  by_cases hplace : place = []
  · rw [hplace]
    exact lookup_root t
  · by_cases hlisted : ∃ e ∈ t.entries, e.1 = place
    · obtain ⟨e, he, rfl⟩ := hlisted
      exact h.in_directory e he
    · rw [lookup_eq_none_iff.mpr ⟨hplace, fun e he heq => hlisted ⟨e, he, heq⟩⟩] at hfound
      cases hfound

theorem sound_of_parent (hnodup : (t.entries.map (·.1)).Nodup) (hroot : ∀ e ∈ t.entries, e.1 ≠ [])
    (hparent : ∀ place entry, t.lookup place = some entry →
      t.lookup place.dropLast = some .directory) : t.Sound where
  nodup := hnodup
  ne_root := hroot
  in_directory e he := by
    cases hfound : t.lookup e.1 with
    | none => exact absurd rfl ((lookup_eq_none_iff.mp hfound).2 e he)
    | some entry => exact hparent _ entry hfound

/-- No place is above the place above it. -/
theorem not_prefix_dropLast (h : place ≠ []) : ¬ place <+: place.dropLast := by
  intro hunder
  have hlength := hunder.length_le
  have hpos := List.length_pos_iff.mpr h
  rw [List.length_dropLast] at hlength
  omega

/-- What something is below is a directory. -/
theorem Sound.directory_above (h : t.Sound) (hrest : rest ≠ [])
    (hfound : t.lookup (place ++ rest) = some entry) : t.lookup place = some .directory := by
  induction rest using List.reverseRecOn generalizing entry with
  | nil => exact absurd rfl hrest
  | append_singleton front last ih =>
    have hparent := h.parent hfound
    rw [← List.append_assoc, List.dropLast_concat] at hparent
    by_cases hfront : front = []
    · rwa [hfront, List.append_nil] at hparent
    · exact ih hfront hparent

/-- Nothing is below the place. -/
def Bare (t : Tree) (place : Place) : Prop := ∀ rest, rest ≠ [] → t.lookup (place ++ rest) = none

/-- Only directories have something below them. -/
theorem Sound.bare (h : t.Sound) (hplace : t.lookup place ≠ some .directory) : t.Bare place := by
  intro rest hrest
  cases hfound : t.lookup (place ++ rest) with
  | none => rfl
  | some entry => exact absurd (h.directory_above hrest hfound) hplace

theorem isEmptyAt_iff : t.isEmptyAt place = true ↔ t.Bare place := by
  simp only [isEmptyAt, List.all_eq_true, Bare, lookup_eq_none_iff]
  constructor
  · intro h rest hrest
    refine ⟨List.append_ne_nil_of_right_ne_nil place hrest, fun e he heq => ?_⟩
    have hunder : place.isPrefixOf (place ++ rest) = true :=
      List.isPrefixOf_iff_prefix.mpr (List.prefix_append place rest)
    have hlength : 0 < rest.length := List.length_pos_iff.mpr hrest
    have hbelow := h e he
    rw [heq] at hbelow
    simp [hunder, hlength] at hbelow
  · intro h e he
    by_cases hunder : place <+: e.1
    · obtain ⟨rest, hrest⟩ := hunder
      by_cases hnil : rest = []
      · simp [← hrest, hnil]
      · exact absurd hrest.symm ((h rest hnil).2 e he)
    · have hnot : place.isPrefixOf e.1 = false :=
        Bool.eq_false_iff.mpr (mt List.isPrefixOf_iff_prefix.mp hunder)
      simp [hnot]

/-! ## §2 Entries that come and go -/

theorem lookup_insert (hfree : t.lookup place = none) (entry : FileEntry) (other : Place) :
    (t.insert place entry).lookup other = if other = place then some entry else t.lookup other := by
  obtain ⟨hplace, hunlisted⟩ := lookup_eq_none_iff.mp hfree
  by_cases hother : other = []
  · rw [hother, lookup_root, lookup_root, if_neg (Ne.symm hplace)]
  · rw [lookup_of_ne_nil hother, lookup_of_ne_nil hother, insert, List.find?_append]
    split
    · next heq =>
      have hnone : (t.entries.find? fun e => e.1 == other) = none := by
        refine List.find?_eq_none.mpr fun e he => ?_
        rw [heq]
        simpa using hunlisted e he
      rw [hnone, Option.none_or, heq]
      simp
    · next hne =>
      have hlast : ([(place, entry)].find? fun e => e.1 == other) = none := by
        simp [Ne.symm hne]
      rw [hlast, Option.or_none]

theorem lookup_erase (hplace : place ≠ []) (other : Place) :
    (t.erase place).lookup other = if other = place then none else t.lookup other := by
  by_cases hother : other = []
  · rw [hother, lookup_root, lookup_root, if_neg (Ne.symm hplace)]
  · rw [lookup_of_ne_nil hother, lookup_of_ne_nil hother, erase, List.find?_filter]
    split
    · next heq =>
      have hnone : (t.entries.find? fun e => decide ((e.1 != place) = true ∧
          (e.1 == other) = true)) = none := by
        refine List.find?_eq_none.mpr fun e _ => ?_
        simp [heq]
      rw [hnone, Option.map_none]
    · next hne =>
      congr 1
      refine List.find?_congr fun e _ => ?_
      by_cases he : e.1 = other <;> simp [he, hne]

theorem erase_of_free (hfree : t.lookup place = none) : t.erase place = t := by
  obtain ⟨-, hunlisted⟩ := lookup_eq_none_iff.mp hfree
  have hentries : (t.entries.filter fun e => e.1 != place) = t.entries :=
    List.filter_eq_self.mpr fun e he => bne_iff_ne.mpr (hunlisted e he)
  exact congrArg (Tree.mk · t.base) hentries

theorem Sound.insert (h : t.Sound) (hdir : t.lookup place.dropLast = some .directory)
    (hfree : t.lookup place = none) : (t.insert place entry).Sound := by
  obtain ⟨hplace, hunlisted⟩ := lookup_eq_none_iff.mp hfree
  have hkept {place' : Place} (hfound : t.lookup place' = some .directory) :
      (t.insert place entry).lookup place' = some .directory := by
    rw [lookup_insert hfree, if_neg, hfound]
    rintro rfl
    rw [hfree] at hfound
    cases hfound
  refine sound_of_parent ?nodup ?ne_root ?parent
  case nodup =>
    rw [Tree.insert, List.map_append]
    refine List.nodup_append.mpr ⟨h.nodup, List.nodup_singleton _, fun a ha b hb => ?_⟩
    obtain ⟨e, he, rfl⟩ := List.mem_map.mp ha
    rw [List.mem_singleton.mp hb]
    exact hunlisted e he
  case ne_root =>
    intro e he
    rcases List.mem_append.mp he with he | he
    · exact h.ne_root e he
    · rw [List.mem_singleton.mp he]
      exact hplace
  case parent =>
    intro other entry' hfound
    rw [lookup_insert hfree] at hfound
    split at hfound
    · next heq =>
      rw [heq]
      exact hkept hdir
    · exact hkept (h.parent hfound)

theorem Sound.erase (h : t.Sound) (hplace : place ≠ []) (hbare : t.Bare place) :
    (t.erase place).Sound := by
  refine sound_of_parent ?nodup ?ne_root ?parent
  case nodup => exact h.nodup.sublist (List.filter_sublist.map _)
  case ne_root => exact fun e he => h.ne_root e (List.mem_of_mem_filter he)
  case parent =>
    intro other entry' hfound
    rw [lookup_erase hplace] at hfound
    split at hfound
    · cases hfound
    · next hne =>
      rw [lookup_erase hplace, if_neg, h.parent hfound]
      -- What is left is not below the place, so its directory is not the place.
      intro hparent
      by_cases hnil : other = []
      · rw [hnil] at hparent
        exact hplace hparent.symm
      · have hbelow := hbare [other.getLast hnil] (List.cons_ne_nil _ _)
        rw [← hparent, List.dropLast_concat_getLast, hfound] at hbelow
        cases hbelow

/-! ## §3 Moving -/

/-- What was at and below the source is at and below the target, nothing is left at the source, and
all that is neither at or below the one nor at or below the other is as it was. -/
structure Moved (t : Tree) (source target : Place) (t' : Tree) : Prop where
  arrived : ∀ rest, t'.lookup (target ++ rest) = t.lookup (source ++ rest)
  gone : ∀ rest, t'.lookup (source ++ rest) = none
  others : ∀ place, ¬ source <+: place → ¬ target <+: place → t'.lookup place = t.lookup place
  base_eq : t'.base = t.base

/-- Where a place is when the source has become the target. -/
def shift (source target place : Place) : Place :=
  if source.isPrefixOf place then target ++ place.drop source.length else place

theorem move_eq (t : Tree) (source target : Place) :
    t.move source target = ⟨t.entries.map fun e => (shift source target e.1, e.2), t.base⟩ := rfl

theorem shift_append (source target rest : Place) :
    shift source target (source ++ rest) = target ++ rest := by
  rw [shift, if_pos (List.isPrefixOf_iff_prefix.mpr (List.prefix_append source rest)),
    List.drop_left]

theorem shift_of_not_below (h : ¬ source <+: place) : shift source target place = place :=
  if_neg (mt List.isPrefixOf_iff_prefix.mp h)

/-- Places that are not at or below the target have not been moved. -/
theorem shift_eq_iff_of_not_below (hsource : ¬ source <+: place) (htarget : ¬ target <+: place) :
    shift source target other = place ↔ other = place := by
  by_cases hbelow : source <+: other
  · obtain ⟨rest, hrest⟩ := hbelow
    rw [← hrest, shift_append]
    constructor
    · rintro rfl
      exact absurd (List.prefix_append target rest) htarget
    · rintro rfl
      exact absurd (List.prefix_append source rest) hsource
  · rw [shift_of_not_below hbelow]

/-- A tree in which nothing is at the target, something is at the source, and the target is not
below the source. -/
structure Movable (t : Tree) (source target : Place) : Prop where
  free : ∀ rest, t.lookup (target ++ rest) = none
  taken : t.lookup source ≠ none
  not_below : ¬ source <+: target

namespace Movable

theorem source_ne_nil (h : t.Movable source target) : source ≠ [] := by
  rintro rfl
  exact h.not_below (List.nil_prefix)

theorem unlisted (h : t.Movable source target) : ∀ e ∈ t.entries, ¬ target <+: e.1 := by
  rintro e he ⟨rest, hrest⟩
  exact (lookup_eq_none_iff.mp (h.free rest)).2 e he hrest.symm

theorem target_not_above (h : t.Movable source target) : ¬ target <+: source := by
  rintro ⟨rest, rfl⟩
  exact h.taken (h.free rest)

/-- What a place becomes when it is moved to or below the target, it was at or below the source. -/
theorem shift_eq_iff (h : t.Movable source target) {e : Place × FileEntry} (he : e ∈ t.entries)
    (rest : Place) : shift source target e.1 = target ++ rest ↔ e.1 = source ++ rest := by
  constructor
  · intro hshift
    by_cases hbelow : source <+: e.1
    · obtain ⟨rest', hrest'⟩ := hbelow
      rw [← hrest', shift_append] at hshift
      rw [← hrest', List.append_cancel_left hshift]
    · rw [shift_of_not_below hbelow] at hshift
      exact absurd ⟨rest, hshift.symm⟩ (h.unlisted e he)
  · intro heq
    rw [heq, shift_append]

theorem shift_ne (h : t.Movable source target) (place rest : Place) :
    shift source target place ≠ source ++ rest := by
  intro hshift
  by_cases hbelow : source <+: place
  · obtain ⟨rest', hrest'⟩ := hbelow
    rw [← hrest', shift_append] at hshift
    rcases List.prefix_or_prefix_of_prefix ⟨rest', hshift⟩ (List.prefix_append source rest)
      with habove | hbelow
    · exact h.target_not_above habove
    · exact h.not_below hbelow
  · rw [shift_of_not_below hbelow] at hshift
    exact hbelow ⟨rest, hshift.symm⟩

theorem target_ne_nil (h : t.Movable source target) : target ≠ [] := by
  rintro rfl
  have hroot := h.free []
  rw [List.nil_append, lookup_root] at hroot
  cases hroot

theorem moved (h : t.Movable source target) : t.Moved source target (t.move source target) := by
  constructor
  case arrived =>
    intro rest
    rw [move_eq]
    exact lookup_map (List.append_ne_nil_of_left_ne_nil h.target_ne_nil rest)
      (List.append_ne_nil_of_left_ne_nil h.source_ne_nil rest) fun e he => h.shift_eq_iff he rest
  case gone =>
    intro rest
    refine lookup_eq_none_iff.mpr
      ⟨List.append_ne_nil_of_left_ne_nil h.source_ne_nil rest, fun e' he' => ?_⟩
    obtain ⟨e, he, rfl⟩ := List.mem_map.mp he'
    exact h.shift_ne e.1 rest
  case others =>
    intro place hsource htarget
    by_cases hplace : place = []
    · rw [hplace, lookup_root, lookup_root]
    · rw [move_eq]
      exact lookup_map hplace hplace fun e _ => shift_eq_iff_of_not_below hsource htarget
  case base_eq => rfl

/-- No two places become the same. -/
theorem shift_injOn (h : t.Movable source target) {e e' : Place × FileEntry} (he : e ∈ t.entries)
    (he' : e' ∈ t.entries) (heq : shift source target e.1 = shift source target e'.1) :
    e.1 = e'.1 := by
  by_cases hbelow : source <+: e'.1
  · obtain ⟨rest, hrest⟩ := hbelow
    rw [← hrest, shift_append] at heq
    rw [← hrest, (h.shift_eq_iff he rest).mp heq]
  · rw [shift_of_not_below hbelow] at heq
    exact (shift_eq_iff_of_not_below hbelow (h.unlisted e' he')).mp heq

theorem sound (h : t.Movable source target) (hsound : t.Sound)
    (hdir : t.lookup target.dropLast = some .directory) : (t.move source target).Sound := by
  refine sound_of_parent ?nodup ?ne_root ?parent
  case nodup =>
    have hplaces : (t.move source target).entries.map (·.1) =
        (t.entries.map (·.1)).map (shift source target) := by
      rw [move_eq, List.map_map, List.map_map]
      rfl
    rw [hplaces]
    refine hsound.nodup.map_on fun place hplace place' hplace' heq => ?_
    obtain ⟨e, he, rfl⟩ := List.mem_map.mp hplace
    obtain ⟨e', he', rfl⟩ := List.mem_map.mp hplace'
    exact h.shift_injOn he he' heq
  case ne_root =>
    intro e' he'
    obtain ⟨e, he, rfl⟩ := List.mem_map.mp he'
    show shift source target e.1 ≠ []
    unfold shift
    split
    · exact List.append_ne_nil_of_left_ne_nil h.target_ne_nil _
    · exact hsound.ne_root e he
  case parent =>
    have habove {place : Place} (hsource : ¬ source <+: place) (htarget : ¬ target <+: place) :
        (t.move source target).lookup place.dropLast = t.lookup place.dropLast :=
      h.moved.others _ (fun hbelow => hsource (hbelow.trans (List.dropLast_prefix place)))
        fun hbelow => htarget (hbelow.trans (List.dropLast_prefix place))
    intro place entry hfound
    by_cases htarget : target <+: place
    · obtain ⟨rest, rfl⟩ := htarget
      rw [h.moved.arrived] at hfound
      by_cases hrest : rest = []
      · rw [hrest, List.append_nil, h.moved.others, hdir]
        · exact fun hbelow => h.not_below (hbelow.trans (List.dropLast_prefix target))
        · exact not_prefix_dropLast h.target_ne_nil
      · rw [List.dropLast_append_of_ne_nil hrest, h.moved.arrived,
          ← List.dropLast_append_of_ne_nil hrest]
        exact hsound.parent hfound
    · by_cases hsource : source <+: place
      · obtain ⟨rest, rfl⟩ := hsource
        rw [h.moved.gone] at hfound
        cases hfound
      · rw [h.moved.others place hsource htarget] at hfound
        rw [habove hsource htarget]
        exact hsound.parent hfound

end Movable

/-- Something is at the source, nothing is below the target, and the target is not below the source:
then the target can be cleared for the source. -/
structure Clearable (t : Tree) (source target : Place) : Prop where
  bare : t.Bare target
  taken : t.lookup source ≠ none
  not_below : ¬ source <+: target
  ne_root : target ≠ []

namespace Clearable

theorem movable (h : t.Clearable source target) : (t.erase target).Movable source target where
  free rest := by
    rw [lookup_erase h.ne_root]
    split
    · rfl
    · next hne => exact h.bare rest fun hrest => hne (by rw [hrest, List.append_nil])
  taken := by
    rw [lookup_erase h.ne_root, if_neg]
    · exact h.taken
    · rintro rfl
      exact h.not_below (List.prefix_refl _)
  not_below := h.not_below

/-- **A place moved over another**, which is cleared before. -/
theorem moved (h : t.Clearable source target) :
    t.Moved source target ((t.erase target).move source target) := by
  have hmoved := h.movable.moved
  constructor
  case arrived =>
    intro rest
    rw [hmoved.arrived, lookup_erase h.ne_root, if_neg]
    exact fun heq => h.not_below ⟨rest, heq⟩
  case gone => exact hmoved.gone
  case others =>
    intro place hsource htarget
    rw [hmoved.others place hsource htarget, lookup_erase h.ne_root, if_neg]
    rintro rfl
    exact htarget (List.prefix_refl _)
  case base_eq => exact hmoved.base_eq

theorem sound (h : t.Clearable source target) (hsound : t.Sound)
    (hdir : t.lookup target.dropLast = some .directory) :
    ((t.erase target).move source target).Sound := by
  refine h.movable.sound (hsound.erase h.ne_root h.bare) ?_
  rw [lookup_erase h.ne_root, if_neg, hdir]
  intro heq
  exact not_prefix_dropLast h.ne_root (by rw [heq])

end Clearable

end SceneScript.Tree
