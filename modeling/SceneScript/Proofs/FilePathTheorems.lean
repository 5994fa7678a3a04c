/-
SceneScript.Proofs.FilePathTheorems — which place in a tree a path means.

A text is a path unless it is empty, too long, has a NUL character in it, or a name that is too
long (`IsPath`). Which place it means depends on nothing but its names and on where it begins, at
the root or in the working directory (`Tree.placeOf`); what is in the tree only has a say in whether
the path can be walked: every place on the way has to be a directory (`Tree.Names`). What is found
there does not count as found if a slash follows the last name and it is no directory
(`Tree.Holds`).

Taking a path apart, finding its place and finding what is there agree with these relations
(`FilePath.Means`).
-/
import SceneScript.Proofs.TreeTheorems

namespace SceneScript

/-! ## §1 Paths -/

/-- The text can be given to the file system as a path. -/
structure IsPath (text : String) : Prop where
  ne_empty : text ≠ ""
  no_nul : '\x00' ∉ text.toList
  short : text.utf8ByteSize < pathLimit
  short_names : ∀ name ∈ pathNames text, name.utf8ByteSize ≤ nameLimit

/-- A slash comes last. -/
def EndsInSlash (text : String) : Prop := text.toList.getLast? = some '/'

/-- The last name is that of an entry and does not stand for a directory by its position. -/
def EndsInName (text : String) : Prop :=
  ∃ name ∈ (pathNames text).getLast?, name ≠ "." ∧ name ≠ ".."

/-- A slash comes first. -/
def BeginsWithSlash (text : String) : Prop := text.toList.head? = some '/'

instance (text : String) : Decidable (BeginsWithSlash text) :=
  inferInstanceAs (Decidable (_ = _))

/-- Where a path begins: at the root if a slash comes first, and otherwise in the working
directory. -/
def Tree.startOf (t : Tree) (text : String) : Place := if BeginsWithSlash text then [] else t.base

/-- The place that a row of steps leads to from where a path begins. -/
def Tree.placeOf (t : Tree) (text : String) (names : List String) : Place :=
  names.foldl Place.step (t.startOf text)

variable {text : String} {path : FilePath} {names way : List String} {last : String}

theorem Tree.placeOf_concat (t : Tree) (text : String) (way : List String) (last : String) :
    t.placeOf text (way ++ [last]) = (t.placeOf text way).step last := by
  rw [placeOf, List.foldl_append]
  rfl

/-- A text without names is made of slashes. -/
theorem slashes_of_no_names (hnames : pathNames text = []) : ∀ c ∈ text.toList, c = '/' := by
  have hslashes : ∀ cs : List Char, (∀ piece ∈ Text.split (· == '/') cs, piece = []) →
      ∀ c ∈ cs, c = '/' := by
    intro cs hpieces
    induction cs with
    | nil => exact List.forall_mem_nil _
    | cons c cs ih =>
      rw [Text.split] at hpieces
      split at hpieces
      · next hc =>
        exact List.forall_mem_cons.mpr
          ⟨beq_iff_eq.mp hc, ih fun piece h => hpieces piece (List.mem_cons_of_mem _ h)⟩
      · split at hpieces
        · exact absurd (hpieces _ List.mem_cons_self) (List.cons_ne_nil _ _)
        · exact absurd (hpieces _ List.mem_cons_self) (List.cons_ne_nil _ _)
  refine hslashes _ fun piece hpiece => ?_
  have hempty := List.filter_eq_nil_iff.mp hnames _ (List.mem_map_of_mem hpiece)
  simpa [String.ofList_eq_empty_iff] using hempty

theorem endsInSlash_of_no_names (hpath : IsPath text) (hnames : pathNames text = []) :
    EndsInSlash text := by
  obtain ⟨front, c, hlast⟩ : ∃ front c, text.toList = front ++ [c] := by
    rcases List.eq_nil_or_concat text.toList with hnil | ⟨front, c, hconcat⟩
    · exact absurd (String.toList_eq_nil_iff.mp hnil) hpath.ne_empty
    · exact ⟨front, c, by rw [hconcat, List.concat_eq_append]⟩
  have hslash := slashes_of_no_names hnames c (by simp [hlast])
  rw [EndsInSlash, hlast, List.getLast?_concat, hslash]

theorem beginsWithSlash_of_no_names (hpath : IsPath text) (hnames : pathNames text = []) :
    BeginsWithSlash text := by
  obtain ⟨c, rest, hfirst⟩ :=
    List.exists_cons_of_ne_nil fun hnil => hpath.ne_empty (String.toList_eq_nil_iff.mp hnil)
  have hslash := slashes_of_no_names hnames c (by simp [hfirst])
  rw [BeginsWithSlash, hfirst, List.head?_cons, hslash]

namespace FilePath

/-- How a text that is a path is taken apart. -/
inductive Parts : String → FilePath → Prop
  | root {text : String} (hnames : pathNames text = []) :
      Parts text ⟨text.toList.head? == some '/', [], ".", true⟩
  | names {text : String} {way : List String} {last : String}
      (hnames : pathNames text = way ++ [last]) :
      Parts text ⟨text.toList.head? == some '/', way, last, text.toList.getLast? == some '/'⟩

theorem isPath_iff : IsPath text ↔
    ¬ ('\x00' ∈ text.toList ∨ pathLimit ≤ text.utf8ByteSize ∨ text.isEmpty) ∧
      ¬ (pathNames text).any fun name => decide (nameLimit < name.utf8ByteSize) := by
  simp only [not_or, Nat.not_le, String.isEmpty_iff, List.any_eq_true, decide_eq_true_eq,
    not_exists, not_and, Nat.not_lt]
  constructor
  · intro h
    exact ⟨⟨h.no_nul, h.short, h.ne_empty⟩, h.short_names⟩
  · rintro ⟨⟨hnul, hshort, hempty⟩, hnames⟩
    exact ⟨hempty, hnul, hshort, hnames⟩

theorem parse?_of_not_isPath (h : ¬ IsPath text) : parse? text = none := by
  rw [isPath_iff] at h
  rw [parse?]
  split
  · rfl
  · next hgood =>
    split
    · rfl
    · next hshort => exact absurd ⟨hgood, hshort⟩ h

theorem parse?_of_isPath (h : IsPath text) : ∃ path, parse? text = some path ∧ Parts text path := by
  obtain ⟨hgood, hshort⟩ := isPath_iff.mp h
  rw [parse?, if_neg hgood, if_neg hshort]
  split
  · next hnames => exact ⟨_, rfl, .root (List.reverse_eq_nil_iff.mp hnames)⟩
  · next last way hnames =>
    refine ⟨_, rfl, .names ?_⟩
    rw [List.reverse_eq_iff.mp hnames, List.reverse_cons]

end FilePath

namespace Tree

variable {t : Tree} {place target : Place} {entry : FileEntry}

/-! ## §2 Ways through a tree -/

theorem walk_eq_some_iff : t.walk place names = some target ↔
    target = names.foldl Place.step place ∧
      ∀ front, front <+: names → t.lookup (front.foldl Place.step place) = some .directory := by
  induction names generalizing place with
  | nil =>
    rw [walk, Option.ite_none_right_eq_some]
    constructor
    · rintro ⟨hdir, hplace⟩
      refine ⟨(Option.some.inj hplace).symm, fun front hfront => ?_⟩
      rw [List.prefix_nil.mp hfront]
      exact hdir
    · rintro ⟨rfl, hthrough⟩
      exact ⟨hthrough [] List.nil_prefix, rfl⟩
  | cons name rest ih =>
    rw [walk, Option.ite_none_right_eq_some, ih]
    constructor
    · rintro ⟨hdir, rfl, hthrough⟩
      refine ⟨rfl, fun front hfront => ?_⟩
      rcases List.prefix_cons_iff.mp hfront with rfl | ⟨tail, rfl, htail⟩
      · exact hdir
      · exact hthrough tail htail
    · rintro ⟨rfl, hthrough⟩
      exact ⟨hthrough [] List.nil_prefix, rfl, fun front hfront =>
        hthrough (name :: front) (List.cons_prefix_cons.mpr ⟨rfl, hfront⟩)⟩

/-- The path means the place, and every place on the way to it is a directory. -/
structure Names (t : Tree) (text : String) (place : Place) : Prop where
  isPath : IsPath text
  place_eq : place = t.placeOf text (pathNames text)
  through : ∀ front, front <+: pathNames text → front ≠ pathNames text →
    t.lookup (t.placeOf text front) = some .directory

/-- The path means the place, and this is there, a directory if a slash comes last. -/
structure Holds (t : Tree) (text : String) (place : Place) (entry : FileEntry) : Prop where
  names : t.Names text place
  found : t.lookup place = some entry
  slash : EndsInSlash text → entry = .directory

/-- What is on the way to the last name. -/
theorem proper_prefix_iff {front : List String} (hnames : names = way ++ [last]) :
    front <+: names ∧ front ≠ names ↔ front <+: way := by
  rw [hnames, List.prefix_concat_iff]
  constructor
  · rintro ⟨hwhole | hfront, hne⟩
    · exact absurd hwhole hne
    · exact hfront
  · intro hfront
    refine ⟨.inr hfront, fun heq => ?_⟩
    have hlength := hfront.length_le
    rw [heq, List.length_append, List.length_singleton] at hlength
    omega

theorem start_eq_startOf (t : Tree) (hparts : FilePath.Parts text path) :
    t.start path = t.startOf text := by
  have habsolute : path.absolute = true ↔ BeginsWithSlash text := by
    cases hparts <;> simp [BeginsWithSlash]
  exact if_congr habsolute rfl rfl

theorem locate_eq_some_iff (hpath : IsPath text) (hparts : FilePath.Parts text path) :
    t.locate path = some place ↔ t.Names text place := by
  rw [locate, start_eq_startOf t hparts, Option.map_eq_some_iff]
  simp only [walk_eq_some_iff]
  cases hparts with
  | root hnames =>
    have hstart : t.startOf text = [] := if_pos (beginsWithSlash_of_no_names hpath hnames)
    constructor
    · rintro ⟨dir, ⟨rfl, -⟩, rfl⟩
      refine ⟨hpath, by rw [hnames]; rfl, fun front hfront hne => ?_⟩
      rw [hnames] at hfront hne
      exact absurd (List.prefix_nil.mp hfront) hne
    · rintro ⟨-, rfl, -⟩
      refine ⟨t.startOf text, ⟨rfl, fun front hfront => ?_⟩, by rw [hnames]; rfl⟩
      rw [List.prefix_nil.mp hfront, List.foldl_nil, hstart]
      exact lookup_root t
  | @names way last hnames =>
    constructor
    · rintro ⟨dir, ⟨rfl, hthrough⟩, rfl⟩
      refine ⟨hpath, by rw [hnames, placeOf_concat]; rfl, fun front hfront hne => ?_⟩
      exact hthrough front ((proper_prefix_iff hnames).mp ⟨hfront, hne⟩)
    · rintro ⟨-, rfl, hthrough⟩
      refine ⟨t.placeOf text way, ⟨rfl, fun front hfront => ?_⟩, by rw [hnames, placeOf_concat]⟩
      obtain ⟨hunder, hne⟩ := (proper_prefix_iff hnames).mpr hfront
      exact hthrough front hunder hne

theorem resolve_eq_some_iff : t.resolve path = some (place, entry) ↔
    t.locate path = some place ∧ t.lookup place = some entry ∧
      (path.slash → entry = .directory) := by
  unfold resolve
  split
  · next hnone => simp [hnone]
  · next place' hplace =>
    rw [hplace]
    split
    · next hfound =>
      constructor
      · intro h
        cases h
      · rintro ⟨⟨⟩, hfound', -⟩
        rw [hfound] at hfound'
        cases hfound'
    · next entry' hfound =>
      rw [Option.ite_none_left_eq_some]
      constructor
      · rintro ⟨hslash, ⟨⟩⟩
        exact ⟨rfl, hfound, fun h => Decidable.byContradiction fun hne => hslash ⟨h, hne⟩⟩
      · rintro ⟨⟨⟩, hfound', hslash⟩
        obtain rfl := Option.some.inj (hfound.symm.trans hfound')
        exact ⟨fun h => h.2 (hslash h.1), rfl⟩

variable {place' : Place} {t' : Tree}

theorem placeOf_of_base (hbase : t'.base = t.base) (text : String) (names : List String) :
    t'.placeOf text names = t.placeOf text names := by
  rw [placeOf, placeOf, startOf, startOf, hbase]

/-- A path means one place at most, as long as the working directory stays the same. -/
theorem Names.unique_of_base (h : t.Names text place) (h' : t'.Names text place')
    (hbase : t'.base = t.base) : place = place' := by
  rw [h.place_eq, h'.place_eq, placeOf_of_base hbase]

theorem Names.unique (h : t.Names text place) (h' : t.Names text place') : place = place' :=
  h.unique_of_base h' rfl

/-- A path goes on meaning its place as long as there are directories on the way to it. -/
theorem Names.of_through (h : t.Names text place) (hbase : t'.base = t.base)
    (hkept : ∀ front, front <+: pathNames text → front ≠ pathNames text →
      t'.lookup (t.placeOf text front) = some .directory) : t'.Names text place where
  isPath := h.isPath
  place_eq := by rw [placeOf_of_base hbase, h.place_eq]
  through front hfront hne := by rw [placeOf_of_base hbase, hkept front hfront hne]

/-- The last name of a path, in a directory. -/
theorem Names.exists_last (h : t.Names text place) (hnames : pathNames text ≠ []) :
    ∃ dir last, last ∈ (pathNames text).getLast? ∧ place = Place.step dir last ∧
      t.lookup dir = some .directory := by
  obtain ⟨way, last, hconcat⟩ : ∃ way last, pathNames text = way ++ [last] :=
    ⟨_, _, (List.dropLast_concat_getLast hnames).symm⟩
  obtain ⟨hfront, hne⟩ := (proper_prefix_iff hconcat).mpr (List.prefix_refl way)
  refine ⟨t.placeOf text way, last, by rw [hconcat, List.getLast?_concat]; rfl, ?_,
    h.through way hfront hne⟩
  rw [h.place_eq, hconcat, placeOf_concat]

/-- A name that is that of an entry leads one step down. -/
theorem Names.in_directory (h : t.Names text place) (hname : EndsInName text) :
    place ≠ [] ∧ t.lookup place.dropLast = some .directory := by
  obtain ⟨name, hlast, hdot, hdots⟩ := hname
  have hnames : pathNames text ≠ [] := by
    intro hnil
    rw [hnil] at hlast
    cases hlast
  obtain ⟨dir, last, hlast', rfl, hdir⟩ := h.exists_last hnames
  obtain rfl : name = last := Option.mem_unique hlast hlast'
  rw [Place.step, if_neg hdot, if_neg hdots, List.dropLast_concat]
  exact ⟨List.concat_ne_nil _ _, hdir⟩

/-- What is no directory can only be meant by a name of its own. -/
theorem Names.endsInName (h : t.Names text place) (hsound : t.Sound)
    (hplace : t.lookup place ≠ some .directory) : EndsInName text := by
  have hnames : pathNames text ≠ [] := by
    intro hnil
    have hstart : t.startOf text = [] := if_pos (beginsWithSlash_of_no_names h.isPath hnil)
    rw [h.place_eq, hnil, placeOf, List.foldl_nil, hstart] at hplace
    exact hplace (lookup_root t)
  obtain ⟨dir, last, hlast, rfl, hdir⟩ := h.exists_last hnames
  refine ⟨last, hlast, ?_, ?_⟩
  · rintro rfl
    exact hplace hdir
  · rintro rfl
    exact hplace (hsound.parent hdir)

end Tree

/-! ## §3 Paths that have been taken apart -/

namespace FilePath

open SceneScript.Tree

/-- What has been taken apart means the same place in every tree as the text did. -/
structure Means (path : FilePath) (text : String) : Prop where
  isPath : IsPath text
  locate_iff : ∀ (t : Tree) (place : Place), t.locate path = some place ↔ t.Names text place
  slash_iff : path.slash ↔ EndsInSlash text
  isDots_iff : isDots path.last ↔ ¬ EndsInName text

theorem means_of_parts (hpath : IsPath text) (hparts : Parts text path) : path.Means text := by
  refine ⟨hpath, fun t place => locate_eq_some_iff hpath hparts, ?_, ?_⟩
  · cases hparts with
    | root hnames => simp [endsInSlash_of_no_names hpath hnames]
    | names hnames => simp [EndsInSlash]
  · cases hparts with
    | root hnames => simp [isDots, EndsInName, hnames]
    | names hnames => simp [isDots, EndsInName, hnames, Classical.or_iff_not_imp_left]

/-- A text is taken apart exactly if it is a path. -/
theorem parse?_cases (text : String) :
    (parse? text = none ∧ ¬ IsPath text) ∨ ∃ path, parse? text = some path ∧ path.Means text := by
  by_cases hpath : IsPath text
  · obtain ⟨path, hparse, hparts⟩ := parse?_of_isPath hpath
    exact .inr ⟨path, hparse, means_of_parts hpath hparts⟩
  · exact .inl ⟨parse?_of_not_isPath hpath, hpath⟩

/-- What a path leads to is what the text says to be there. -/
theorem Means.resolve_iff (h : path.Means text) {t : Tree} {place : Place} {entry : FileEntry} :
    t.resolve path = some (place, entry) ↔ t.Holds text place entry := by
  rw [resolve_eq_some_iff, h.locate_iff, h.slash_iff]
  exact ⟨fun ⟨hnames, hfound, hslash⟩ => ⟨hnames, hfound, hslash⟩,
    fun ⟨hnames, hfound, hslash⟩ => ⟨hnames, hfound, hslash⟩⟩

end FilePath

end SceneScript
