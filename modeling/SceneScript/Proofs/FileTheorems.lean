/-
SceneScript.Proofs.FileTheorems — what operations on files do, and what calls of them come to.

All that an operation can do to a tree is listed in `Tree.Does`: at most one place gets an empty
file or loses a file, or what is at and below one place moves to another, and every other place
keeps what is there. An operation that cannot be carried out in one of these ways is refused and
changes nothing (`Tree.Comes`). On a sound tree each operation comes to one of the two
(`perform_comes`), and it leaves a sound tree.

A call of a builtin asks for the operation as soon as its arguments can be read as paths, wherever
they come from (`Engine.dispatch_file`), and then it answers (`Engine.Answers`).
`Engine.files_handled` puts the two together, for a tree on which any calls have been made: what
the next call answers, what it leaves, and what is found when one asks afterwards
(`Engine.HandlesFiles`).
-/
import SceneScript.Proofs.FilePathTheorems
import SceneScript.Proofs.StringTheorems

namespace SceneScript

/-! ## §1 What an operation does -/

/-- The paths of an operation. -/
def FileOp.paths : FileOp → List String
  | .present path | .touch path | .delete path => [path]
  | .rename source target => [source, target]

namespace Tree

/-- Something of the given kind can come to a place: nothing is below it, and if something is there
it is of the same kind. -/
structure GivesWay (t : Tree) (place : Place) (entry : FileEntry) : Prop where
  bare : t.Bare place
  kind : ∀ old, t.lookup place = some old → (old = .directory ↔ entry = .directory)

/-- One path leads to something that the other can become the path of. -/
structure Renaming (t : Tree) (source target : String) (place place' : Place)
    (entry : FileEntry) : Prop where
  holds : t.Holds source place entry
  names : t.Names target place'
  source_name : EndsInName source
  target_name : EndsInName target
  slash : EndsInSlash target → entry = .directory

/-- All that an operation can do to a tree when it is carried out; the working directory is the
same place in any case. -/
inductive Does (t : Tree) : FileOp → Tree → Prop
  /-- Something is there. -/
  | present {text : String} {place : Place} {entry : FileEntry} (h : t.Holds text place entry) :
      Does t (.present text) t
  /-- A file is there, and stays as it is. -/
  | kept {text : String} {place : Place} {contents : String}
      (h : t.Holds text place (.file contents)) : Does t (.touch text) t
  /-- Nothing is there, and an empty file appears. -/
  | made {text : String} {place : Place} {t' : Tree} (hnames : t.Names text place)
      (hslash : ¬ EndsInSlash text) (hfree : t.lookup place = none)
      (hmade : t'.lookup place = some (.file ""))
      (hothers : ∀ other ≠ place, t'.lookup other = t.lookup other) (hbase : t'.base = t.base) :
      Does t (.touch text) t'
  /-- A file is there, and disappears. -/
  | deleted {text : String} {place : Place} {contents : String} {t' : Tree}
      (h : t.Holds text place (.file contents)) (hgone : t'.lookup place = none)
      (hothers : ∀ other ≠ place, t'.lookup other = t.lookup other) (hbase : t'.base = t.base) :
      Does t (.delete text) t'
  /-- Both paths mean one place. -/
  | same {source target : String} {place : Place} {entry : FileEntry}
      (h : t.Renaming source target place place entry) : Does t (.rename source target) t
  /-- What is at one place moves to another, which is free or gives way. -/
  | moved {source target : String} {place place' : Place} {entry : FileEntry} {t' : Tree}
      (h : t.Renaming source target place place' entry) (hbelow : ¬ place <+: place')
      (hway : t.GivesWay place' entry) (hmoved : t.Moved place place' t') :
      Does t (.rename source target) t'

/-- What an operation comes to: it is done, or it cannot be done and changes nothing. -/
inductive Comes (t : Tree) (op : FileOp) : Bool × Tree → Prop
  | done {t' : Tree} (h : t.Does op t') (hsound : t'.Sound) : Comes t op (true, t')
  | refused (h : ∀ t', ¬ t.Does op t') : Comes t op (false, t)

variable {t t' : Tree} {place place' : Place} {entry : FileEntry} {path path' : FilePath}
  {text source target : String} {op : FileOp}

theorem Does.isPath (h : t.Does op t') : ∀ text ∈ op.paths, IsPath text := by
  have hone {text : String} (hpath : IsPath text) : ∀ other ∈ [text], IsPath other :=
    fun other hother => List.mem_singleton.mp hother ▸ hpath
  cases h with
  | present h => exact hone h.names.isPath
  | kept h => exact hone h.names.isPath
  | made hnames => exact hone hnames.isPath
  | deleted h => exact hone h.names.isPath
  | same h => exact List.forall_mem_cons.mpr ⟨h.holds.names.isPath, hone h.names.isPath⟩
  | moved h => exact List.forall_mem_cons.mpr ⟨h.holds.names.isPath, hone h.names.isPath⟩

theorem Holds.endsInName (h : t.Holds text place entry) (hsound : t.Sound)
    (hfile : entry ≠ .directory) : EndsInName text := by
  refine h.names.endsInName hsound ?_
  rw [h.found]
  exact fun heq => hfile (Option.some.inj heq)

/-- Asking whether something is there tells just that. -/
theorem perform_present_iff :
    (t.perform (.present text)).1 = true ↔ ∃ place entry, t.Holds text place entry := by
  rw [perform]
  obtain ⟨hparse, hpath⟩ | ⟨path, hparse, hmeans⟩ := FilePath.parse?_cases text
  · rw [hparse]
    exact ⟨nofun, fun ⟨_, _, h⟩ => absurd h.names.isPath hpath⟩
  · rw [hparse, Option.bind_some, Option.isSome_iff_exists, Prod.exists]
    simp only [hmeans.resolve_iff]

theorem perform_present_of_holds (h : t.Holds text place entry) :
    t.perform (.present text) = (true, t) :=
  Prod.ext (perform_present_iff.mpr ⟨_, _, h⟩) rfl

theorem perform_present_of_not_holds (h : ∀ place entry, ¬ t.Holds text place entry) :
    t.perform (.present text) = (false, t) := by
  refine Prod.ext (Bool.eq_false_iff.mpr fun htrue => ?_) rfl
  obtain ⟨place, entry, hholds⟩ := perform_present_iff.mp htrue
  exact h place entry hholds

theorem present_comes (hsound : t.Sound) (text : String) :
    t.Comes (.present text) (t.perform (.present text)) := by
  by_cases h : ∃ place entry, t.Holds text place entry
  · obtain ⟨place, entry, hholds⟩ := h
    rw [perform_present_of_holds hholds]
    exact .done (.present hholds) hsound
  · rw [perform_present_of_not_holds fun place entry hholds => h ⟨place, entry, hholds⟩]
    refine .refused fun t' hdoes => ?_
    cases hdoes with
    | present hholds => exact h ⟨_, _, hholds⟩

theorem touch_comes (hsound : t.Sound) (hmeans : path.Means text) :
    t.Comes (.touch text) (t.touch path) := by
  have hplace {place' : Place} (h : t.Names text place') : t.locate path = some place' :=
    (hmeans.locate_iff t place').mpr h
  unfold touch
  split
  · next hslash =>
    refine .refused fun t' hdoes => ?_
    cases hdoes with
    | kept h => cases h.slash (hmeans.slash_iff.mp hslash)
    | made _ hnot _ _ _ _ => exact hnot (hmeans.slash_iff.mp hslash)
  · next hslash =>
    rw [hmeans.slash_iff] at hslash
    split
    · next hnone =>
      refine .refused fun t' hdoes => ?_
      cases hdoes with
      | kept h => cases hnone.symm.trans (hplace h.names)
      | made hnames _ _ _ _ _ => cases hnone.symm.trans (hplace hnames)
    · next place hlocate =>
      have hnames := (hmeans.locate_iff t place).mp hlocate
      split
      · next hdir =>
        refine .refused fun t' hdoes => ?_
        cases hdoes with
        | kept h =>
          have hfound := h.found
          rw [h.names.unique hnames, hdir] at hfound
          cases hfound
        | made hnames' _ hfree _ _ _ =>
          rw [hnames'.unique hnames, hdir] at hfree
          cases hfree
      · next contents hfile => exact .done (.kept ⟨hnames, hfile, fun h => absurd h hslash⟩) hsound
      · next hfree =>
        have hmade := lookup_insert hfree (.file "")
        have hin := hnames.in_directory (hnames.endsInName hsound (by simp [hfree]))
        refine .done (.made hnames hslash hfree ?_ (fun other hother => ?_) rfl)
          (hsound.insert hin.2 hfree)
        · rw [hmade, if_pos rfl]
        · rw [hmade, if_neg hother]

theorem delete_comes (hsound : t.Sound) (hmeans : path.Means text) :
    t.Comes (.delete text) (t.delete path) := by
  unfold delete
  split
  · next place contents hresolve =>
    have hholds := hmeans.resolve_iff.mp hresolve
    have hnot : t.lookup place ≠ some .directory := by simp [hholds.found]
    have hgone := lookup_erase (t := t) (ne_nil_of_lookup hnot)
    refine .done (.deleted hholds ?_ (fun other hother => ?_) rfl)
      (hsound.erase (ne_nil_of_lookup hnot) (hsound.bare hnot))
    · rw [hgone, if_pos rfl]
    · rw [hgone, if_neg hother]
  · next hnot =>
    refine .refused fun t' hdoes => ?_
    cases hdoes with
    | deleted h _ _ _ => exact hnot _ _ (hmeans.resolve_iff.mpr h)

/-- What may come to a place can take it. -/
theorem Renaming.clearable (h : t.Renaming source target place place' entry)
    (hbelow : ¬ place <+: place') (hway : t.GivesWay place' entry) : t.Clearable place place' where
  bare := hway.bare
  taken := by simp [h.holds.found]
  not_below := hbelow
  ne_root := (h.names.in_directory h.target_name).1

theorem Renaming.comes (h : t.Renaming source target place place' entry) (hsound : t.Sound)
    (hbelow : ¬ place <+: place') (hway : t.GivesWay place' entry) :
    t.Comes (.rename source target) (true, (t.erase place').move place place') :=
  have hclear := h.clearable hbelow hway
  .done (.moved h hbelow hway hclear.moved)
    (hclear.sound hsound (h.names.in_directory h.target_name).2)

theorem Holds.unique {entry' : FileEntry} (h : t.Holds text place entry)
    (h' : t.Holds text place' entry') : place = place' ∧ entry = entry' := by
  obtain rfl := h.names.unique h'.names
  exact ⟨rfl, Option.some.inj (h.found.symm.trans h'.found)⟩

/-- What there is to a renaming that can be carried out. -/
theorem Does.renaming (h : t.Does (.rename source target) t') :
    ∃ place place' entry, t.Renaming source target place place' entry ∧
      (place = place' ∨ ¬ place <+: place' ∧ t.GivesWay place' entry) := by
  cases h with
  | same h => exact ⟨_, _, _, h, .inl rfl⟩
  | moved h hbelow hway _ => exact ⟨_, _, _, h, .inr ⟨hbelow, hway⟩⟩

/-- A renaming is refused if the place cannot be taken. -/
theorem Renaming.refused (h : t.Renaming source target place place' entry) (hne : place ≠ place')
    (hnot : ¬ (¬ place <+: place' ∧ t.GivesWay place' entry)) :
    t.Comes (.rename source target) (false, t) := by
  refine .refused fun t' hdoes => ?_
  obtain ⟨_, _, _, h', hcan⟩ := hdoes.renaming
  obtain ⟨rfl, rfl⟩ := h.holds.unique h'.holds
  obtain rfl := h.names.unique h'.names
  exact hcan.elim hne hnot

theorem rename_comes (hsound : t.Sound) (hsource : path.Means source)
    (htarget : path'.Means target) :
    t.Comes (.rename source target) (t.rename path path') := by
  have hneeds {t' : Tree} (h : t.Does (.rename source target) t') :
      ¬ isDots path.last ∧ ¬ isDots path'.last ∧ ∃ place place' entry,
        t.resolve path = some (place, entry) ∧ t.locate path' = some place' ∧
        (path'.slash → entry = .directory) := by
    obtain ⟨place, place', entry, h, -⟩ := h.renaming
    rw [hsource.isDots_iff, htarget.isDots_iff, not_not, not_not, htarget.slash_iff]
    exact ⟨h.source_name, h.target_name, place, place', entry, hsource.resolve_iff.mpr h.holds,
      (htarget.locate_iff t place').mpr h.names, h.slash⟩
  unfold rename
  split
  · next hdots =>
    refine .refused fun t' hdoes => ?_
    obtain ⟨hsourceName, htargetName, -⟩ := hneeds hdoes
    simp [hsourceName, htargetName] at hdots
  · next hdots =>
    simp only [Bool.or_eq_true, not_or, hsource.isDots_iff, htarget.isDots_iff, not_not] at hdots
    split
    · next place entry place' hresolve hlocate =>
      split
      · next hslash =>
        refine .refused fun t' hdoes => ?_
        obtain ⟨-, -, _, _, _, hresolve', -, hkind⟩ := hneeds hdoes
        rw [hresolve] at hresolve'
        cases hresolve'
        exact hslash.1 (hkind hslash.2)
      · next hslash =>
        have hrenaming : t.Renaming source target place place' entry :=
          ⟨hsource.resolve_iff.mp hresolve, (htarget.locate_iff t place').mp hlocate, hdots.1,
            hdots.2, fun h => Decidable.byContradiction fun hne =>
              hslash ⟨hne, htarget.slash_iff.mpr h⟩⟩
        split
        · next hsame =>
          subst hsame
          exact .done (.same hrenaming) hsound
        · next hne =>
          split
          · next hbelow =>
            refine hrenaming.refused hne fun hcan => hcan.1 ?_
            exact List.isPrefixOf_iff_prefix.mp hbelow
          · next hbelow =>
            rw [List.isPrefixOf_iff_prefix] at hbelow
            have hcomes := hrenaming.comes hsound hbelow
            have hrefused (hkind : ¬ t.GivesWay place' entry) :=
              hrenaming.refused hne fun hcan => hkind hcan.2
            cases hfound : t.lookup place' with
            | none =>
              have hfree := hcomes ⟨hsound.bare (by simp [hfound]), by simp [hfound]⟩
              rwa [erase_of_free hfound] at hfree
            | some old =>
              -- A file takes the place of a file, and a directory that of an empty directory.
              cases entry with
              | file contents =>
                cases old with
                | file replaced =>
                  exact hcomes ⟨hsound.bare (by simp [hfound]), by simp [hfound]⟩
                | directory => exact hrefused fun hway => by simpa using hway.kind _ hfound
              | directory =>
                cases old with
                | file replaced => exact hrefused fun hway => by simpa using hway.kind _ hfound
                | directory =>
                  dsimp only
                  split
                  · next hempty => exact hcomes ⟨isEmptyAt_iff.mp hempty, by simp [hfound]⟩
                  · next hfull => exact hrefused fun hway => hfull (isEmptyAt_iff.mpr hway.bare)
    · next hnone =>
      refine .refused fun t' hdoes => ?_
      obtain ⟨-, -, _, _, _, hresolve, hlocate, -⟩ := hneeds hdoes
      exact hnone _ _ _ hresolve hlocate

/-- It is enough to look at texts that are paths. -/
theorem comes_of_path {result : Bool × Tree} (hmem : text ∈ op.paths)
    (hnone : FilePath.parse? text = none → result = (false, t))
    (hsome : ∀ path, FilePath.parse? text = some path → path.Means text → t.Comes op result) :
    t.Comes op result := by
  obtain ⟨hparse, hpath⟩ | ⟨path, hparse, hmeans⟩ := FilePath.parse?_cases text
  · rw [hnone hparse]
    exact .refused fun _ hdoes => hpath (hdoes.isPath text hmem)
  · exact hsome path hparse hmeans

/-- **What operations on files come to**: each of them is done, and leaves a tree, or cannot be done
and changes nothing. -/
theorem perform_comes (hsound : t.Sound) (op : FileOp) : t.Comes op (t.perform op) := by
  cases op with
  | present text => exact present_comes hsound text
  | touch text =>
    rw [perform]
    refine comes_of_path List.mem_cons_self (fun hparse => by rw [hparse])
      fun path hparse hmeans => ?_
    rw [hparse]
    exact touch_comes hsound hmeans
  | delete text =>
    rw [perform]
    refine comes_of_path List.mem_cons_self (fun hparse => by rw [hparse])
      fun path hparse hmeans => ?_
    rw [hparse]
    exact delete_comes hsound hmeans
  | rename source target =>
    rw [perform]
    refine comes_of_path List.mem_cons_self (fun hparse => by rw [hparse])
      fun path hparse hmeans => ?_
    refine comes_of_path (List.mem_cons_of_mem _ List.mem_cons_self)
      (fun hparse' => by rw [hparse, hparse']) fun path' hparse' hmeans' => ?_
    rw [hparse, hparse']
    exact rename_comes hsound hmeans hmeans'

/-! ## §2 What is there afterwards -/

/-- What was touched is there. -/
theorem Does.holds_touched (h : t.Does (.touch text) t') :
    ∃ place contents, t'.Holds text place (.file contents) := by
  cases h with
  | kept h => exact ⟨_, _, h⟩
  | @made _ place _ hnames hslash hfree hmade hothers hbase =>
    refine ⟨place, "", hnames.of_through hbase fun front hfront hne => ?_, hmade,
      fun h => absurd h hslash⟩
    have hdir := hnames.through front hfront hne
    rw [hothers, hdir]
    intro heq
    rw [heq, hfree] at hdir
    cases hdir

/-- What was deleted is not there. -/
theorem Does.not_holds_deleted (h : t.Does (.delete text) t') (place : Place) (entry : FileEntry) :
    ¬ t'.Holds text place entry := by
  intro hholds
  cases h with
  | deleted h hgone _ hbase =>
    rw [h.names.unique_of_base hholds.names hbase, hholds.found] at hgone
    cases hgone

/-- What was renamed is no longer there under its old path, unless the new one means the same. -/
theorem Does.not_holds_renamed (h : t.Does (.rename source target) t') :
    (t' = t ∧ ∃ place, t.Names source place ∧ t.Names target place) ∨
      ∀ place entry, ¬ t'.Holds source place entry := by
  cases h with
  | same h => exact .inl ⟨rfl, _, h.holds.names, h.names⟩
  | @moved _ _ place _ _ _ h _ _ hmoved =>
    refine .inr fun place' entry' hholds => ?_
    have hgone := hmoved.gone []
    rw [List.append_nil, h.holds.names.unique_of_base hholds.names hmoved.base_eq, hholds.found]
      at hgone
    cases hgone

/-- The way to what the path means comes by the place, or by something below it. -/
def ComesBy (t : Tree) (text : String) (place : Place) : Prop :=
  ∃ front, front <+: pathNames text ∧ front ≠ pathNames text ∧ place <+: t.placeOf text front

/-- It is there under its new path, if the way there does not come by the old place. -/
theorem Does.holds_renamed (h : t.Does (.rename source target) t') (hsource : t.Names source place)
    (hway : ¬ t.ComesBy target place) : ∃ place' entry, t'.Holds target place' entry := by
  cases h with
  | same h => exact ⟨_, _, h.names, h.holds.found, h.slash⟩
  | @moved _ _ a b entry _ h hbelow hgives hmoved =>
    obtain rfl := h.holds.names.unique hsource
    have harrived := hmoved.arrived []
    rw [List.append_nil, List.append_nil, h.holds.found] at harrived
    refine ⟨b, entry, h.names.of_through hmoved.base_eq fun front hfront hne => ?_, harrived,
      h.slash⟩
    have hdir := h.names.through front hfront hne
    have hnot : ¬ a <+: t.placeOf target front := fun hcomes => hway ⟨front, hfront, hne, hcomes⟩
    by_cases hunder : b <+: t.placeOf target front
    · -- Only the place itself can be a directory there, and a directory has come to it.
      obtain ⟨rest, hrest⟩ := hunder
      have hnil : rest = [] := by
        by_contra hrest'
        have hnone := hgives.bare rest hrest'
        rw [hrest, hdir] at hnone
        cases hnone
      rw [← hrest, hnil, List.append_nil] at hdir ⊢
      rw [harrived, (hgives.kind _ hdir).mp rfl]
    · rw [hmoved.others _ hnot hunder, hdir]

example :
    let t : Tree := { entries := [(["d"], .directory)] }
    let t' : Tree := { entries := [(["e"], .directory)] }
    t.perform (.rename "d" "d/../e") = (true, t') ∧
      t'.perform (.present "d/../e") = (false, t') := by
  decide

end Tree

/-! ## §3 Calls -/

/-- The builtin that asks for an operation. -/
def FileOp.builtin : FileOp → String
  | .present _ => "file_exists"
  | .touch _ => "file_touch"
  | .delete _ => "file_delete"
  | .rename _ _ => "file_rename"

/-- The arguments come to values that are read as these texts. -/
def Arguments.ReadAs (args : Arguments) (frame : Frame) (texts : List String) : Prop :=
  List.Forall₂ (fun arg text => ∃ p, arg.outcome frame = .ok p ∧ p.toText? = some text)
    args.items texts

/-- All texts can be given as they are. -/
theorem Arguments.readAs_ready (texts : List String) :
    (Arguments.positional texts.length).ReadAs ⟨texts.map fun text => .ready (.text text)⟩
      texts := by
  refine List.forall₂_iff_get.mpr ⟨by simp [positional], fun i hitem htext => ?_⟩
  have hitem : (positional texts.length).items.get ⟨i, hitem⟩ = ⟨i, none⟩ := by simp [positional]
  have hslot : Frame.outcome ⟨texts.map fun text => .ready (.text text)⟩ i =
      .ok (.text texts[i]) := by
    refine Frame.outcome_eq_ok_iff.mpr ⟨.ready (.text texts[i]), ?_, rfl⟩
    exact List.getElem?_eq_some_iff.mpr ⟨by simpa using htext, by simp⟩
  refine ⟨.text texts[i], ?_, rfl⟩
  rw [hitem, Argument.outcome, hslot]

namespace Standard

variable {host : Host} {signature : Signature} {args : Arguments} {frame : Frame}
  {text source target : String}

theorem onPath_fst (op : String → FileOp) (h : args.ReadAs frame [text]) :
    (onPath op host signature args frame).1 = .ok (.file (op text)) := by
  obtain ⟨items⟩ := args
  cases h with
  | @cons arg _ _ _ harg hrest =>
    cases hrest
    obtain ⟨p, hp, htext⟩ := harg
    have hcount : checkCount signature ⟨[arg]⟩ 1 = attempt (.ok ()) := checkCount_of_length rfl
    have hread : Standard.text ⟨[arg]⟩ 0 frame = (.ok text, (frame.eval arg.slot).2) :=
      text_apply rfl hp htext
    rw [onPath, hcount, attempt_ok_bind, bind_apply, hread]
    rfl

theorem fileRename_fst (h : args.ReadAs frame [source, target]) :
    (fileRename host signature args frame).1 = .ok (.file (.rename source target)) := by
  obtain ⟨items⟩ := args
  cases h with
  | @cons arg _ _ _ harg hrest =>
    cases hrest with
    | @cons arg' _ _ _ harg' hrest' =>
      cases hrest'
      obtain ⟨p, hp, htext⟩ := harg
      obtain ⟨p', hp', htext'⟩ := harg'
      have hcount : checkCount signature ⟨[arg, arg']⟩ 2 = attempt (.ok ()) :=
        checkCount_of_length rfl
      have hread : Standard.text ⟨[arg, arg']⟩ 0 frame = (.ok source, (frame.eval arg.slot).2) :=
        text_apply rfl hp htext
      have hread' : Standard.text ⟨[arg, arg']⟩ 1 (frame.eval arg.slot).2 =
          (.ok target, ((frame.eval arg.slot).2.eval arg'.slot).2) :=
        text_apply rfl (by rw [Argument.outcome_eval, hp']) htext'
      rw [fileRename, hcount, attempt_ok_bind, bind_apply, hread]
      dsimp only
      rw [bind_apply, hread']
      rfl

end Standard

namespace Engine

open Standard

variable {config : Config} {events : List Event} {clock : Float} {memory : Memory}

theorem parse_fileExists : Signature.parse "bool file_exists( string file )" =
    .ok ⟨some "bool", "file_exists", [⟨"string", "file"⟩]⟩ := by
  decide

theorem parse_fileTouch : Signature.parse "bool file_touch( string file )" =
    .ok ⟨some "bool", "file_touch", [⟨"string", "file"⟩]⟩ := by
  decide

theorem parse_fileDelete : Signature.parse "bool file_delete( string file )" =
    .ok ⟨some "bool", "file_delete", [⟨"string", "file"⟩]⟩ := by
  decide

theorem parse_fileRename : Signature.parse "bool file_rename( string src_file, string dst_file )" =
    .ok ⟨some "bool", "file_rename", [⟨"string", "src_file"⟩, ⟨"string", "dst_file"⟩]⟩ := by
  decide

theorem dispatch_onPath (hinit : (run { config := config } events).initialized = true)
    {source : String} {signature : Signature} {make : String → FileOp} {text : String}
    {args : Arguments} {frame : Frame} (hspec : ⟨source, onPath make⟩ ∈ specs)
    (hparse : Signature.parse source = .ok signature) (hargs : args.ReadAs frame [text])
    (clock : Float) (memory : Memory) :
    ((run { config := config } events).dispatch clock memory signature.name args frame).1 =
      .ok (.file (make text)) := by
  rw [dispatch_standard hinit hspec hparse, onPath_fst make hargs]
  rfl

/-- A call whose arguments are read as the paths of an operation asks for it. -/
theorem dispatch_file (hinit : (run { config := config } events).initialized = true) (op : FileOp)
    {args : Arguments} {frame : Frame} (hargs : args.ReadAs frame op.paths) :
    ((run { config := config } events).dispatch clock memory op.builtin args frame).1 =
      .ok (.file op) := by
  cases op with
  | present text =>
    have hspec : ⟨"bool file_exists( string file )", onPath .present⟩ ∈ specs := by
      simp [specs, fileSpecs]
    have hcall := dispatch_onPath hinit hspec parse_fileExists hargs clock memory
    exact hcall
  | touch text =>
    have hspec : ⟨"bool file_touch( string file )", onPath .touch⟩ ∈ specs := by
      simp [specs, fileSpecs]
    have hcall := dispatch_onPath hinit hspec parse_fileTouch hargs clock memory
    exact hcall
  | delete text =>
    have hspec : ⟨"bool file_delete( string file )", onPath .delete⟩ ∈ specs := by
      simp [specs, fileSpecs]
    have hcall := dispatch_onPath hinit hspec parse_fileDelete hargs clock memory
    exact hcall
  | rename source target =>
    have hspec : ⟨"bool file_rename( string src_file, string dst_file )", fileRename⟩ ∈ specs := by
      simp [specs, fileSpecs]
    have hcall := dispatch_standard hinit hspec parse_fileRename clock memory args frame
    rw [fileRename_fst hargs] at hcall
    exact congrArg Prod.fst hcall

/-- A call carries out what it asks of files. -/
theorem call_of_dispatch {engine : Engine} {name : String} {args : Arguments} {frame : Frame}
    {answer : Answer} (h : (engine.dispatch clock memory name args frame).1 = .ok answer)
    (files : Tree) :
    engine.call clock memory name args frame files =
      (.ok (answer.settle files).1, (engine.dispatch clock memory name args frame).2,
        (answer.settle files).2) := by
  generalize hresult : engine.dispatch clock memory name args frame = result at h
  obtain ⟨outcome, frame'⟩ := result
  obtain rfl : outcome = .ok answer := h
  rw [call, hresult]

/-- However its paths are given, calling for an operation answers this and leaves this tree. -/
def Answers (engine : Engine) (clock : Float) (memory : Memory) (files : Tree) (op : FileOp)
    (answer : Bool) (files' : Tree) : Prop :=
  ∀ args frame, args.ReadAs frame op.paths → ∃ frame',
    engine.call clock memory op.builtin args frame files =
      (.ok (.owned (.boolean answer)), frame', files')

theorem answers_perform (hinit : (run { config := config } events).initialized = true)
    (clock : Float) (memory : Memory) (files : Tree) (op : FileOp) :
    (run { config := config } events).Answers clock memory files op (files.perform op).1
      (files.perform op).2 :=
  fun _ _ hargs => ⟨_, call_of_dispatch (dispatch_file hinit op hargs) files⟩

/-- There is one answer. -/
theorem Answers.unique {engine : Engine} {files files' files'' : Tree} {op : FileOp}
    {answer answer' : Bool} (h : engine.Answers clock memory files op answer files')
    (h' : engine.Answers clock memory files op answer' files'') :
    answer = answer' ∧ files' = files'' := by
  obtain ⟨_, hcall⟩ := h _ _ (Arguments.readAs_ready op.paths)
  obtain ⟨_, hcall'⟩ := h' _ _ (Arguments.readAs_ready op.paths)
  rw [hcall] at hcall'
  cases hcall'
  exact ⟨rfl, rfl⟩

/-- A call that fails has changed nothing. -/
theorem call_of_error {engine : Engine} {name : String} {args : Arguments} {frame frame' : Frame}
    {files files' : Tree} {failure : Failure}
    (h : engine.call clock memory name args frame files = (.error failure, frame', files')) :
    files' = files := by
  unfold call at h
  split at h
  · cases h
    rfl
  · cases h

end Engine

/-! ## §4 Courses of calls -/

/-- A call: the engine, what the call is made with, and the working directory at the time. -/
structure Turn where
  engine : Engine
  clock : Float
  memory : Memory
  name : String
  args : Arguments
  frame : Frame
  base : Place := []

namespace Tree

/-- The tree that a call leaves, whatever it comes to. -/
def after (t : Tree) (turn : Turn) : Tree :=
  (turn.engine.call turn.clock turn.memory turn.name turn.args turn.frame
    (t.rebase turn.base)).2.2

/-- The tree after some calls. -/
def afterAll (t : Tree) (turns : List Turn) : Tree := turns.foldl after t

theorem afterAll_cons (t : Tree) (turn : Turn) (rest : List Turn) :
    t.afterAll (turn :: rest) = (t.after turn).afterAll rest := rfl

theorem Sound.perform {t : Tree} (h : t.Sound) (op : FileOp) : (t.perform op).2.Sound := by
  have hcomes := perform_comes h op
  generalize t.perform op = result at hcomes
  cases hcomes with
  | done _ hsound => exact hsound
  | refused _ => exact h

/-- A call of anything, on any engine, leaves a tree a tree. -/
theorem Sound.after {t : Tree} (h : t.Sound) (turn : Turn) : (t.after turn).Sound := by
  have hstart := h.rebase turn.base
  unfold Tree.after Engine.call
  split
  · exact hstart
  · next answer _ _ =>
    cases answer with
    | value v => exact hstart
    | file op => exact hstart.perform op

theorem Sound.afterAll {t : Tree} (h : t.Sound) (turns : List Turn) : (t.afterAll turns).Sound := by
  induction turns generalizing t with
  | nil => exact h
  | cons turn rest ih => exact ih (h.after turn)

end Tree

namespace Engine

variable {config : Config} {events : List Event} {clock : Float} {memory : Memory}

/-- What calls for operations on files come to, on an engine and on a tree. -/
structure HandlesFiles (engine : Engine) (clock : Float) (memory : Memory) (files : Tree) :
    Prop where
  /-- They are always answered with true or false. -/
  answers : ∀ op, ∃ answer files', engine.Answers clock memory files op answer files'
  /-- True means that the operation was done, and false that it could not be done. -/
  comes : ∀ op answer files', engine.Answers clock memory files op answer files' →
    files.Comes op (answer, files')
  /-- Nothing has changed where the answer is false, -/
  refused : ∀ op files', engine.Answers clock memory files op false files' → files' = files
  /-- or where it was only asked whether something is there, -/
  present : ∀ text answer files',
    engine.Answers clock memory files (.present text) answer files' → files' = files
  /-- or where a call of anything fails. -/
  failed : ∀ name args frame failure frame' files',
    engine.call clock memory name args frame files = (.error failure, frame', files') →
      files' = files
  /-- What was touched is there. -/
  touched : ∀ text files', engine.Answers clock memory files (.touch text) true files' →
    engine.Answers clock memory files' (.present text) true files'
  /-- What was deleted is not there. -/
  deleted : ∀ text files', engine.Answers clock memory files (.delete text) true files' →
    engine.Answers clock memory files' (.present text) false files'
  /-- What was renamed is no longer there under its old path but under the new one, if the new one
  does not mean the same place and the way to it does not come by the old one. -/
  renamed : ∀ source target files',
    engine.Answers clock memory files (.rename source target) true files' →
      (files' = files ∧ ∃ place, files.Names source place ∧ files.Names target place) ∨
        engine.Answers clock memory files' (.present source) false files' ∧
          ∀ place, files.Names source place → ¬ files.ComesBy target place →
            engine.Answers clock memory files' (.present target) true files'

section

variable {files files' : Tree} {op : FileOp} {answer : Bool} {text source target : String}

theorem Answers.after {engine : Engine} {args : Arguments} {frame : Frame}
    (h : engine.Answers clock memory files op answer files')
    (hargs : args.ReadAs frame op.paths) :
    files.after ⟨engine, clock, memory, op.builtin, args, frame, files.base⟩ = files' := by
  obtain ⟨frame', hcall⟩ := h args frame hargs
  rw [Tree.after, Tree.rebase, hcall]

/-- What a call answers and leaves is what the operation comes to. -/
theorem Answers.comes (hinit : (run { config := config } events).initialized = true)
    (hsound : files.Sound)
    (h : (run { config := config } events).Answers clock memory files op answer files') :
    files.Comes op (answer, files') := by
  obtain ⟨hanswer, hfiles⟩ := h.unique (answers_perform hinit clock memory files op)
  rw [hanswer, hfiles]
  exact Tree.perform_comes hsound op

theorem Answers.does (hinit : (run { config := config } events).initialized = true)
    (hsound : files.Sound)
    (h : (run { config := config } events).Answers clock memory files op true files') :
    files.Does op files' := by
  cases h.comes hinit hsound with
  | done hdoes _ => exact hdoes

theorem answers_present (hinit : (run { config := config } events).initialized = true)
    {place : Place} {entry : FileEntry} (h : files.Holds text place entry) :
    (run { config := config } events).Answers clock memory files (.present text) true files := by
  have hanswers := answers_perform hinit clock memory files (.present text)
  rwa [Tree.perform_present_of_holds h] at hanswers

theorem answers_not_present (hinit : (run { config := config } events).initialized = true)
    (h : ∀ place entry, ¬ files.Holds text place entry) :
    (run { config := config } events).Answers clock memory files (.present text) false files := by
  have hanswers := answers_perform hinit clock memory files (.present text)
  rwa [Tree.perform_present_of_not_holds h] at hanswers

theorem handlesFiles (hinit : (run { config := config } events).initialized = true)
    (clock : Float) (memory : Memory) (hsound : files.Sound) :
    (run { config := config } events).HandlesFiles clock memory files where
  answers op := ⟨_, _, answers_perform hinit clock memory files op⟩
  comes op answer files' h := h.comes hinit hsound
  refused op files' h := by
    cases h.comes hinit hsound with
    | refused _ => rfl
  present text answer files' h := by
    cases h.comes hinit hsound with
    | done hdoes _ =>
      cases hdoes with
      | present _ => rfl
    | refused _ => rfl
  failed name args frame failure frame' files' h := call_of_error h
  touched text files' h := by
    obtain ⟨place, contents, hholds⟩ := (h.does hinit hsound).holds_touched
    exact answers_present hinit hholds
  deleted text files' h := by
    exact answers_not_present hinit (h.does hinit hsound).not_holds_deleted
  renamed source target files' h := by
    have hdoes := h.does hinit hsound
    refine hdoes.not_holds_renamed.imp_right fun hgone => ⟨?_, fun place hnames hway => ?_⟩
    · exact answers_not_present hinit hgone
    · obtain ⟨place', entry, hholds⟩ := hdoes.holds_renamed hnames hway
      exact answers_present hinit hholds

end

/-- **Calls for operations on files**: whatever calls there have been on a tree of directories and
files, it is still one, and on every engine on which `init1` has succeeded the next call for an
operation on it is handled as described. This is so wherever the working directory is at the time
of each call. -/
theorem files_handled (config : Config) (events : List Event)
    (hinit : (run { config := config } events).initialized = true) (clock : Float)
    (memory : Memory) (files : Tree) (hsound : files.Sound) (turns : List Turn) (base : Place) :
    (files.afterAll turns).Sound ∧
      (run { config := config } events).HandlesFiles clock memory
        ((files.afterAll turns).rebase base) :=
  ⟨hsound.afterAll turns, handlesFiles hinit clock memory ((hsound.afterAll turns).rebase base)⟩

/-- A directory with a file in it has been moved over an empty one beside it, from within a third,
in which the next call is made. -/
theorem files_handled_moved :
    let engine := run {} [.signal .init1]
    let files : Tree := {
      entries := [(["d"], .directory), (["d", "f"], .file "x"), (["e"], .directory),
        (["w"], .directory)]
      base := ["w"] }
    let turn : Turn := ⟨engine, 0, .usual, "file_rename", .positional 2,
      ⟨[.ready (.text "../d"), .ready (.text "/e")]⟩, ["w"]⟩
    engine.initialized = true ∧ files.Sound ∧
      (files.afterAll [turn]).lookup ["e", "f"] = some (.file "x") ∧
      engine.HandlesFiles 0 .usual ((files.afterAll [turn]).rebase ["w"]) := by
  intro engine files turn
  have hsound : files.Sound := by decide
  have hhandled := files_handled {} [.signal .init1] initialized_run_init1 0 .usual files hsound
    [turn] ["w"]
  have hafter : files.after turn = (files.perform (.rename "../d" "/e")).2 :=
    (answers_perform initialized_run_init1 0 .usual files (.rename "../d" "/e")).after
      (Arguments.readAs_ready ["../d", "/e"])
  refine ⟨initialized_run_init1, hsound, ?_, hhandled.2⟩
  rw [Tree.afterAll_cons, hafter]
  decide

end Engine

end SceneScript
