/-
SceneScript.Proofs.TextTheorems — what cutting a text at blanks and separators finds.

Every function of `Text` is pinned down by the texts that it takes apart: `trim`
by what stands between blanks (`exists_trim`, `trim_append`), `cut?` and `cutLast?`
by what stands before and after one separator (`cut?_eq_some_iff`,
`cutLast?_eq_some_iff`), `split` by the pieces with separators between them
(`intercalate_split`, `split_intercalate`).

What `words` gives follows from one equation, that a blank belongs to no word
(`words_append_blank`). Reading it backwards, a text without words is blank
(`words_eq_nil_iff`), and a text of two words is these two with blanks around and
between them (`words_eq_pair_iff`).
-/
import SceneScript.Text.Blank
import Mathlib.Data.List.TakeWhile

namespace SceneScript.Text

/-! ## §1 Separators -/

theorem split_eq_splitOnP (isSeparator : Char → Bool) (cs : List Char) :
    split isSeparator cs = cs.splitOnP isSeparator := by
  induction cs with
  | nil => rfl
  | cons c cs ih =>
    rw [split, List.splitOnP_cons_eq_if_modifyHead, ih]
    split
    · rfl
    · split
      · next heq => rw [heq, List.modifyHead_cons]
      · next heq => exact absurd heq (List.splitOnP_ne_nil _ _)

/-- The pieces hold characters of the text, and no separators. -/
theorem of_mem_split {isSeparator : Char → Bool} {cs piece : List Char}
    (h : piece ∈ split isSeparator cs) : ∀ c ∈ piece, c ∈ cs ∧ isSeparator c = false := by
  induction cs generalizing piece with
  | nil =>
    simp only [split, List.mem_singleton] at h
    simp [h]
  | cons c cs ih =>
    have hlater : ∀ piece ∈ split isSeparator cs, ∀ d ∈ piece,
        d ∈ c :: cs ∧ isSeparator d = false := by
      intro piece hpiece d hd
      obtain ⟨hmem, hsep⟩ := ih hpiece d hd
      exact ⟨List.mem_cons_of_mem c hmem, hsep⟩
    rw [split] at h
    split at h
    · rcases List.mem_cons.mp h with rfl | h
      · simp
      · exact hlater piece h
    · next hc =>
      split at h
      · next first rest hsplit =>
        rcases List.mem_cons.mp h with rfl | h
        · intro d hd
          rcases List.mem_cons.mp hd with rfl | hd
          · exact ⟨List.mem_cons_self, by simpa using hc⟩
          · exact hlater first (by simp [hsplit]) d hd
        · exact hlater piece (by simp [hsplit, h])
      · next hsplit => exact absurd hsplit (split_ne_nil _ _)

variable {separator : Char} {cs front back : List Char}

/-- A text is its pieces with separators between them. -/
theorem intercalate_split (separator : Char) (cs : List Char) :
    [separator].intercalate (split (· == separator) cs) = cs := by
  rw [split_eq_splitOnP, ← List.splitOn_eq_splitOnP]
  exact List.intercalate_splitOn separator

/-- Pieces without separators are the pieces of what they make up. -/
theorem split_intercalate {pieces : List (List Char)} (hne : pieces ≠ [])
    (hpieces : ∀ piece ∈ pieces, separator ∉ piece) :
    split (· == separator) ([separator].intercalate pieces) = pieces := by
  rw [split_eq_splitOnP, ← List.splitOn_eq_splitOnP]
  exact List.splitOn_intercalate separator hpieces hne

/-- A text is cut where a separator is that has none before it. -/
theorem cut?_eq_some_iff :
    cut? (· == separator) cs = some (front, back) ↔
      separator ∉ front ∧ cs = front ++ separator :: back := by
  constructor
  · intro h
    unfold cut? at h
    split at h
    · cases h
    · next c back' hdrop =>
      cases h
      have hne : cs.dropWhile (fun c => !c == separator) ≠ [] := by simp [hdrop]
      have hc := List.head_dropWhile_not _ hne
      simp only [hdrop, List.head_cons, Bool.not_eq_false', beq_iff_eq] at hc
      subst hc
      refine ⟨fun hmem => ?_, ?_⟩
      · simpa using List.mem_takeWhile_imp hmem
      · rw [← hdrop, List.takeWhile_append_dropWhile]
  · rintro ⟨hfront, rfl⟩
    have hpos : ∀ c ∈ front, (!c == separator) = true := by
      intro c hc
      have hne : c ≠ separator := fun h => hfront (h ▸ hc)
      simpa using hne
    simp [cut?, List.dropWhile_append_of_pos hpos, List.takeWhile_append_of_pos hpos]

/-- A text is cut for the last time where a separator is that has none after it. -/
theorem cutLast?_eq_some_iff :
    cutLast? (· == separator) cs = some (front, back) ↔
      separator ∉ back ∧ cs = front ++ separator :: back := by
  have hreverse : cs.reverse = back.reverse ++ separator :: front.reverse ↔
      cs = front ++ separator :: back := by
    rw [List.reverse_eq_iff]
    simp
  simp only [cutLast?, Option.map_eq_some_iff, Prod.exists, Prod.mk.injEq,
    List.reverse_eq_iff]
  constructor
  · rintro ⟨_, _, hcut, rfl, rfl⟩
    obtain ⟨hmem, hcs⟩ := cut?_eq_some_iff.mp hcut
    exact ⟨by simpa using hmem, hreverse.mp hcs⟩
  · rintro ⟨hmem, hcs⟩
    exact ⟨_, _, cut?_eq_some_iff.mpr ⟨by simpa using hmem, hreverse.mpr hcs⟩, rfl, rfl⟩

/-! ## §2 Blanks at the ends -/

/-- Nothing but blanks, or nothing at all. -/
def Blank (cs : List Char) : Prop := ∀ c ∈ cs, isBlank c = true

theorem blank_nil : Blank [] := fun _ hc => absurd hc List.not_mem_nil

theorem blank_space : Blank [' '] := by
  intro c hc
  rw [List.mem_singleton.mp hc]
  decide

theorem Blank.append (hfront : Blank front) (hback : Blank back) : Blank (front ++ back) := by
  intro c hc
  rcases List.mem_append.mp hc with hc | hc
  · exact hfront c hc
  · exact hback c hc

theorem Blank.reverse (h : Blank cs) : Blank cs.reverse :=
  fun c hc => h c (List.mem_reverse.mp hc)

theorem trimStart_append (hfront : Blank front) (hcs : ∀ c ∈ cs.head?, isBlank c = false) :
    trimStart (front ++ cs) = cs := by
  rw [trimStart, List.dropWhile_append_of_pos hfront]
  cases cs with
  | nil => rfl
  | cons c cs => simp [hcs c rfl]

theorem exists_trimStart (cs : List Char) : ∃ front, Blank front ∧ cs = front ++ trimStart cs :=
  ⟨cs.takeWhile isBlank, fun _ hc => List.mem_takeWhile_imp hc,
    List.takeWhile_append_dropWhile.symm⟩

theorem trimEnd_eq (cs : List Char) : trimEnd cs = (trimStart cs.reverse).reverse := rfl

/-- What stands between blanks, and neither begins nor ends with one, is found by `trim`. -/
theorem trim_append {mid : List Char} (hfront : Blank front) (hback : Blank back)
    (hhead : ∀ c ∈ mid.head?, isBlank c = false)
    (hlast : ∀ c ∈ mid.getLast?, isBlank c = false) : trim (front ++ mid ++ back) = mid := by
  have hend : trimEnd (mid ++ back) = mid := by
    rw [trimEnd_eq, List.reverse_append, trimStart_append hback.reverse (by simpa using hlast),
      List.reverse_reverse]
  rw [trim, List.append_assoc]
  cases mid with
  | nil =>
    have hstart : trimStart (front ++ back ++ []) = [] :=
      trimStart_append (hfront.append hback) (by simp)
    rw [List.append_nil] at hstart
    rw [List.nil_append, hstart]
    rfl
  | cons c mid => rw [trimStart_append hfront (by simpa using hhead), hend]

/-- What `trim` takes off a text are blanks. -/
theorem exists_trim (cs : List Char) :
    ∃ front back, Blank front ∧ Blank back ∧ cs = front ++ trim cs ++ back := by
  obtain ⟨front, hfront, hcs⟩ := exists_trimStart cs
  obtain ⟨back, hback, hend⟩ := exists_trimStart (trimStart cs).reverse
  refine ⟨front, back.reverse, hfront, hback.reverse, ?_⟩
  have hmid : trimStart cs = trim cs ++ back.reverse := by
    rw [trim, trimEnd_eq, ← List.reverse_append, ← hend, List.reverse_reverse]
  rw [List.append_assoc, ← hmid, ← hcs]

/-- Only blank text comes to nothing. -/
theorem trim_eq_nil_iff : trim cs = [] ↔ Blank cs := by
  constructor
  · intro h
    obtain ⟨front, back, hfront, hback, hcs⟩ := exists_trim cs
    rw [hcs, h, List.append_nil]
    exact hfront.append hback
  · intro h
    have htrim : trim (cs ++ [] ++ []) = [] := trim_append h blank_nil (by simp) (by simp)
    simpa using htrim

/-! ## §3 Words -/

/-- A word: something without a blank in it. -/
structure Word (cs : List Char) : Prop where
  ne_nil : cs ≠ []
  unbroken : ∀ c ∈ cs, isBlank c = false

variable {w : List Char}

theorem Word.head (h : Word w) (back : List Char) :
    ∀ c ∈ (w ++ back).head?, isBlank c = false := by
  obtain ⟨c, rest, rfl⟩ := List.exists_cons_of_ne_nil h.ne_nil
  simpa using h.unbroken c List.mem_cons_self

theorem Word.getLast (h : Word w) (front : List Char) :
    ∀ c ∈ (front ++ w).getLast?, isBlank c = false := by
  rw [List.getLast?_append, List.getLast?_eq_some_getLast h.ne_nil]
  simpa using h.unbroken _ (List.getLast_mem h.ne_nil)

@[simp] theorem words_nil : words [] = [] := rfl

/-- A blank belongs to no word. -/
theorem words_append_blank {c : Char} (hc : isBlank c = true) (front back : List Char) :
    words (front ++ c :: back) = words front ++ words back := by
  simp only [words, split_eq_splitOnP]
  rw [List.splitOnP_append_cons front back hc, List.filter_append]

theorem words_blank_append (h : Blank front) (cs : List Char) : words (front ++ cs) = words cs := by
  induction front with
  | nil => rfl
  | cons c front ih =>
    have hstep := words_append_blank (h c List.mem_cons_self) [] (front ++ cs)
    rw [List.nil_append, words_nil, List.nil_append] at hstep
    rw [List.cons_append, hstep]
    exact ih fun d hd => h d (List.mem_cons_of_mem c hd)

theorem words_of_blank (h : Blank cs) : words cs = [] := by
  simpa using words_blank_append h []

theorem words_of_word (h : Word w) : words w = [w] := by
  rw [words, split_eq_splitOnP, List.splitOnP_eq_singleton h.unbroken]
  simp [h.ne_nil]

/-- A word that a blank or nothing follows is the first one. -/
theorem words_word_append (h : Word w) (hback : ∀ c ∈ back.head?, isBlank c = true) :
    words (w ++ back) = w :: words back := by
  cases back with
  | nil => simp [words_of_word h]
  | cons c back =>
    have hc := hback c rfl
    have hrest := words_append_blank hc [] back
    rw [words_append_blank hc, words_of_word h, List.singleton_append]
    simpa using hrest.symm

/-- The words of a text are words, of characters of the text. -/
theorem of_mem_words (h : w ∈ words cs) : Word w ∧ ∀ c ∈ w, c ∈ cs := by
  obtain ⟨hmem, hne⟩ := List.mem_filter.mp h
  have hchars := of_mem_split hmem
  exact ⟨⟨by simpa using hne, fun c hc => (hchars c hc).2⟩, fun c hc => (hchars c hc).1⟩

/-- A text is blank, or there is a first word in it, which a blank or nothing follows. -/
theorem blank_or_word (cs : List Char) :
    Blank cs ∨ ∃ front w back, cs = front ++ w ++ back ∧ Blank front ∧ Word w ∧
      ∀ c ∈ back.head?, isBlank c = true := by
  obtain ⟨front, hfront, hcs⟩ := exists_trimStart cs
  by_cases hrest : trimStart cs = []
  · rw [hrest, List.append_nil] at hcs
    exact .inl (hcs ▸ hfront)
  · have hsplit := List.takeWhile_append_dropWhile (p := fun c => !isBlank c) (l := trimStart cs)
    refine .inr ⟨front, (trimStart cs).takeWhile fun c => !isBlank c,
      (trimStart cs).dropWhile fun c => !isBlank c, ?_, hfront, ⟨?_, fun c hc => ?_⟩, ?_⟩
    · rw [List.append_assoc, hsplit, ← hcs]
    · -- The text begins with its first word, for there is no blank at its start any more.
      have hhead := List.head_dropWhile_not isBlank hrest
      cases htrim : trimStart cs with
      | nil => exact absurd htrim hrest
      | cons c rest =>
        have hc : isBlank c = false := by
          simp only [trimStart] at htrim
          simpa [htrim] using hhead
        simp [hc]
    · simpa using List.mem_takeWhile_imp hc
    · intro c hc
      have hnot := List.head?_dropWhile_not (fun c => !isBlank c) (trimStart cs)
      rw [Option.mem_def.mp hc] at hnot
      simpa using hnot

/-- Only blank text has no words. -/
theorem words_eq_nil_iff : words cs = [] ↔ Blank cs := by
  refine ⟨fun h => ?_, words_of_blank⟩
  rcases blank_or_word cs with hblank | ⟨front, w, back, rfl, hfront, hw, hback⟩
  · exact hblank
  · rw [List.append_assoc, words_blank_append hfront, words_word_append hw hback] at h
    cases h

theorem exists_of_words_eq_cons {rest : List (List Char)} (h : words cs = w :: rest) :
    ∃ front back, cs = front ++ w ++ back ∧ Blank front ∧ Word w ∧
      (∀ c ∈ back.head?, isBlank c = true) ∧ words back = rest := by
  rcases blank_or_word cs with hblank | ⟨front, w', back, rfl, hfront, hw, hback⟩
  · rw [words_of_blank hblank] at h
    cases h
  · rw [List.append_assoc, words_blank_append hfront, words_word_append hw hback] at h
    cases h
    exact ⟨front, back, rfl, hfront, hw, hback, rfl⟩

/-- A text of two words is these two with blanks around and between them. -/
theorem words_eq_pair_iff {w' : List Char} :
    words cs = [w, w'] ↔ Word w ∧ Word w' ∧ ∃ front gap back, Blank front ∧ Blank gap ∧ gap ≠ [] ∧
      Blank back ∧ cs = front ++ w ++ gap ++ w' ++ back := by
  constructor
  · intro h
    obtain ⟨front, rest, rfl, hfront, hw, hrest, hwords⟩ := exists_of_words_eq_cons h
    obtain ⟨gap, back, rfl, hgap, hw', -, hwords'⟩ := exists_of_words_eq_cons hwords
    refine ⟨hw, hw', front, gap, back, hfront, hgap, ?_, words_eq_nil_iff.mp hwords', ?_⟩
    · -- Without a gap the second word would begin with a blank.
      rintro rfl
      obtain ⟨c, w'', rfl⟩ := List.exists_cons_of_ne_nil hw'.ne_nil
      have hblank := hrest c rfl
      rw [hw'.unbroken c List.mem_cons_self] at hblank
      cases hblank
    · simp only [List.append_assoc]
  · rintro ⟨hw, hw', front, gap, back, hfront, hgap, hne, hback, rfl⟩
    have hfirst : ∀ c ∈ (gap ++ (w' ++ back)).head?, isBlank c = true := by
      obtain ⟨d, gap, rfl⟩ := List.exists_cons_of_ne_nil hne
      simpa using hgap d List.mem_cons_self
    have hsecond : ∀ c ∈ back.head?, isBlank c = true :=
      fun c hc => hback c (List.mem_of_mem_head? hc)
    simp only [List.append_assoc]
    rw [words_blank_append hfront, words_word_append hw hfirst, words_blank_append hgap,
      words_word_append hw' hsecond, words_of_blank hback]

end SceneScript.Text
