/-
SceneScript.Proofs.SignatureTheorems — signatures and the one spelling that they are shown in.

Words in a signature may hold nearly anything, parentheses among it: a text is
read between its first opening and its last closing parenthesis, and the rest is
blanks and commas. `parse_eq_ok_iff` says which texts are read as which signature.
`WellFormed` is what can be said of a signature that was read from some text
(`wellFormed_of_parse`); and whatever is well-formed is read back from its own
spelling (`parse_render`), because nothing in its words can pass for the
parenthesis, comma or blank that `render` puts between them.

`canonical_spelling` puts the two together.
-/
import SceneScript.Proofs.TextTheorems
import SceneScript.Signature
import Mathlib.Data.List.Forall2
import Mathlib.Data.String.Basic

namespace SceneScript

namespace Signature

open Text (Blank Word)

/-! ## §1 Well-formed signatures -/

/-- A word in which a character does not occur. -/
structure Token (separator : Char) (text : String) : Prop where
  word : Word text.toList
  separator_not_mem : separator ∉ text.toList

/-- The result type and the name are words without an opening parenthesis, and what the
parameters are made of are words without a comma. -/
structure WellFormed (s : Signature) : Prop where
  result : ∀ result ∈ s.result, Token '(' result
  name : Token '(' s.name
  params : ∀ p ∈ s.params, Token ',' p.type ∧ Token ',' p.name

/-! ## §2 What is read -/

variable {text head inner : List Char} {result : Option String} {name : String}
  {params : List Param} {s : Signature} {source : String}

/-- The text declares a parameter: its words are type and name. -/
def DeclaresParam (text : List Char) (p : Param) : Prop :=
  Text.words text = [p.type.toList, p.name.toList]

theorem readParam_eq_ok_iff {p : Param} : readParam text = .ok p ↔ DeclaresParam text p := by
  obtain ⟨type, name⟩ := p
  unfold readParam DeclaresParam
  split
  · next hwords => simp [hwords, String.ofList_eq]
  · next hwords =>
    exact ⟨(fun h => nomatch h), fun h => absurd h (hwords _ _)⟩

theorem readParams_eq_ok_iff {texts : List (List Char)} :
    readParams texts = .ok params ↔ List.Forall₂ DeclaresParam texts params := by
  induction texts generalizing params with
  | nil => simp [readParams, eq_comm]
  | cons text rest ih =>
    rw [readParams]
    cases hread : readParam text with
    | error fault =>
      refine ⟨(fun h => nomatch h), fun h => ?_⟩
      cases h with
      | cons hdeclares _ =>
        rw [readParam_eq_ok_iff.mpr hdeclares] at hread
        cases hread
    | ok p =>
      cases params with
      | nil => cases hrest : readParams rest <;> simp [Except.map]
      | cons p' params =>
        rw [List.forall₂_cons, ← ih, ← readParam_eq_ok_iff, hread]
        cases hrest : readParams rest <;> simp [Except.map]

theorem readHead_eq_ok_iff :
    readHead head = .ok (result, name) ↔
      Text.words head = (result.toList ++ [name]).map String.toList := by
  unfold readHead
  split
  · next hwords => cases result <;> simp [hwords, String.ofList_eq]
  · next hwords => cases result <;> simp [hwords, String.ofList_eq]
  · next hone htwo =>
    refine ⟨(fun h => nomatch h), fun h => ?_⟩
    cases result with
    | none => exact absurd h (hone _)
    | some result => exact absurd h (htwo _ _)

theorem readInner_eq_ok_iff :
    readInner inner = .ok params ↔
      (Blank inner ∧ params = []) ∨
      (¬ Blank inner ∧
        List.Forall₂ DeclaresParam (Text.split (· == ',') (Text.trim inner)) params) := by
  have hempty : (Text.trim inner).isEmpty = true ↔ Blank inner := by
    rw [List.isEmpty_iff, Text.trim_eq_nil_iff]
  unfold readInner
  split
  · next hblank => simp [hempty.mp hblank, eq_comm]
  · next hblank => simp [mt hempty.mpr hblank, readParams_eq_ok_iff]

/-- A text is read as a signature if it is made of what is before the first opening parenthesis,
what is between that and a closing one, and blanks. -/
theorem parse_eq_ok_iff :
    parse source = .ok s ↔ ∃ head inner after,
      source.toList = head ++ '(' :: (inner ++ ')' :: after) ∧ '(' ∉ head ∧ Blank after ∧
      readHead head = .ok (s.result, s.name) ∧ readInner inner = .ok s.params := by
  have hclose : ∀ {after : List Char}, Blank after → ')' ∉ after := by
    intro after hafter hmem
    have hblank := hafter _ hmem
    revert hblank
    decide
  obtain ⟨result, name, params⟩ := s
  constructor
  · intro h
    unfold parse at h
    split at h
    · cases h
    · next head tail hcut =>
      obtain ⟨hhead, hsource⟩ := Text.cut?_eq_some_iff.mp hcut
      split at h
      · cases h
      · split at h
        · cases h
        · next inner after hlast =>
          obtain ⟨-, rfl⟩ := Text.cutLast?_eq_some_iff.mp hlast
          split at h
          · next hafter =>
            rw [List.isEmpty_iff, Text.trim_eq_nil_iff] at hafter
            split at h
            · cases h
            · next result' name' hread =>
              cases hinner : readInner inner with
              | error fault =>
                rw [hinner] at h
                cases h
              | ok params' =>
                rw [hinner] at h
                cases h
                exact ⟨head, inner, after, hsource, hhead, hafter, hread, hinner⟩
          · cases h
  · rintro ⟨head, inner, after, hsource, hhead, hafter, hread, hinner⟩
    have hcut : Text.cut? (· == '(') source.toList = some (head, inner ++ ')' :: after) :=
      Text.cut?_eq_some_iff.mpr ⟨hhead, hsource⟩
    have hlast : Text.cutLast? (· == ')') (inner ++ ')' :: after) = some (inner, after) :=
      Text.cutLast?_eq_some_iff.mpr ⟨hclose hafter, rfl⟩
    have hmem : ')' ∈ source.toList := by simp [hsource]
    have hempty : (Text.trim after).isEmpty = true :=
      List.isEmpty_iff.mpr (Text.trim_eq_nil_iff.mpr hafter)
    simp [parse, hcut, hlast, hmem, hempty, hread, hinner, Except.map]

/-! ## §3 From texts to signatures -/

/-- The words of a text without a separator are tokens. -/
theorem token_of_mem_words {separator : Char} {token : String}
    (hmem : token.toList ∈ Text.words text) (htext : separator ∉ text) :
    Token separator token := by
  obtain ⟨hword, hchars⟩ := Text.of_mem_words hmem
  exact ⟨hword, fun hsep => htext (hchars _ hsep)⟩

/-- What texts without a comma declare is made of tokens. -/
theorem tokens_of_declared {texts : List (List Char)}
    (h : List.Forall₂ DeclaresParam texts params) (hcomma : ∀ text ∈ texts, ',' ∉ text) :
    ∀ p ∈ params, Token ',' p.type ∧ Token ',' p.name := by
  induction h with
  | nil => simp
  | @cons text p texts params hdeclares _ ih =>
    rw [List.forall_mem_cons] at hcomma ⊢
    rw [DeclaresParam] at hdeclares
    exact ⟨⟨token_of_mem_words (by simp [hdeclares]) hcomma.1,
      token_of_mem_words (by simp [hdeclares]) hcomma.1⟩, ih hcomma.2⟩

theorem wellFormed_of_parse (h : parse source = .ok s) : s.WellFormed := by
  obtain ⟨head, inner, after, -, hhead, -, hread, hinner⟩ := parse_eq_ok_iff.mp h
  rw [readHead_eq_ok_iff] at hread
  constructor
  case result =>
    intro result hresult
    refine token_of_mem_words ?_ hhead
    simp [hread, Option.mem_def.mp hresult]
  case name =>
    refine token_of_mem_words ?_ hhead
    simp [hread]
  case params =>
    intro p hp
    rcases readInner_eq_ok_iff.mp hinner with ⟨-, hnone⟩ | ⟨-, hparams⟩
    · simp [hnone] at hp
    · refine tokens_of_declared hparams (fun text htext hmem => ?_) p hp
      simpa using (Text.of_mem_split htext ',' hmem).2

/-! ## §4 From signatures to texts -/

/-- What a spelling has before its parenthesis. -/
def headText (s : Signature) : List Char :=
  match s.result with
  | some result => result.toList ++ ' ' :: s.name.toList
  | none => s.name.toList

/-- A parameter as the characters of its spelling. -/
def paramText (p : Param) : List Char := p.type.toList ++ ' ' :: p.name.toList

/-- Parameters as the characters of their spelling. -/
def paramsText (params : List Param) : List Char := [',', ' '].intercalate (params.map paramText)

/-- What a spelling has between its parentheses. -/
def innerText : List Param → List Char
  | [] => []
  | p :: params => [' '] ++ paramsText (p :: params) ++ [' ']

theorem toList_render (s : Signature) :
    s.render.toList = s.headText ++ '(' :: (innerText s.params ++ [')']) := by
  obtain ⟨result, name, params⟩ := s
  have hparam : String.toList ∘ renderParam = paramText := by
    funext p
    simp [renderParam, paramText]
  cases result <;> cases params <;>
    simp [render, headText, innerText, paramsText, String.toList_intercalate, ← hparam]

theorem readHead_headText (h : s.WellFormed) : readHead s.headText = .ok (s.result, s.name) := by
  have hname := Text.words_of_word h.name.word
  rw [readHead_eq_ok_iff, headText]
  cases hresult : s.result with
  | none => simpa using hname
  | some result =>
    have hword := (h.result result hresult).word
    have hspace := Text.words_append_blank (c := ' ') (by decide) result.toList s.name.toList
    simp [hspace, Text.words_of_word hword, hname]

theorem open_not_mem_headText (h : s.WellFormed) : '(' ∉ s.headText := by
  have hname := h.name.separator_not_mem
  rw [headText]
  cases hresult : s.result with
  | none => exact hname
  | some result =>
    have hword := (h.result result hresult).separator_not_mem
    simp [hword, hname]

/-- Commas with a blank after them are commas between texts with a blank before them. -/
theorem intercalate_comma_blank (first : List Char) (rest : List (List Char)) :
    [',', ' '].intercalate (first :: rest) =
      [','].intercalate (first :: rest.map fun text => ' ' :: text) := by
  induction rest generalizing first with
  | nil => simp
  | cons next rest ih =>
    have hblank : [','].intercalate ((' ' :: next) :: rest.map fun text => ' ' :: text) =
        ' ' :: [','].intercalate (next :: rest.map fun text => ' ' :: text) := by
      cases rest <;> simp [List.intercalate_cons_cons]
    rw [List.map_cons, List.intercalate_cons_cons, List.intercalate_cons_cons, hblank, ih]
    simp

/-- A parameter's text as it stands between commas: all but the first have a blank before them. -/
theorem declaresParam_paramText {p : Param} (h : Token ',' p.type ∧ Token ',' p.name)
    {blanks : List Char} (hblanks : Blank blanks) : DeclaresParam (blanks ++ paramText p) p := by
  have hspace := Text.words_append_blank (c := ' ') (by decide) p.type.toList p.name.toList
  rw [DeclaresParam, Text.words_blank_append hblanks, paramText, hspace,
    Text.words_of_word h.1.word, Text.words_of_word h.2.word, List.singleton_append]

theorem comma_not_mem_paramText {p : Param} (h : Token ',' p.type ∧ Token ',' p.name) :
    ',' ∉ paramText p := by
  simp [paramText, h.1.separator_not_mem, h.2.separator_not_mem]

/-- The spelling of parameters begins with a word and ends with one. -/
theorem exists_words_paramsText {p : Param}
    (hparams : ∀ q ∈ p :: params, Token ',' q.type ∧ Token ',' q.name) :
    ∃ w back front w', Word w ∧ Word w' ∧
      paramsText (p :: params) = w ++ back ∧ paramsText (p :: params) = front ++ w' := by
  induction params generalizing p with
  | nil =>
    have hp := hparams p List.mem_cons_self
    exact ⟨p.type.toList, ' ' :: p.name.toList, p.type.toList ++ [' '], p.name.toList,
      hp.1.word, hp.2.word, by simp [paramsText, paramText], by simp [paramsText, paramText]⟩
  | cons next params ih =>
    have hp := hparams p List.mem_cons_self
    obtain ⟨-, -, front, w', -, hw', -, hlast⟩ :=
      ih fun q hq => hparams q (List.mem_cons_of_mem p hq)
    have hfirst : paramsText (p :: next :: params) =
        paramText p ++ [',', ' '] ++ (front ++ w') := by
      rw [← hlast]
      simp [paramsText, List.intercalate_cons_cons]
    refine ⟨p.type.toList, ' ' :: (p.name.toList ++ [',', ' '] ++ (front ++ w')),
      paramText p ++ [',', ' '] ++ front, w', hp.1.word, hw', ?_, ?_⟩
    · simp [hfirst, paramText]
    · simp [hfirst]

theorem trim_innerText {p : Param}
    (hparams : ∀ q ∈ p :: params, Token ',' q.type ∧ Token ',' q.name) :
    Text.trim (innerText (p :: params)) = paramsText (p :: params) ∧
      ¬ Blank (innerText (p :: params)) := by
  obtain ⟨w, back, front, w', hw, hw', hhead, hlast⟩ := exists_words_paramsText hparams
  have htrim : Text.trim (innerText (p :: params)) = paramsText (p :: params) := by
    refine Text.trim_append Text.blank_space Text.blank_space ?_ ?_
    · rw [hhead]
      exact hw.head back
    · rw [hlast]
      exact hw'.getLast front
  refine ⟨htrim, fun hblank => ?_⟩
  rw [← Text.trim_eq_nil_iff, htrim, hhead, List.append_eq_nil_iff] at hblank
  exact hw.ne_nil hblank.1

theorem split_paramsText {p : Param}
    (hparams : ∀ q ∈ p :: params, Token ',' q.type ∧ Token ',' q.name) :
    Text.split (· == ',') (paramsText (p :: params)) =
      paramText p :: (params.map paramText).map fun text => ' ' :: text := by
  rw [List.forall_mem_cons] at hparams
  rw [paramsText, List.map_cons, intercalate_comma_blank]
  refine Text.split_intercalate (by simp) (List.forall_mem_cons.mpr ⟨?_, ?_⟩)
  · exact comma_not_mem_paramText hparams.1
  · simp only [List.map_map, List.forall_mem_map]
    intro q hq
    simpa using comma_not_mem_paramText (hparams.2 q hq)

theorem readInner_innerText (hparams : ∀ p ∈ params, Token ',' p.type ∧ Token ',' p.name) :
    readInner (innerText params) = .ok params := by
  rw [readInner_eq_ok_iff]
  cases params with
  | nil => exact .inl ⟨Text.blank_nil, rfl⟩
  | cons p params =>
    obtain ⟨htrim, hblank⟩ := trim_innerText hparams
    refine .inr ⟨hblank, ?_⟩
    rw [htrim, split_paramsText hparams]
    rw [List.forall_mem_cons] at hparams
    refine .cons (declaresParam_paramText hparams.1 Text.blank_nil) ?_
    rw [List.map_map, List.forall₂_map_left_iff, List.forall₂_same]
    exact fun q hq => declaresParam_paramText (hparams.2 q hq) Text.blank_space

/-- A well-formed signature is read back from its spelling. -/
theorem parse_render (h : s.WellFormed) : parse s.render = .ok s :=
  parse_eq_ok_iff.mpr ⟨s.headText, innerText s.params, [], toList_render s,
    open_not_mem_headText h, Text.blank_nil, readHead_headText h, readInner_innerText h.params⟩

/-! ## §5 The canonical spelling -/

/-- **Signatures and their spellings.** The signatures that texts are read as are the well-formed
ones, and each of those is read back from its spelling. So the spelling of what a text was read as
stands for the same signature and is spelled as itself; and two texts come to one spelling exactly
if they are read as one signature. -/
theorem canonical_spelling :
    (∀ s : Signature, (∃ source, parse source = .ok s) ↔ s.WellFormed) ∧
    (∀ s : Signature, s.WellFormed → parse s.render = .ok s) ∧
    (∀ source s, parse source = .ok s →
      parse s.render = .ok s ∧ (parse s.render).map render = .ok s.render) ∧
    ∀ source source' s s', parse source = .ok s → parse source' = .ok s' →
      (s.render = s'.render ↔ s = s') := by
  refine ⟨fun s => ⟨?_, fun h => ⟨s.render, parse_render h⟩⟩, fun s => parse_render, ?_, ?_⟩
  · rintro ⟨source, hparse⟩
    exact wellFormed_of_parse hparse
  · intro source s hparse
    have hback := parse_render (wellFormed_of_parse hparse)
    refine ⟨hback, ?_⟩
    rw [hback]
    rfl
  · intro source source' s s' hparse hparse'
    refine ⟨fun hrender => ?_, congrArg render⟩
    have hback := parse_render (wellFormed_of_parse hparse)
    have hback' := parse_render (wellFormed_of_parse hparse')
    rw [hrender, hback'] at hback
    exact (Except.ok.inj hback).symm

/-- Parentheses may stand inside words, where they neither open nor close anything. -/
example : (parse "v) f(g x) ,h (y))").map render = .ok "v) f( g x), h (y) )" := by
  decide

end Signature

end SceneScript
