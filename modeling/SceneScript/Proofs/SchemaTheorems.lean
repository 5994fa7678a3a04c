/-
SceneScript.Proofs.SchemaTheorems — the texts that are schemas.

A schema is written as

    blanks name blanks = blanks body blanks

and its body is the name of a type, or declarations between braces with semicolons
between them. A declaration is a type, blanks and a name with blanks around the
two, or blanks only. `Spells` says this of a schema and a text; `WellFormed` says
which schemas are written at all: all their names are identifiers, and a body with
fields has some, of different names.

The reader cuts a text at equals signs, braces, semicolons and blanks one after
the other. That it finds the parts where they were written is due to identifiers:
no character of one can be taken for any of these (`Ident.plain`). So each part of
the reader is an equivalence with what it reads, from `readDecl_eq_some_iff` up to
`parse_eq_ok_iff`. `parse_grammar` adds what becomes of all other texts.
-/
import SceneScript.Proofs.RegistryTheorems
import SceneScript.Proofs.TextTheorems
import Mathlib.Data.String.Basic

namespace SceneScript

namespace Schema

open Text (Blank Word)

/-! ## §1 Identifiers -/

/-- A letter of ASCII or an underscore. -/
def Letter (c : Char) : Prop := ('A' ≤ c ∧ c ≤ 'Z') ∨ ('a' ≤ c ∧ c ≤ 'z') ∨ c = '_'

/-- A digit of ASCII. -/
def Digit (c : Char) : Prop := '0' ≤ c ∧ c ≤ '9'

/-- An identifier: a letter, then letters and digits. -/
inductive Ident : List Char → Prop
  | intro {c : Char} {cs : List Char} (hfirst : Letter c) (hrest : ∀ d ∈ cs, Letter d ∨ Digit d) :
      Ident (c :: cs)

theorem isIdentStart_iff {c : Char} : isIdentStart c = true ↔ Letter c := by
  have hstart : isIdentStart c = (decide ('A' ≤ c ∧ c ≤ 'Z') ||
      (decide ('a' ≤ c) && decide (c ≤ 'z')) || c == '_') := rfl
  simp [hstart, Letter, or_assoc]

theorem isIdentChar_iff {c : Char} : isIdentChar c = true ↔ Letter c ∨ Digit c := by
  have hchar : isIdentChar c = (decide ('A' ≤ c ∧ c ≤ 'Z') ||
      (decide ('a' ≤ c) && decide (c ≤ 'z')) || (decide ('0' ≤ c) && decide (c ≤ '9')) ||
      c == '_') := rfl
  simp only [hchar, Letter, Digit, Bool.or_eq_true, Bool.and_eq_true, decide_eq_true_eq,
    beq_iff_eq]
  tauto

theorem isIdent_iff {cs : List Char} : isIdent cs = true ↔ Ident cs := by
  cases cs with
  | nil => exact ⟨(fun h => nomatch h), (fun h => nomatch h)⟩
  | cons c cs =>
    simp only [isIdent, Bool.and_eq_true, List.all_eq_true, isIdentStart_iff, isIdentChar_iff]
    refine ⟨fun h => .intro h.1 h.2, fun h => ?_⟩
    cases h with
    | intro hfirst hrest => exact ⟨hfirst, hrest⟩

/-- The characters that separate names: those of schemas, and the point between the names of a
path. -/
def marks : List Char := ['=', ';', '\x7b', '\x7d', '.']

theorem plain_of_letter_or_digit {c : Char} (h : Letter c ∨ Digit c) :
    Text.isBlank c = false ∧ c ∉ marks := by
  have hrange : (65 ≤ c.toNat ∧ c.toNat ≤ 90) ∨ (97 ≤ c.toNat ∧ c.toNat ≤ 122) ∨
      c.toNat = 95 ∨ (48 ≤ c.toNat ∧ c.toNat ≤ 57) := by
    rcases h with (⟨hlow, hhigh⟩ | ⟨hlow, hhigh⟩ | rfl) | ⟨hlow, hhigh⟩
    · exact .inl ⟨hlow, hhigh⟩
    · exact .inr (.inl ⟨hlow, hhigh⟩)
    · exact .inr (.inr (.inl rfl))
    · exact .inr (.inr (.inr ⟨hlow, hhigh⟩))
  constructor
  · simp only [Text.isBlank, Bool.or_eq_false_iff, Bool.and_eq_false_iff, decide_eq_false_iff_not,
      beq_eq_false_iff_ne]
    omega
  · have hmarks : ∀ d ∈ marks, d.toNat ∈ [61, 59, 123, 125, 46] := by simp [marks]
    intro hmem
    have hc := hmarks c hmem
    simp only [List.mem_cons, List.not_mem_nil, or_false] at hc
    omega

variable {cs text : List Char}

/-- No character of an identifier is a blank or a mark. -/
theorem Ident.plain (h : Ident cs) : ∀ c ∈ cs, Text.isBlank c = false ∧ c ∉ marks := by
  cases h with
  | intro hfirst hrest =>
    intro c hc
    rcases List.mem_cons.mp hc with rfl | hc
    · exact plain_of_letter_or_digit (.inl hfirst)
    · exact plain_of_letter_or_digit (hrest c hc)

theorem Ident.word (h : Ident cs) : Word cs := by
  refine ⟨?_, fun c hc => (h.plain c hc).1⟩
  rintro rfl
  cases h

theorem Ident.not_mem (h : Ident cs) {mark : Char} (hmark : mark ∈ marks) : mark ∉ cs :=
  fun hmem => (h.plain mark hmem).2 hmark

/-- No blank is a mark. -/
theorem not_mem_of_blank (h : Blank cs) {mark : Char} (hmark : mark ∈ marks) : mark ∉ cs := by
  have hmarks : ∀ mark ∈ marks, Text.isBlank mark = false := by simp [marks, Text.isBlank]
  intro hmem
  have hblank := h mark hmem
  rw [hmarks mark hmark] at hblank
  cases hblank

/-! ## §2 The grammar -/

/-- Type and name of a declared field are identifiers. -/
structure WellFormedDecl (decl : FieldDecl) : Prop where
  type : Ident decl.type.toList
  name : Ident decl.name.toList

/-- A body names a type, or it has at least one field, and its fields have different names. -/
inductive WellFormedBody : SchemaBody → Prop
  | shared {target : String} (htarget : Ident target.toList) : WellFormedBody (.alias target)
  | fields {decls : List FieldDecl} (hne : decls ≠ [])
      (hdecls : ∀ decl ∈ decls, WellFormedDecl decl)
      (hnodup : (decls.map FieldDecl.name).Nodup) : WellFormedBody (.fields decls)

/-- A schema that can be written. -/
structure WellFormed (schema : Schema) : Prop where
  name : Ident schema.name.toList
  body : WellFormedBody schema.body

/-- A field as written: its type, blanks and its name, with blanks around the two. -/
inductive SpellsDecl (decl : FieldDecl) : List Char → Prop
  | intro {front gap back : List Char} (hfront : Blank front) (hgap : Blank gap) (hne : gap ≠ [])
      (hback : Blank back) :
      SpellsDecl decl (front ++ decl.type.toList ++ gap ++ decl.name.toList ++ back)

/-- Fields as written: every text is a field, in this order, or blank. -/
inductive SpellsDecls : List FieldDecl → List (List Char) → Prop
  | nil : SpellsDecls [] []
  | blank {decls : List FieldDecl} {text : List Char} {rest : List (List Char)}
      (htext : Blank text) (hrest : SpellsDecls decls rest) : SpellsDecls decls (text :: rest)
  | field {decl : FieldDecl} {decls : List FieldDecl} {text : List Char}
      {rest : List (List Char)} (htext : SpellsDecl decl text) (hrest : SpellsDecls decls rest) :
      SpellsDecls (decl :: decls) (text :: rest)

/-- A body as written: the name of a type, or texts between braces and with semicolons between
them. -/
inductive SpellsBody : SchemaBody → List Char → Prop
  | shared {target : String} : SpellsBody (.alias target) target.toList
  | fields {decls : List FieldDecl} {texts : List (List Char)} (htexts : SpellsDecls decls texts) :
      SpellsBody (.fields decls) ('\x7b' :: ([';'].intercalate texts ++ ['\x7d']))

/-- A schema as written: its name, an equals sign and its body, with blanks anywhere between. -/
inductive Spells (schema : Schema) : List Char → Prop
  | intro {front gap gap' back body : List Char} (hfront : Blank front) (hgap : Blank gap)
      (hgap' : Blank gap') (hback : Blank back) (hbody : SpellsBody schema.body body) :
      Spells schema (front ++ schema.name.toList ++ gap ++ '=' :: (gap' ++ body ++ back))

/-! ## §3 Fields -/

variable {decl : FieldDecl} {decls known : List FieldDecl} {texts : List (List Char)}
  {body : SchemaBody} {schema : Schema} {source : String}

theorem readDecl_eq_none_iff : readDecl text = .ok none ↔ Blank text := by
  rw [← Text.words_eq_nil_iff]
  unfold readDecl
  split
  · next hwords => simp [hwords]
  · next hwords =>
    rw [hwords]
    split <;> simp
  · next hnil _ => simpa using hnil

theorem readDecl_eq_some_iff :
    readDecl text = .ok (some decl) ↔ WellFormedDecl decl ∧ SpellsDecl decl text := by
  have hwords : WellFormedDecl decl ∧ SpellsDecl decl text ↔
      Text.words text = [decl.type.toList, decl.name.toList] ∧ WellFormedDecl decl := by
    rw [Text.words_eq_pair_iff]
    constructor
    · rintro ⟨hdecl, hfront, hgap, hne, hback⟩
      exact ⟨⟨hdecl.type.word, hdecl.name.word, _, _, _, hfront, hgap, hne, hback, rfl⟩, hdecl⟩
    · rintro ⟨⟨-, -, front, gap, back, hfront, hgap, hne, hback, rfl⟩, hdecl⟩
      exact ⟨hdecl, .intro hfront hgap hne hback⟩
  rw [hwords]
  unfold readDecl
  split
  · next hnil => simp [hnil]
  · next type name htwo =>
    obtain ⟨type', name'⟩ := decl
    have hparts : WellFormedDecl ⟨type', name'⟩ ↔ Ident type'.toList ∧ Ident name'.toList :=
      ⟨fun h => ⟨h.type, h.name⟩, fun h => ⟨h.1, h.2⟩⟩
    simp only [htwo, hparts, List.cons.injEq, and_true]
    constructor
    · intro h
      split at h
      · next hidents =>
        cases h
        simpa [isIdent_iff] using hidents
      · cases h
    · rintro ⟨⟨rfl, rfl⟩, hidents⟩
      simp [isIdent_iff, hidents]
  · next htwo =>
    exact ⟨(fun h => nomatch h), fun h => absurd h.1 (htwo _ _)⟩

theorem nodup_names_append_singleton :
    ((known ++ [decl]).map FieldDecl.name).Nodup ↔
      (known.map FieldDecl.name).Nodup ∧ decl.name ∉ known.map FieldDecl.name := by
  rw [List.map_append, List.map_singleton, ← List.concat_eq_append, List.nodup_concat, and_comm]

/-- Reading on after known fields gives these and the ones that the texts declare. -/
theorem readDecls_eq_ok_iff (hknown : (known.map FieldDecl.name).Nodup) :
    readDecls known texts = .ok decls ↔ ∃ new, decls = known ++ new ∧ SpellsDecls new texts ∧
      (∀ decl ∈ new, WellFormedDecl decl) ∧ (decls.map FieldDecl.name).Nodup := by
  induction texts generalizing known with
  | nil =>
    rw [readDecls]
    constructor
    · rintro ⟨⟩
      exact ⟨[], by simp, .nil, by simp, hknown⟩
    · rintro ⟨new, rfl, hnew, -, -⟩
      cases hnew
      simp
  | cons text rest ih =>
    rw [readDecls]
    constructor
    · intro h
      split at h
      · cases h
      · next hread =>
        obtain ⟨new, rfl, hnew, hdecls, hnodup⟩ := (ih hknown).mp h
        exact ⟨new, rfl, .blank (readDecl_eq_none_iff.mp hread) hnew, hdecls, hnodup⟩
      · next decl hread =>
        obtain ⟨hdecl, htext⟩ := readDecl_eq_some_iff.mp hread
        split at h
        · cases h
        · next hfree =>
          have hfresh : decl.name ∉ known.map FieldDecl.name := by simpa using hfree
          obtain ⟨new, rfl, hnew, hdecls, hnodup⟩ :=
            (ih (nodup_names_append_singleton.mpr ⟨hknown, hfresh⟩)).mp h
          exact ⟨decl :: new, by simp, .field htext hnew,
            List.forall_mem_cons.mpr ⟨hdecl, hdecls⟩, hnodup⟩
    · rintro ⟨new, rfl, hnew, hdecls, hnodup⟩
      cases hnew with
      | blank htext hrest =>
        simp only [readDecl_eq_none_iff.mpr htext]
        exact (ih hknown).mpr ⟨new, rfl, hrest, hdecls, hnodup⟩
      | @field decl new _ _ htext hrest =>
        rw [List.forall_mem_cons] at hdecls
        rw [List.append_cons] at hnodup
        have hfirst : ((known ++ [decl]).map FieldDecl.name).Nodup := by
          rw [List.map_append] at hnodup
          exact hnodup.of_append_left
        have hfree := (nodup_names_append_singleton.mp hfirst).2
        simp only [readDecl_eq_some_iff.mpr ⟨hdecls.1, htext⟩]
        rw [if_neg (by simpa using hfree)]
        exact (ih hfirst).mpr ⟨new, by simp, hrest, hdecls.2, by simpa using hnodup⟩

theorem readFields_eq_ok_iff {inner : List Char} :
    readFields inner = .ok body ↔ WellFormedBody body ∧
      ∃ decls, body = .fields decls ∧ SpellsDecls decls (Text.split (· == ';') inner) := by
  have hread : ∀ decls, readDecls [] (Text.split (· == ';') inner) = .ok decls ↔
      SpellsDecls decls (Text.split (· == ';') inner) ∧
        (∀ decl ∈ decls, WellFormedDecl decl) ∧ (decls.map FieldDecl.name).Nodup := by
    intro decls
    have hnone : (([] : List FieldDecl).map FieldDecl.name).Nodup := List.nodup_nil
    rw [readDecls_eq_ok_iff hnone]
    simp
  constructor
  · intro h
    unfold readFields at h
    split at h
    · cases h
    · cases h
    · next decls hne hdecls =>
      cases h
      obtain ⟨hspells, hidents, hnodup⟩ := (hread decls).mp hdecls
      exact ⟨.fields (by rintro rfl; exact hne rfl) hidents hnodup, decls, rfl, hspells⟩
  · rintro ⟨hbody, decls, rfl, hspells⟩
    cases hbody with
    | fields hne hidents hnodup =>
      unfold readFields
      rw [(hread decls).mpr ⟨hspells, hidents, hnodup⟩]
      cases decls with
      | nil => exact absurd rfl hne
      | cons decl decls => rfl

/-! ## §4 Bodies and schemas -/

/-- What stands between semicolons has none itself. -/
theorem SpellsDecls.semicolon_not_mem (h : SpellsDecls decls texts)
    (hdecls : ∀ decl ∈ decls, WellFormedDecl decl) : ∀ text ∈ texts, ';' ∉ text := by
  have hmark : ';' ∈ marks := by decide
  induction h with
  | nil => simp
  | blank htext _ ih =>
    exact List.forall_mem_cons.mpr ⟨not_mem_of_blank htext hmark, ih hdecls⟩
  | field htext _ ih =>
    rw [List.forall_mem_cons] at hdecls
    refine List.forall_mem_cons.mpr ⟨?_, ih hdecls.2⟩
    obtain ⟨hfront, hgap, -, hback⟩ := htext
    simp [not_mem_of_blank hfront hmark, not_mem_of_blank hgap hmark,
      not_mem_of_blank hback hmark, hdecls.1.type.not_mem hmark, hdecls.1.name.not_mem hmark]

theorem readBody_of_ident (h : Ident text) :
    readBody text = .ok (.alias (String.ofList text)) := by
  unfold readBody
  split
  · exact absurd List.mem_cons_self (h.not_mem (by decide))
  · rw [if_pos (isIdent_iff.mpr h)]

theorem readBody_eq_ok_iff :
    readBody text = .ok body ↔ WellFormedBody body ∧ SpellsBody body text := by
  constructor
  · intro h
    unfold readBody at h
    split at h
    · next rest =>
      split at h
      · next inner hinner =>
        have hrest : rest = inner.reverse ++ ['\x7d'] := by
          rw [← List.reverse_reverse rest, hinner, List.reverse_cons]
        obtain ⟨hbody, decls, rfl, hspells⟩ := readFields_eq_ok_iff.mp h
        refine ⟨hbody, ?_⟩
        rw [hrest, ← Text.intercalate_split ';' inner.reverse]
        exact .fields hspells
      · cases h
    · split at h
      · next hident =>
        cases h
        refine ⟨.shared (by simpa using isIdent_iff.mp hident), ?_⟩
        simpa using @SpellsBody.shared (String.ofList text)
      · cases h
  · rintro ⟨hbody, hspells⟩
    cases hspells with
    | shared =>
      cases hbody with
      | shared htarget => rw [readBody_of_ident htarget, String.ofList_toList]
    | @fields decls texts htexts =>
      have hsplit : Text.split (· == ';') ([';'].intercalate texts) = texts := by
        cases hbody with
        | fields hne hdecls _ =>
          refine Text.split_intercalate ?_ (htexts.semicolon_not_mem hdecls)
          rintro rfl
          cases htexts
          exact hne rfl
      have hread : readFields ([';'].intercalate texts) = .ok (.fields decls) :=
        readFields_eq_ok_iff.mpr ⟨hbody, decls, rfl, hsplit.symm ▸ htexts⟩
      simpa [readBody] using hread

/-- A body neither begins nor ends with a blank. -/
theorem SpellsBody.trim_append (h : SpellsBody body text) (hbody : WellFormedBody body)
    {front back : List Char} (hfront : Blank front) (hback : Blank back) :
    Text.trim (front ++ text ++ back) = text := by
  cases h with
  | shared =>
    cases hbody with
    | shared htarget =>
      exact Text.trim_append hfront hback (by simpa using htarget.word.head [])
        (by simpa using htarget.word.getLast [])
  | fields htexts =>
    refine Text.trim_append hfront hback ?_ ?_
    · intro c hc
      cases hc
      decide
    · intro c hc
      rw [← List.cons_append, List.getLast?_concat] at hc
      cases hc
      decide

/-- The texts that are read as a schema are its spellings, provided that it is well-formed. -/
theorem parse_eq_ok_iff :
    parse source = .ok schema ↔ schema.WellFormed ∧ Spells schema source.toList := by
  obtain ⟨name, body⟩ := schema
  constructor
  · intro h
    unfold parse at h
    split at h
    · cases h
    · next front back hcut =>
      obtain ⟨-, hsource⟩ := Text.cut?_eq_some_iff.mp hcut
      dsimp only at h
      split at h
      · next hident =>
        cases hread : readBody (Text.trim back) with
        | error fault =>
          rw [hread] at h
          cases h
        | ok body' =>
          rw [hread] at h
          cases h
          obtain ⟨hbody, hspells⟩ := readBody_eq_ok_iff.mp hread
          obtain ⟨before, gap, hbefore, hgap, hfront⟩ := Text.exists_trim front
          obtain ⟨gap', after, hgap', hafter, hback⟩ := Text.exists_trim back
          refine ⟨⟨by simpa using isIdent_iff.mp hident, hbody⟩, ?_⟩
          have htext : source.toList = before ++ (String.ofList (Text.trim front)).toList ++ gap ++
              '=' :: (gap' ++ Text.trim back ++ after) := by
            rw [String.toList_ofList, ← hfront, ← hback, hsource]
          rw [htext]
          exact .intro hbefore hgap hgap' hafter hspells
      · cases h
  · rintro ⟨⟨hname, hbody⟩, hspells⟩
    generalize htext : source.toList = text at hspells
    cases hspells with
    | @intro front gap gap' back text hfront hgap hgap' hback hspells =>
      have hequals : '=' ∈ marks := by decide
      have hcut : Text.cut? (· == '=') source.toList =
          some (front ++ name.toList ++ gap, gap' ++ text ++ back) := by
        refine Text.cut?_eq_some_iff.mpr ⟨?_, htext⟩
        simp [not_mem_of_blank hfront hequals, not_mem_of_blank hgap hequals,
          hname.not_mem hequals]
      have htrim : Text.trim (front ++ name.toList ++ gap) = name.toList :=
        Text.trim_append hfront hgap (by simpa using hname.word.head [])
          (by simpa using hname.word.getLast [])
      simp only [parse, hcut, htrim, hspells.trim_append hbody hgap' hback,
        readBody_eq_ok_iff.mpr ⟨hbody, hspells⟩, isIdent_iff.mpr hname]
      simp [Except.map]

/-- What a schema that was read says about the names of its fields. -/
theorem parse_names (h : parse source = .ok schema) (hbody : schema.body = .fields decls) :
    (decls.map FieldDecl.name).Nodup ∧ ∀ decl ∈ decls, '.' ∉ decl.name.toList := by
  have hwellFormed := (parse_eq_ok_iff.mp h).1.body
  rw [hbody] at hwellFormed
  cases hwellFormed with
  | fields _ hdecls hnodup =>
    exact ⟨hnodup, fun decl hdecl => (hdecls decl hdecl).name.not_mem (by decide)⟩

/-! ## §5 All texts -/

theorem exists_spellsDecls (decls : List FieldDecl) : ∃ texts, SpellsDecls decls texts := by
  induction decls with
  | nil => exact ⟨[], .nil⟩
  | cons decl decls ih =>
    obtain ⟨texts, htexts⟩ := ih
    have hdecl : SpellsDecl decl _ := .intro Text.blank_nil Text.blank_space (by simp) Text.blank_nil
    exact ⟨_, .field hdecl htexts⟩

theorem exists_spells (schema : Schema) : ∃ source : String, Spells schema source.toList := by
  have hbody : ∃ body, SpellsBody schema.body body := by
    rcases schema.body with decls | target
    · obtain ⟨texts, htexts⟩ := exists_spellsDecls decls
      exact ⟨_, .fields htexts⟩
    · exact ⟨_, .shared⟩
  obtain ⟨body, hbody⟩ := hbody
  have hspells := Spells.intro Text.blank_nil Text.blank_nil Text.blank_nil Text.blank_nil hbody
  exact ⟨String.ofList _, by rwa [String.toList_ofList]⟩

/-- A request with a text that is no schema is refused, with the text and what is wrong with it. -/
theorem perform_of_parse_error {fault : SchemaFault} (h : parse source = .error fault)
    (r : Registry) (q : Registration) (hsource : q.source? = some source) :
    r.perform q = (.error (.schema source fault), r) :=
  Registry.perform_of_registerFlat hsource fun fresh => by simp only [Registry.registerFlat, h]

/-- **The grammar of schemas.** A text is read as a schema if and only if the schema is well-formed
and the text spells it, whatever blanks and blank declarations are in it; and every well-formed
schema has a spelling. All other texts are at fault, and a request with one of them is refused by
every registry, with an error that holds the whole text. -/
theorem parse_grammar :
    (∀ source schema, parse source = .ok schema ↔ schema.WellFormed ∧ Spells schema source.toList) ∧
    (∀ schema : Schema, (∃ source, parse source = .ok schema) ↔ schema.WellFormed) ∧
    ∀ source, (∃ schema : Schema, schema.WellFormed ∧ Spells schema source.toList) ∨
      ∃ fault, parse source = .error fault ∧ ∀ (r : Registry) (q : Registration),
        q.source? = some source → r.perform q = (.error (.schema source fault), r) := by
  refine ⟨fun source schema => parse_eq_ok_iff, fun schema => ⟨?_, fun hschema => ?_⟩,
    fun source => ?_⟩
  · rintro ⟨source, hparse⟩
    exact (parse_eq_ok_iff.mp hparse).1
  · obtain ⟨source, hspells⟩ := exists_spells schema
    exact ⟨source, parse_eq_ok_iff.mpr ⟨hschema, hspells⟩⟩
  · cases hparse : parse source with
    | ok schema => exact .inl ⟨schema, parse_eq_ok_iff.mp hparse⟩
    | error fault => exact .inr ⟨fault, rfl, perform_of_parse_error hparse⟩

/-- Blank declarations and no-break spaces do not matter. -/
example : parse "\u00a0ray= \x7b;v3d\u00a0p; ;\tv3d d\x7d" =
    .ok ⟨"ray", .fields [⟨"v3d", "p"⟩, ⟨"v3d", "d"⟩]⟩ := by
  decide

end Schema

end SceneScript
