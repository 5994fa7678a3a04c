/-
SceneScript.Proofs.ReadingTheorems — which texts begin with a number, and with which.

What is read of a text is the longest run of characters that numbers are written with,
after the blanks in front (`Spanned`). The run is wider than any number, and all of it
has to be one: a whole number if there is neither a point nor an exponent letter in it,
and a real number otherwise. `SpellsInt` and `SpellsReal` are the grammars of the two,
and each is what its reader accepts (`readInt?_eq_some_iff`, `readFloat?_eq_some_iff`);
a real number comes to the double nearest to it.

`string_reading` says so of every engine on which `init1` has succeeded: what is read
depends on the run only, and the text of an integer is read as that integer.
-/
import SceneScript.Proofs.NearestTheorems
import SceneScript.Proofs.StringTheorems

namespace SceneScript

namespace Number

/-! ## §1 Whole numbers -/

/-- An optional sign and digits, at least one. -/
inductive SpellsInt : List Char → Int → Prop
  | whole {negative : Bool} {sign digits : List Char} (hsign : SpellsSign negative sign)
      (hdigits : Digits digits) :
      SpellsInt (sign ++ digits)
        (if negative then -(Nat.ofDigitChars 10 digits 0 : Int) else Nat.ofDigitChars 10 digits 0)

variable {cs body : List Char} {n e : Int} {d : Decimal} {negative : Bool} {x : Float}

/-- What is left of a text without its sign. -/
theorem exists_sign (cs : List Char) :
    ∃ sign, SpellsSign (takeSign cs).1 sign ∧ cs = sign ++ (takeSign cs).2 := by
  unfold takeSign
  split
  · exact ⟨_, .minus, rfl⟩
  · exact ⟨_, .plus, rfl⟩
  · exact ⟨_, .missing, rfl⟩

theorem SpellsInt.ne_nil (h : SpellsInt cs n) : cs ≠ [] := by
  cases h with
  | whole _ hdigits => exact List.append_ne_nil_of_right_ne_nil _ hdigits.ne_nil

/-- **Whole numbers** are read where they are spelled. -/
theorem readInt?_eq_some_iff : readInt? cs = some n ↔ SpellsInt cs n := by
  constructor
  · intro h
    obtain ⟨sign, hsign, hcs⟩ := exists_sign cs
    rw [readInt?] at h
    generalize takeSign cs = parts at hsign hcs h
    obtain ⟨negative, digits⟩ := parts
    dsimp only at hsign hcs h
    cases hread : readNat? digits with
    | none =>
      rw [hread] at h
      cases h
    | some m =>
      rw [hread] at h
      cases h
      obtain ⟨hdigits, rfl⟩ := readNat?_eq_some_iff.mp hread
      rw [hcs]
      exact .whole hsign hdigits
  · intro h
    cases h with
    | whole hsign hdigits =>
      have hhead := hdigits.head []
      rw [List.append_nil] at hhead
      rw [readInt?, takeSign_append hsign fun c hc => ne_sign_of_isDigit (hhead c hc)]
      dsimp only
      rw [readNat?_eq_some_iff.mpr ⟨hdigits, rfl⟩]
      rfl

theorem readInt64?_eq_some_iff {n : Int64} : readInt64? cs = some n ↔ SpellsInt cs n.toInt := by
  rw [← readInt?_eq_some_iff, readInt64?]
  cases hread : readInt? cs with
  | none => simp
  | some m =>
    dsimp only
    split
    · next hrange =>
      have hback := Int64.toInt_ofInt_of_le hrange.1 (Int.lt_add_one_of_le hrange.2)
      rw [Option.some.injEq, Option.some.injEq]
      constructor
      · rintro rfl
        exact hback.symm
      · rintro rfl
        exact Int64.ofInt_toInt n
    · next hrange =>
      simp only [reduceCtorEq, Option.some.injEq, false_iff]
      rintro rfl
      exact hrange ⟨n.minValue_le_toInt, Int.le_of_lt_add_one n.toInt_lt⟩

/-! ## §2 Real numbers -/

/-- The exponent of a real number, if there is one: a letter and a whole number. -/
inductive SpellsPower : List Char → Int → Prop
  | missing : SpellsPower [] 0
  | written {letter : Char} {cs : List Char} {e : Int} (hletter : letter = 'e' ∨ letter = 'E')
      (h : SpellsInt cs e) : SpellsPower (letter :: cs) e

/-- Digits with at most one point among or around them, at least one digit, and an exponent. -/
inductive SpellsDecimal : List Char → Decimal → Prop
  | parts {whole point fraction tail : List Char} {e : Int} (hwhole : ∀ c ∈ whole, c.isDigit)
      (hfraction : ∀ c ∈ fraction, c.isDigit) (hdigits : whole ++ fraction ≠ [])
      (hpoint : point = '.' :: fraction ∨ point = [] ∧ fraction = []) (htail : SpellsPower tail e) :
      SpellsDecimal (whole ++ (point ++ tail))
        ⟨Nat.ofDigitChars 10 (whole ++ fraction) 0, e - fraction.length⟩

/-- A real number with its sign. -/
inductive SpellsReal : List Char → Bool → Decimal → Prop
  | signed {negative : Bool} {sign body : List Char} {d : Decimal}
      (hsign : SpellsSign negative sign) (hbody : SpellsDecimal body d) :
      SpellsReal (sign ++ body) negative d

theorem readExponent?_eq_some_iff : readExponent? cs = some e ↔ SpellsPower cs e := by
  constructor
  · intro h
    cases cs with
    | nil =>
      cases h
      exact .missing
    | cons c rest =>
      rw [readExponent?] at h
      split at h
      · next hletter => exact .written hletter (readInt?_eq_some_iff.mp h)
      · cases h
  · intro h
    cases h with
    | missing => rfl
    | written hletter h => rw [readExponent?, if_pos hletter, readInt?_eq_some_iff.mpr h]

/-- **Decimals** are read where they are spelled. -/
theorem readDecimal?_eq_some_iff : readDecimal? cs = some d ↔ SpellsDecimal cs d := by
  constructor
  · intro h
    have hsplit := List.takeWhile_append_dropWhile (p := Char.isDigit) (l := cs)
    have hwhole : ∀ c ∈ cs.takeWhile Char.isDigit, c.isDigit := fun _ => List.mem_takeWhile_imp
    unfold readDecimal? at h
    generalize cs.takeWhile Char.isDigit = whole at hsplit hwhole h
    split at h
    next fraction rest hrest =>
    dsimp only at h
    split at h
    · cases h
    · next hdigits =>
      obtain ⟨e, he, rfl⟩ := Option.map_eq_some_iff.mp h
      have hpower := readExponent?_eq_some_iff.mp he
      have hne : whole ++ fraction ≠ [] := by
        intro hnil
        obtain ⟨rfl, rfl⟩ := List.append_eq_nil_iff.mp hnil
        exact hdigits ⟨rfl, rfl⟩
      rw [← hsplit]
      split at hrest
      · next tail hpoint =>
        obtain ⟨rfl, rfl⟩ := Prod.mk.inj hrest
        have hspells := SpellsDecimal.parts hwhole (fun _ => List.mem_takeWhile_imp) hne
          (.inl rfl) hpower
        rwa [List.cons_append, List.takeWhile_append_dropWhile, ← hpoint] at hspells
      · obtain ⟨rfl, rfl⟩ := Prod.mk.inj hrest
        have hspells := SpellsDecimal.parts hwhole (by simp) hne (.inr ⟨rfl, rfl⟩) hpower
        rwa [List.nil_append] at hspells
  · intro h
    cases h with
    | parts hwhole hfraction hdigits hpoint htail =>
      exact readDecimal?_of_parts hwhole hfraction hdigits hpoint
        (readExponent?_eq_some_iff.mpr htail)

/-- A decimal begins with a digit or with its point. -/
theorem SpellsDecimal.head (h : SpellsDecimal body d) : ∀ c ∈ body.head?, c ≠ '+' ∧ c ≠ '-' := by
  cases h with
  | @parts whole point fraction tail e hwhole hfraction hdigits hpoint htail =>
    intro c hc
    cases whole with
    | cons first rest =>
      obtain rfl : first = c := by simpa using hc
      exact ne_sign_of_isDigit (hwhole _ List.mem_cons_self)
    | nil =>
      rcases hpoint with rfl | ⟨-, rfl⟩
      · obtain rfl : '.' = c := by simpa using hc
        decide
      · exact absurd rfl hdigits

/-- What is spelled with letters has an `n` in it. -/
theorem readSpelled?_eq_none (h : 'n' ∉ cs.map Char.toLower) : readSpelled? negative cs = none := by
  have hne (text : String) (htext : 'n' ∈ text.toList) :
      String.ofList (cs.map Char.toLower) ≠ text := by
    rintro rfl
    rw [String.toList_ofList] at htext
    exact h htext
  rw [readSpelled?, if_neg, if_neg]
  · exact hne "nan" (by decide)
  · rintro (heq | heq)
    · exact hne "inf" (by decide) heq
    · exact hne "infinity" (by decide) heq

/-- **Real numbers** without letters are read where they are spelled. -/
theorem readFloat?_eq_some_iff (h : 'n' ∉ cs.map Char.toLower) : readFloat? cs = some x ↔
    ∃ negative d, SpellsReal cs negative d ∧ x = d.toFloat negative := by
  constructor
  · intro hread
    obtain ⟨sign, hsign, hcs⟩ := exists_sign cs
    have hletter : 'n' ∉ (takeSign cs).2.map Char.toLower := by
      intro hmem
      rw [hcs, List.map_append] at h
      exact h (List.mem_append_right _ hmem)
    rw [readFloat?] at hread
    generalize takeSign cs = parts at hsign hcs hletter hread
    obtain ⟨negative, body⟩ := parts
    dsimp only at hsign hcs hletter hread
    cases hdecimal : readDecimal? body with
    | none =>
      rw [hdecimal, readSpelled?_eq_none hletter] at hread
      cases hread
    | some d =>
      rw [hdecimal] at hread
      cases hread
      rw [hcs]
      exact ⟨negative, d, .signed hsign (readDecimal?_eq_some_iff.mp hdecimal), rfl⟩
  · rintro ⟨negative, d, hspells, rfl⟩
    cases hspells with
    | signed hsign hbody =>
      rw [readFloat?, takeSign_append hsign hbody.head]
      dsimp only
      rw [readDecimal?_eq_some_iff.mpr hbody]

end Number

namespace Standard

open Number

/-! ## §3 The run that is read -/

/-- The characters that are skipped. -/
def blankCharacters : List Char := [' ', '\t', '\n']

/-- The characters that numbers are written with. -/
def numberCharacters : List Char :=
  ['+', '-', '0', '1', '2', '3', '4', '5', '6', '7', '8', '9', 'e', 'E', '.']

/-- The characters that make a number a real one. -/
def realMarks : List Char := ['.', 'e', 'E']

theorem isNumberBlank_iff {c : Char} : isNumberBlank c ↔ c ∈ blankCharacters := by
  simp [isNumberBlank, blankCharacters, or_assoc]

theorem isRealMark_iff {c : Char} : isRealMark c ↔ c ∈ realMarks := by
  simp [isRealMark, realMarks, or_assoc]

theorem isNumberChar_iff {c : Char} : isNumberChar c ↔ c ∈ numberCharacters := by
  constructor
  · intro h
    simp only [isNumberChar, Bool.or_eq_true, beq_iff_eq] at h
    rcases h with ((((hdigit | rfl) | rfl) | rfl) | rfl) | rfl
    · have hbounds : 48 ≤ c.toNat ∧ c.toNat ≤ 57 := by
        simpa [Char.isDigit, UInt32.le_iff_toNat_le] using hdigit
      obtain ⟨hlow, hhigh⟩ := hbounds
      rw [← Char.ofNat_toNat c]
      interval_cases c.toNat <;> decide
    all_goals decide
  · have hall : numberCharacters.all isNumberChar = true := by decide
    exact List.all_eq_true.mp hall c

/-- How a text begins: blanks, then the longest run of characters that numbers are written with. -/
structure Spanned (text blanks span rest : List Char) : Prop where
  written : text = blanks ++ (span ++ rest)
  blanks : ∀ c ∈ blanks, c ∈ blankCharacters
  start : ∀ c ∈ (span ++ rest).head?, c ∉ blankCharacters
  span : ∀ c ∈ span, c ∈ numberCharacters
  stop : ∀ c ∈ rest.head?, c ∉ numberCharacters

variable {text blanks span rest : List Char} {source : String} {p : Payload}

namespace Spanned

theorem dropWhile_eq (h : Spanned text blanks span rest) :
    text.dropWhile isNumberBlank = span ++ rest := by
  rw [h.written]
  exact dropWhile_run_append (fun c hc => isNumberBlank_iff.mpr (h.blanks c hc))
    fun c hc => mt isNumberBlank_iff.mp (h.start c hc)

/-- The run is what is read. -/
theorem numberSpan_eq (h : Spanned text blanks span rest) : numberSpan text = span := by
  rw [numberSpan, h.dropWhile_eq]
  exact takeWhile_run_append (fun c hc => isNumberChar_iff.mpr (h.span c hc))
    fun c hc => mt isNumberChar_iff.mp (h.stop c hc)

/-- There is only one way. -/
theorem unique {blanks' span' rest' : List Char} (h : Spanned text blanks span rest)
    (h' : Spanned text blanks' span' rest') : blanks' = blanks ∧ span' = span ∧ rest' = rest := by
  have hspan : span' = span := h'.numberSpan_eq.symm.trans h.numberSpan_eq
  have htail := h'.dropWhile_eq.symm.trans h.dropWhile_eq
  have hwritten := h'.written.symm.trans h.written
  rw [htail] at hwritten
  rw [hspan] at htail
  exact ⟨List.append_cancel_right hwritten, hspan, List.append_cancel_left htail⟩

/-- No word is written with the characters of the run. -/
theorem no_letter (h : Spanned text blanks span rest) : 'n' ∉ span.map Char.toLower := by
  intro hmem
  obtain ⟨letter, hletter, heq⟩ := List.mem_map.mp hmem
  have hnot : numberCharacters.all fun c => c.toLower != 'n' := by decide
  have hne := List.all_eq_true.mp hnot letter (h.span letter hletter)
  exact absurd heq (by simpa using hne)

/-- Other blanks and another rest leave the run as it is. -/
theorem replace (h : Spanned text blanks span rest) (hne : span ≠ []) {blanks' rest' : List Char}
    (hblanks : ∀ c ∈ blanks', c ∈ blankCharacters)
    (hrest : ∀ c ∈ rest'.head?, c ∉ numberCharacters) :
    Spanned (blanks' ++ (span ++ rest')) blanks' span rest' := by
  refine ⟨rfl, hblanks, fun c hc hblank => ?_, h.span, hrest⟩
  obtain ⟨first, tail, rfl⟩ := List.exists_cons_of_ne_nil hne
  obtain rfl : first = c := by simpa using hc
  have hnot : blankCharacters.all fun c => !isNumberChar c := by decide
  have hchar := isNumberChar_iff.mpr (h.span first List.mem_cons_self)
  exact absurd hchar (by simpa using List.all_eq_true.mp hnot first hblank)

end Spanned

theorem exists_spanned (text : List Char) : ∃ blanks span rest, Spanned text blanks span rest := by
  have hblanks := List.takeWhile_append_dropWhile (p := isNumberBlank) (l := text)
  have hstart := not_of_head?_dropWhile isNumberBlank text
  generalize text.dropWhile isNumberBlank = tail at hblanks hstart
  have hspan := List.takeWhile_append_dropWhile (p := isNumberChar) (l := tail)
  refine ⟨text.takeWhile isNumberBlank, tail.takeWhile isNumberChar, tail.dropWhile isNumberChar,
    ?written, ?blanks, ?start, ?span, ?stop⟩
  case written => rw [hspan, hblanks]
  case blanks => exact fun c hc => isNumberBlank_iff.mp (List.mem_takeWhile_imp hc)
  case start =>
    rw [hspan]
    exact fun c hc => mt isNumberBlank_iff.mpr (hstart c hc)
  case span => exact fun c hc => isNumberChar_iff.mp (List.mem_takeWhile_imp hc)
  case stop => exact fun c hc => mt isNumberChar_iff.mpr (not_of_head?_dropWhile isNumberChar tail c hc)

/-! ## §4 Reading the run -/

/-- A run without a mark is a whole number or nothing. -/
theorem numberIn_eq_ok_iff_whole (h : Spanned source.toList blanks span rest)
    (hmark : ∀ c ∈ span, c ∉ realMarks) :
    numberIn source = .ok p ↔ ∃ n : Int64, p = .integer n ∧ SpellsInt span n.toInt := by
  have hany : ¬ span.any isRealMark = true := by
    rw [List.any_eq_true]
    rintro ⟨c, hc, hc'⟩
    exact hmark c hc (isRealMark_iff.mp hc')
  unfold numberIn
  dsimp only
  rw [h.numberSpan_eq, if_neg hany]
  split
  · next hempty =>
    obtain rfl := List.isEmpty_iff.mp hempty
    simp only [reduceCtorEq, false_iff]
    rintro ⟨n, -, hspells⟩
    exact hspells.ne_nil rfl
  · simp only [← readInt64?_eq_some_iff]
    cases readInt64? span with
    | none => simp
    | some n => simp [eq_comm]

/-- A run with a mark is a real number or nothing. -/
theorem numberIn_eq_ok_iff_real (h : Spanned source.toList blanks span rest)
    (hmark : ∃ c ∈ span, c ∈ realMarks) :
    numberIn source = .ok p ↔ ∃ x negative d, p = .number x ∧ SpellsReal span negative d ∧
      Nearest negative (d.digits * 10 ^ d.exponent) x := by
  obtain ⟨c, hc, hc'⟩ := hmark
  have hany : span.any isRealMark = true :=
    List.any_eq_true.mpr ⟨c, hc, isRealMark_iff.mpr hc'⟩
  have hempty : ¬ span.isEmpty = true := by
    rw [List.isEmpty_iff]
    rintro rfl
    cases hc
  unfold numberIn
  dsimp only
  rw [h.numberSpan_eq, if_neg hempty, if_pos hany]
  simp only [← eq_toFloat_iff]
  cases hread : readFloat? span with
  | none =>
    simp only [reduceCtorEq, false_iff]
    rintro ⟨x, negative, d, -, hspells⟩
    rw [(readFloat?_eq_some_iff h.no_letter).mpr ⟨negative, d, hspells⟩] at hread
    cases hread
  | some x =>
    obtain ⟨negative, d, hspells, rfl⟩ := (readFloat?_eq_some_iff h.no_letter).mp hread
    simp only [Except.ok.injEq]
    constructor
    · rintro rfl
      exact ⟨_, negative, d, rfl, hspells, rfl⟩
    · rintro ⟨y, negative', d', rfl, hspells', rfl⟩
      have hread' := (readFloat?_eq_some_iff h.no_letter).mpr ⟨negative', d', hspells', rfl⟩
      rw [hread, Option.some.injEq] at hread'
      rw [hread']

/-- Only the run decides what is read, if anything is. -/
theorem numberIn_replace (h : Spanned source.toList blanks span rest) (hp : numberIn source = .ok p)
    {blanks' rest' : List Char} (hblanks : ∀ c ∈ blanks', c ∈ blankCharacters)
    (hrest : ∀ c ∈ rest'.head?, c ∉ numberCharacters) :
    numberIn (String.ofList (blanks' ++ (span ++ rest'))) = .ok p := by
  have hreplaced (hne : span ≠ []) :
      Spanned (String.ofList (blanks' ++ (span ++ rest'))).toList blanks' span rest' := by
    rw [String.toList_ofList]
    exact h.replace hne hblanks hrest
  by_cases hmark : ∃ c ∈ span, c ∈ realMarks
  · have hne : span ≠ [] := by
      rintro rfl
      simp at hmark
    exact (numberIn_eq_ok_iff_real (hreplaced hne) hmark).mpr
      ((numberIn_eq_ok_iff_real h hmark).mp hp)
  · have hwhole : ∀ c ∈ span, c ∉ realMarks := fun c hc hc' => hmark ⟨c, hc, hc'⟩
    obtain ⟨n, rfl, hspells⟩ := (numberIn_eq_ok_iff_whole h hwhole).mp hp
    exact (numberIn_eq_ok_iff_whole (hreplaced hspells.ne_nil) hwhole).mpr ⟨n, rfl, hspells⟩

end Standard

namespace Engine

open Number Standard

/-! ## §5 Calls -/

/-- What comes of reading a run of characters that numbers are written with. -/
structure RunRead (span : List Char) (answer : Except Failure Value) : Prop where
  empty : span = [] → ∀ v, answer ≠ .ok v
  whole : (∀ c ∈ span, c ∉ realMarks) → ∀ v, answer = .ok v ↔
    ∃ n : Int64, v = .owned (.integer n) ∧ SpellsInt span n.toInt
  real : (∃ c ∈ span, c ∈ realMarks) → ∀ v, answer = .ok v ↔
    ∃ x negative d, v = .owned (.number x) ∧ SpellsReal span negative d ∧
      Nearest negative (d.digits * 10 ^ d.exponent) x
  isNumber : ∀ x, answer = .ok (.owned (.number x)) → Binary.ofFloat x ≠ .nan
  refused : ∀ failure, answer = .error failure →
    ∃ objection, failure = .error (.invalidArgument "string_to_num" objection)

/-- How texts are read on an engine. -/
structure ReadsTexts (engine : Engine) (clock : Float) (memory : Memory) (files : Tree) : Prop where
  /-- Every text has one run, and that is read. -/
  read : ∀ text : String, ∃ blanks span rest answer, Spanned text.toList blanks span rest ∧
    (∀ blanks' span' rest', Spanned text.toList blanks' span' rest' →
      blanks' = blanks ∧ span' = span ∧ rest' = rest) ∧
    ReadsTo engine clock memory files text answer ∧ RunRead span answer
  /-- What is around the run can be replaced. -/
  replace : ∀ (text : String) blanks span rest v, Spanned text.toList blanks span rest →
    ReadsTo engine clock memory files text (.ok v) → ∀ blanks' rest',
    (∀ c ∈ blanks', c ∈ blankCharacters) → (∀ c ∈ rest'.head?, c ∉ numberCharacters) →
    ReadsTo engine clock memory files (String.ofList (blanks' ++ (span ++ rest'))) (.ok v)
  /-- An integer comes back from the text that `%s` gives of it. -/
  shown : ∀ n : Int64, ∃ text : String,
    WritesTo engine clock memory files "%s" (.integer n) (.ok (.owned (.text text))) ∧
    ReadsTo engine clock memory files text (.ok (.owned (.integer n)))

/-- What is read of a text, as the answer of a call. -/
def readAnswer (text : String) : Except Failure Value :=
  match numberIn text with
  | .ok p => .ok (.owned p)
  | .error objection => .error (.error (.invalidArgument "string_to_num" objection))

theorem readAnswer_eq_ok_iff {text : String} {v : Value} :
    readAnswer text = .ok v ↔ ∃ p, numberIn text = .ok p ∧ v = .owned p := by
  unfold readAnswer
  cases numberIn text with
  | ok p => simp [eq_comm]
  | error objection => simp

theorem runRead_readAnswer {text : String} {blanks span rest : List Char}
    (h : Spanned text.toList blanks span rest) : RunRead span (readAnswer text) where
  empty := by
    rintro rfl v hv
    obtain ⟨p, hp, -⟩ := readAnswer_eq_ok_iff.mp hv
    obtain ⟨n, -, hspells⟩ := (numberIn_eq_ok_iff_whole h (by simp)).mp hp
    exact hspells.ne_nil rfl
  whole hmark v := by
    rw [readAnswer_eq_ok_iff]
    simp only [numberIn_eq_ok_iff_whole h hmark]
    constructor
    · rintro ⟨p, ⟨n, rfl, hspells⟩, rfl⟩
      exact ⟨n, rfl, hspells⟩
    · rintro ⟨n, rfl, hspells⟩
      exact ⟨_, ⟨n, rfl, hspells⟩, rfl⟩
  real hmark v := by
    rw [readAnswer_eq_ok_iff]
    simp only [numberIn_eq_ok_iff_real h hmark]
    constructor
    · rintro ⟨p, ⟨x, negative, d, rfl, hspells, hnearest⟩, rfl⟩
      exact ⟨x, negative, d, rfl, hspells, hnearest⟩
    · rintro ⟨x, negative, d, rfl, hspells, hnearest⟩
      exact ⟨_, ⟨x, negative, d, rfl, hspells, hnearest⟩, rfl⟩
  isNumber x hx := by
    obtain ⟨p, hp, hpx⟩ := readAnswer_eq_ok_iff.mp hx
    obtain rfl : .number x = p := congrArg Value.payload hpx
    by_cases hmark : ∃ c ∈ span, c ∈ realMarks
    · obtain ⟨y, negative, d, hy, -, hnearest⟩ := (numberIn_eq_ok_iff_real h hmark).mp hp
      cases hy
      exact hnearest.ne_nan
    · have hwhole : ∀ c ∈ span, c ∉ realMarks := fun c hc hc' => hmark ⟨c, hc, hc'⟩
      obtain ⟨n, hn, -⟩ := (numberIn_eq_ok_iff_whole h hwhole).mp hp
      cases hn
  refused failure hfailure := by
    unfold readAnswer at hfailure
    split at hfailure
    · cases hfailure
    · cases hfailure
      exact ⟨_, rfl⟩

variable {config : Config} {events : List Event}

theorem readsTo_readAnswer (hinit : (run { config := config } events).initialized = true)
    (clock : Float) (memory : Memory) (files : Tree) (text : String) :
    ReadsTo (run { config := config } events) clock memory files text (readAnswer text) :=
  fun _ _ _ _ hargs hp htext => call_stringToNum hinit hargs hp htext clock memory files

/-- **Numbers are read from texts** by the run at their beginning, on every engine on which `init1`
has succeeded. -/
theorem string_reading (config : Config) (events : List Event)
    (hinit : (run { config := config } events).initialized = true) (clock : Float)
    (memory : Memory) (files : Tree) :
    ReadsTexts (run { config := config } events) clock memory files where
  read text := by
    obtain ⟨blanks, span, rest, hspanned⟩ := exists_spanned text.toList
    exact ⟨blanks, span, rest, readAnswer text, hspanned, fun _ _ _ => hspanned.unique,
      readsTo_readAnswer hinit clock memory files text, runRead_readAnswer hspanned⟩
  replace text blanks span rest v hspanned hread blanks' rest' hblanks hrest := by
    have hanswer := (readsTo_readAnswer hinit clock memory files text).unique hread
    obtain ⟨p, hp, rfl⟩ := readAnswer_eq_ok_iff.mp hanswer
    have hreplaced :=
      readAnswer_eq_ok_iff.mpr ⟨p, numberIn_replace hspanned hp hblanks hrest, rfl⟩
    rw [← hreplaced]
    exact readsTo_readAnswer hinit clock memory files _
  shown n := by
    refine ⟨String.ofList (intText n.toInt), ?_, ?_⟩
    · intro args frame format value p hargs hp htext hvalue
      exact call_textFormat hinit hargs hp htext hvalue rfl clock memory files
    · rw [← readAnswer_eq_ok_iff.mpr ⟨_, numberIn_intText n, rfl⟩]
      exact readsTo_readAnswer hinit clock memory files _

/-- On an engine on which nothing but `init1` has happened. -/
theorem string_reading_init1 :
    (run {} [.signal .init1]).initialized = true ∧
      ReadsTexts (run {} [.signal .init1]) 0 .usual {} :=
  ⟨initialized_run_init1, string_reading {} [.signal .init1] initialized_run_init1 0 .usual {}⟩

end Engine

end SceneScript
