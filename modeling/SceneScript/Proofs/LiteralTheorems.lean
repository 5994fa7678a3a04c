/-
SceneScript.Proofs.LiteralTheorems — literals are read as what they were written for.

A literal may have one of five forms, and the forms overlap: they are tried in a fixed
order. `Spells` says what each kind of payload is written as, and for texts it leaves out
exactly what one of the other forms takes. The text of a double is read back bit for bit
(`readFloat?_plain`), infinities included, and since it has neither blanks nor commas in it
(`of_mem_plain`), three of them between blanks and commas are read back, too.

`literals_read_back` is the round trip for lists of payloads. Its other half is about a
literal that is added to others that have been read: it adds one slot, or it begins like a
triple and does not go on like one, and then the leftmost component that is no number is
reported before a wrong count.
-/
import SceneScript.Proofs.CommandTheorems
import SceneScript.Proofs.NearestTheorems
import SceneScript.Proofs.TextTheorems

namespace SceneScript

namespace Number

/-! ## §1 The text of a double is read back -/

variable {x : Float} {n : Nat} {c : Char}

/-- Digits with a point or zeros are read as a decimal of the same value. -/
theorem exists_readDecimal?_positional (d : Decimal) :
    ∃ d', readDecimal? (positional (digitsOf d.digits) d.exponent) = some d' ∧
      d'.ratio.value = d.ratio.value := by
  obtain ⟨n, exponent⟩ := d
  cases exponent with
  | negSucc k => exact ⟨_, readDecimal?_positional n k, rfl⟩
  | ofNat zeros =>
    have hdigits := (digits_digitsOf n).append_zeros zeros
    have hread := readDecimal?_of_parts hdigits.isDigit (by simp) (by simpa using hdigits.ne_nil)
      (.inr ⟨rfl, rfl⟩) (show readExponent? [] = some 0 from rfl)
    rw [List.append_nil, List.append_nil] at hread
    refine ⟨_, hread, ?_⟩
    rw [Decimal.value_ratio, Decimal.value_ratio, Nat.ofDigitChars_append, ofDigitChars_digitsOf,
      Nat.ofDigitChars_replicate_zero]
    simp [mul_comm]

theorem head_positional (n : Nat) (exponent : Int) :
    ∀ c ∈ (positional (digitsOf n) exponent).head?, c.isDigit := by
  cases exponent with
  | ofNat zeros => exact (digits_digitsOf n).head _
  | negSucc k =>
    obtain ⟨whole, fraction, htext, hwhole, -⟩ := positional_negSucc (digits_digitsOf n) k
    rw [htext]
    exact hwhole.head _

theorem of_mem_positional {exponent : Int} (h : c ∈ positional (digitsOf n) exponent) :
    c.isDigit ∨ c = '.' := by
  cases exponent with
  | ofNat zeros => exact .inl (((digits_digitsOf n).append_zeros zeros).isDigit c h)
  | negSucc k =>
    obtain ⟨whole, fraction, htext, hwhole, hfraction, -⟩ :=
      positional_negSucc (digits_digitsOf n) k
    rw [htext] at h
    rcases List.mem_append.mp h with h | h
    · exact .inl (hwhole.isDigit c h)
    · rcases List.mem_cons.mp h with h | h
      · exact .inr h
      · exact .inl (hfraction c h)

theorem readFloat?_positional (negative : Bool) (d : Decimal) :
    readFloat? (signText negative ++ positional (digitsOf d.digits) d.exponent) =
      some (d.toFloat negative) := by
  obtain ⟨d', hread, hvalue⟩ := exists_readDecimal?_positional d
  rw [readFloat?, takeSign_signText negative (head_positional d.digits d.exponent)]
  dsimp only
  rw [hread]
  exact congrArg (fun bits => some (ofSignedBits negative bits)) (Decimal.bits_congr hvalue)

theorem readFloat?_infinite (negative : Bool) :
    readFloat? (signText negative ++ ['i', 'n', 'f']) =
      some (ofSignedBits negative infinityBits) := by
  cases negative <;> rfl

/-- **The text of a double is read back** bit for bit, unless it is no number. -/
theorem readFloat?_plain (hx : Binary.ofFloat x ≠ .nan) : readFloat? (plain x).toList = some x := by
  cases h : Binary.ofFloat x with
  | nan => exact absurd h hx
  | infinite negative =>
    rw [plain, h, String.toList_ofList, readFloat?_infinite, ofSignedBits_infinity h]
  | finite negative significand exponent =>
    rw [plain_eq h, String.toList_ofList, readFloat?_positional, toFloat_numeral h]

theorem of_mem_plain (h : c ∈ (plain x).toList) :
    c.isDigit ∨ c ∈ ['-', '.', 'i', 'n', 'f', 'N', 'a'] := by
  have hsign {negative : Bool} (h : c ∈ signText negative) : c = '-' := by
    cases negative with
    | true => exact List.mem_singleton.mp h
    | false => cases h
  cases hx : Binary.ofFloat x with
  | nan =>
    rw [plain, hx, String.toList_ofList] at h
    refine .inr ?_
    simp only [List.mem_cons, List.not_mem_nil, or_false] at h ⊢
    tauto
  | infinite negative =>
    rw [plain, hx, String.toList_ofList] at h
    refine .inr ?_
    rcases List.mem_append.mp h with h | h
    · simp [hsign h]
    · simp only [List.mem_cons, List.not_mem_nil, or_false] at h ⊢
      tauto
  | finite negative significand exponent =>
    rw [plain_eq hx, String.toList_ofList] at h
    rcases List.mem_append.mp h with h | h
    · simp [hsign h]
    · exact (of_mem_positional h).imp_right fun hpoint => by simp [hpoint]

/-- No character of such a text is a blank or a comma. -/
theorem plain_unbroken (h : c ∈ (plain x).toList) : Text.isBlank c = false ∧ c ≠ ',' := by
  rcases of_mem_plain h with hdigit | hletter
  · have hrange : 48 ≤ c.toNat ∧ c.toNat ≤ 57 := by
      rw [Char.isDigit, Bool.and_eq_true, decide_eq_true_eq, decide_eq_true_eq] at hdigit
      exact hdigit
    constructor
    · simp only [Text.isBlank, Bool.or_eq_false_iff, Bool.and_eq_false_iff,
        decide_eq_false_iff_not, beq_eq_false_iff_ne]
      omega
    · intro hcomma
      rw [hcomma] at hdigit
      cases hdigit
  · have hall : ∀ c ∈ ['-', '.', 'i', 'n', 'f', 'N', 'a'], Text.isBlank c = false ∧ c ≠ ',' := by
      simp [Text.isBlank]
    exact hall c hletter

end Number

namespace CommandLine

open Number

/-! ## §2 What is written -/

variable {x : Float} {part : List Char} {text : String} {p : Payload}

/-- How a component is written: its text between blanks. -/
inductive SpellsComponent (x : Float) : List Char → Prop
  | intro {front back : List Char} (hx : Binary.ofFloat x ≠ .nan) (hfront : Text.Blank front)
      (hback : Text.Blank back) : SpellsComponent x (front ++ (plain x).toList ++ back)

/-- How three components are written after a tag. -/
def tripleText (tag : String) (first second third : List Char) : String :=
  String.ofList (tag.toList ++ (first ++ ',' :: (second ++ ',' :: third)))

/-- How payloads are written as literals. -/
inductive Spells : String → Payload → Prop
  | number {x : Float} (hx : Binary.ofFloat x ≠ .nan) : Spells (plain x) (.number x)
  | boolean (b : Bool) : Spells (if b then "true" else "false") (.boolean b)
  | vec3 {v : Vec3} {first second third : List Char} (hx : SpellsComponent v.x first)
      (hy : SpellsComponent v.y second) (hz : SpellsComponent v.z third) :
      Spells (tripleText "v3d:" first second third) (.vec3 v)
  | color {c : Color} {first second third : List Char} (hr : SpellsComponent c.r first)
      (hg : SpellsComponent c.g second) (hb : SpellsComponent c.b third) :
      Spells (tripleText "color:" first second third) (.color c)
  /-- A text that no other form takes. -/
  | text {s : String} (hnumber : readFloat? s.toList = none) (hword : s ≠ "true" ∧ s ≠ "false")
      (htag : ∀ tag ∈ ["v3d:", "color:"], ¬ tag.toList <+: s.toList) : Spells s (.text s)

/-! ## §3 Each literal -/

namespace SpellsComponent

theorem trim_eq (h : SpellsComponent x part) : Text.trim part = (plain x).toList := by
  cases h with
  | intro hx hfront hback =>
    refine Text.trim_append hfront hback (fun c hc => ?_) fun c hc => ?_
    · exact (plain_unbroken (List.mem_of_mem_head? hc)).1
    · exact (plain_unbroken (List.mem_of_mem_getLast? hc)).1

theorem comma_not_mem (h : SpellsComponent x part) : ',' ∉ part := by
  have hblank {cs : List Char} (hcs : Text.Blank cs) : ',' ∉ cs := fun hmem => by
    have hcomma := hcs ',' hmem
    cases hcomma
  cases h with
  | intro hx hfront hback =>
    intro hmem
    rcases List.mem_append.mp hmem with hmem | hmem
    · rcases List.mem_append.mp hmem with hmem | hmem
      · exact hblank hfront hmem
      · exact (plain_unbroken hmem).2 rfl
    · exact hblank hback hmem

theorem readComponent_eq (h : SpellsComponent x part) : readComponent part = .ok x := by
  rw [readComponent_eq_ok_iff, h.trim_eq]
  cases h with
  | intro hx _ _ => exact readFloat?_plain hx

end SpellsComponent

/-- Three components are found between the commas. -/
theorem readTriple_spelled {x y z : Float} {first second third : List Char}
    (hx : SpellsComponent x first) (hy : SpellsComponent y second) (hz : SpellsComponent z third) :
    readTriple (first ++ ',' :: (second ++ ',' :: third)) = .ok (x, y, z) := by
  have hcommas : ∀ piece ∈ [first, second, third], ',' ∉ piece := by
    simp [hx.comma_not_mem, hy.comma_not_mem, hz.comma_not_mem]
  have hsplit := Text.split_intercalate (List.cons_ne_nil _ _) hcommas
  have htext : [','].intercalate [first, second, third] =
      first ++ ',' :: (second ++ ',' :: third) := by
    simp [List.intercalate]
  rw [htext] at hsplit
  rw [readTriple, hsplit, readComponents_eq_mapM,
    mapM_eq_ok_iff.mpr (.cons hx.readComponent_eq (.cons hy.readComponent_eq
      (.cons hz.readComponent_eq .nil)))]

/-- **Each literal is read** as the payload that it was written for. -/
theorem readLiteral_spelled (h : Spells text p) : readLiteral text = .ok p := by
  cases h with
  | number hx => rw [readLiteral, readFloat?_plain hx]
  | boolean b => cases b <;> rfl
  | vec3 hx hy hz =>
    rw [tripleText, readLiteral_vec3 String.toList_ofList, readTriple_spelled hx hy hz]
    rfl
  | color hr hg hb =>
    rw [tripleText, readLiteral_color String.toList_ofList, readTriple_spelled hr hg hb]
    rfl
  | text hnumber hword htag =>
    have hafter : ∀ tag ∈ ["v3d:", "color:"], after? tag.toList text.toList = none := by
      intro tag hmem
      cases h : after? tag.toList text.toList with
      | none => rfl
      | some rest =>
        have hprefix : tag.toList <+: text.toList := ⟨rest, (after?_eq_some_iff.mp h).symm⟩
        exact absurd hprefix (htag tag hmem)
    rw [readLiteral]
    simp only [hnumber, hword.1, hword.2, if_false, hafter "v3d:" (by simp),
      hafter "color:" (by simp)]

/-! ## §4 One literal more -/

variable {literals : List String} {slots : List Slot} {parts : List (List Char)}

/-- The last literal is read after the others, and by itself. -/
theorem readLiterals_append_singleton (h : readLiterals literals = .ok slots) (text : String) :
    readLiterals (literals ++ [text]) =
      (readLiteral text).map fun p => slots ++ [Slot.ready p] := by
  induction literals generalizing slots with
  | nil =>
    cases h
    rw [List.nil_append, readLiterals]
    cases readLiteral text <;> rfl
  | cons first rest ih =>
    rw [List.cons_append, readLiterals]
    rw [readLiterals] at h
    cases hfirst : readLiteral first with
    | error fault =>
      rw [hfirst] at h
      cases h
    | ok p =>
      rw [hfirst] at h
      cases hrest : readLiterals rest with
      | error fault =>
        rw [hrest] at h
        cases h
      | ok later =>
        rw [hrest] at h
        cases h
        dsimp only
        rw [ih hrest]
        cases readLiteral text <;> rfl

/-- Three parts, each of which is a number. -/
def ThreeNumbers (parts : List (List Char)) : Prop :=
  parts.length = 3 ∧ ∀ part ∈ parts, ∃ x, readFloat? (Text.trim part) = some x

/-- There is something wrong with all other parts. -/
theorem exists_tripleFault_iff : (∃ fault, TripleFault parts fault) ↔ ¬ ThreeNumbers parts := by
  constructor
  · intro ⟨fault, hfault⟩ ⟨hcount, hall⟩
    cases hfault with
    | component front part back hparts hfront hpart =>
      obtain ⟨x, hx⟩ := hall part (by simp [hparts])
      rw [hpart] at hx
      cases hx
    | count _ hother => exact hother hcount
  · intro hnot
    cases hread : parts.mapM readComponent with
    | error fault =>
      obtain ⟨front, part, back, hparts, hfront, hpart⟩ := mapM_eq_error_iff.mp hread
      simp only [readComponent_eq_ok_iff] at hfront
      exact ⟨_, .component front part back hparts hfront (readComponent_eq_error_iff.mp hpart).1⟩
    | ok xs =>
      have hall := exists_mapM_ok_iff.mp ⟨xs, hread⟩
      simp only [readComponent_eq_ok_iff] at hall
      exact ⟨_, .count hall fun hcount => hnot ⟨hcount, hall⟩⟩

/-- What it comes to that a literal is added to others that have been read. -/
structure Adds (literals : List String) (slots : List Slot) (text : String) : Prop where
  /-- There is one slot more, or a fault. -/
  adds : (∃ p, readLiterals (literals ++ [text]) = .ok (slots ++ [Slot.ready p])) ∨
    ∃ fault, readLiterals (literals ++ [text]) = .error fault
  /-- What fails is only what begins like a triple and does not go on like one. -/
  fails_iff : (∃ fault, readLiterals (literals ++ [text]) = .error fault) ↔
    ∃ tag ∈ ["v3d:", "color:"], ∃ rest, text.toList = tag.toList ++ rest ∧
      ¬ ThreeNumbers (Text.split (· == ',') rest)
  /-- The leftmost component that is no number is reported, however many there are. -/
  component : ∀ tag ∈ ["v3d:", "color:"], ∀ rest front part back,
    text.toList = tag.toList ++ rest → Text.split (· == ',') rest = front ++ part :: back →
    (∀ p ∈ front, ∃ x, readFloat? (Text.trim p) = some x) →
    readFloat? (Text.trim part) = none →
    readLiterals (literals ++ [text]) = .error (.badComponent (String.ofList part))
  /-- If all are numbers, their count is. -/
  count : ∀ tag ∈ ["v3d:", "color:"], ∀ rest, text.toList = tag.toList ++ rest →
    (∀ p ∈ Text.split (· == ',') rest, ∃ x, readFloat? (Text.trim p) = some x) →
    (Text.split (· == ',') rest).length ≠ 3 →
    readLiterals (literals ++ [text]) = .error (.notThree (Text.split (· == ',') rest).length)

theorem adds (h : readLiterals literals = .ok slots) (text : String) :
    Adds literals slots text := by
  have hread := readLiterals_append_singleton h text
  have hfault (fault : LiteralFault) :
      readLiterals (literals ++ [text]) = .error fault ↔ IllFormed text fault := by
    rw [hread, ← readLiteral_eq_error_iff]
    cases readLiteral text <;> simp [Except.map]
  constructor
  case adds =>
    rw [hread]
    cases readLiteral text with
    | ok p => exact .inl ⟨p, rfl⟩
    | error fault => exact .inr ⟨fault, rfl⟩
  case fails_iff =>
    simp only [hfault, ← exists_tripleFault_iff]
    constructor
    · intro ⟨fault, tag, htag, rest, htext, hrest⟩
      exact ⟨tag, htag, rest, htext, fault, hrest⟩
    · intro ⟨tag, htag, rest, htext, fault, hrest⟩
      exact ⟨fault, tag, htag, rest, htext, hrest⟩
  case component =>
    intro tag htag rest front part back htext hparts hfront hpart
    exact (hfault _).mpr ⟨tag, htag, rest, htext, .component front part back hparts hfront hpart⟩
  case count =>
    intro tag htag rest htext hall hcount
    exact (hfault _).mpr ⟨tag, htag, rest, htext, .count hall hcount⟩

/-- **Literals are read back**, whatever payloads they were written for, bit for bit and each into a
slot of its own; and what is added to literals that can be read fails only where a triple is not
one. -/
theorem literals_read_back :
    (∀ literals payloads, List.Forall₂ Spells literals payloads →
      readLiterals literals = .ok (payloads.map Slot.ready)) ∧
    ∀ literals slots, readLiterals literals = .ok slots → ∀ text, Adds literals slots text :=
  ⟨fun _ _ h => readLiterals_of_write (h.imp fun _ _ => readLiteral_spelled), fun _ _ => adds⟩

/-- A negative infinity, a text that looks like one, and a vector with blanks around a negative
zero. -/
theorem literals_read_back_infinity :
    let x := Float.ofBits 0xfff0000000000000
    let v : Vec3 := ⟨Float.ofBits 0x8000000000000000, x, 1⟩
    let literals := [plain x, "-infinite",
      tripleText "v3d:" (' ' :: (plain v.x).toList) (plain v.y).toList (plain v.z).toList]
    let payloads : List Payload := [.number x, .text "-infinite", .vec3 v]
    List.Forall₂ Spells literals payloads ∧
      readLiterals literals = .ok (payloads.map Slot.ready) ∧
      Adds literals (payloads.map Slot.ready) "v3d:1,x" := by
  intro x v literals payloads
  have hcomponent {y : Float} (hy : Binary.ofFloat y ≠ .nan) : SpellsComponent y (plain y).toList := by
    simpa using SpellsComponent.intro hy Text.blank_nil Text.blank_nil
  have hblank {y : Float} (hy : Binary.ofFloat y ≠ .nan) :
      SpellsComponent y (' ' :: (plain y).toList) := by
    simpa using SpellsComponent.intro hy Text.blank_space Text.blank_nil
  have hspells : List.Forall₂ Spells literals payloads := by
    refine .cons (.number (by decide)) (.cons (.text (by rfl) (by decide) (by decide)) (.cons ?_ .nil))
    exact .vec3 (hblank (by decide)) (hcomponent (by decide)) (hcomponent (by decide))
  have hread := literals_read_back.1 _ _ hspells
  exact ⟨hspells, hread, literals_read_back.2 _ _ hread _⟩

end CommandLine

end SceneScript
