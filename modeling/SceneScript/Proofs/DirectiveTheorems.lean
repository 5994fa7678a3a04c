/-
SceneScript.Proofs.DirectiveTheorems — which texts begin with a directive, and how one is written.

The grammar of a directive leaves one thing open: zeros between the flags and the width may belong
to either. For whether a text begins with a directive this does not matter (`exists_read_iff`).
For what the directive is it does, and there the flags take as much as they can, which is what an
`Opening` says; `Opening.Gives` spells out the directive that an opening and a letter give.

A directive is written with each of its flags once and without a width if that is zero, so that no
zero of a width can be taken for a flag (`Directive.spelling`). What is written is read back, with
whatever follows left over (`Directive.read_write`).
-/
import SceneScript.Proofs.TemplateTheorems

namespace SceneScript.Format

open Number

/-! ## §1 Texts that begin with a directive -/

/-- The text is any number of flags, any number of digits, a point with any number of digits or
neither, a letter, and the rest. -/
def Begins (cs rest : List Char) : Prop :=
  ∃ (flags width : List Char) (precision : Option (List Char)) (conversion : Conversion),
    (∀ c ∈ flags, c ∈ ['-', '0', '+', ' ']) ∧ (∀ c ∈ width, c.isDigit) ∧
    (∀ digits ∈ precision, ∀ c ∈ digits, c.isDigit) ∧
    cs = flags ++ (width ++ (placesText precision ++ conversion.letter :: rest))

variable {cs rest : List Char} {c : Char} {o : Opening} {conversion : Conversion} {d : Directive}

theorem isFlag_iff : isFlag c ↔ c ∈ ['-', '0', '+', ' '] := by
  simp [isFlag, or_assoc]

/-- Zeros at the front of a width are flags. -/
theorem exists_opening_of_parts {flags width : List Char} {precision : Option (List Char)}
    (hflags : ∀ c ∈ flags, isFlag c) (hwidth : ∀ c ∈ width, c.isDigit)
    (hprecision : ∀ digits ∈ precision, ∀ c ∈ digits, c.isDigit) :
    ∃ o : Opening, o.text = flags ++ (width ++ placesText precision) := by
  refine ⟨⟨flags ++ width.takeWhile (· == '0'), width.dropWhile (· == '0'), precision,
    ?_, ?_, ?_, hprecision⟩, ?_⟩
  · intro c hc
    rcases List.mem_append.mp hc with hc | hc
    · exact hflags c hc
    · have hzero := List.mem_takeWhile_imp hc
      rw [beq_iff_eq.mp hzero]
      rfl
  · exact fun c hc => hwidth c ((List.dropWhile_sublist _).mem hc)
  · intro c hc hzero
    exact not_of_head?_dropWhile _ width c hc (beq_iff_eq.mpr hzero)
  · simp only [Opening.text, List.append_assoc]
    rw [← List.append_assoc (width.takeWhile _), List.takeWhile_append_dropWhile]

/-- **A directive is read exactly where there is one**, and the rest is what follows it. -/
theorem exists_read_iff : (∃ d, Directive.read cs = .ok (d, rest)) ↔ Begins cs rest := by
  constructor
  · rintro ⟨d, hread⟩
    obtain ⟨o, conversion, -, rfl⟩ := Directive.read_eq_ok_iff.mp hread
    refine ⟨o.flags, o.width, o.precision, conversion,
      fun c hc => isFlag_iff.mp (o.isFlag_of_mem c hc), o.isDigit_of_mem,
      o.isDigit_of_mem_precision, ?_⟩
    simp only [Opening.text, List.append_assoc]
  · rintro ⟨flags, width, precision, conversion, hflags, hwidth, hprecision, rfl⟩
    obtain ⟨o, htext⟩ := exists_opening_of_parts (fun c hc => isFlag_iff.mpr (hflags c hc))
      hwidth hprecision
    refine ⟨o.directive conversion, Directive.read_eq_ok_iff.mpr ⟨o, conversion, rfl, ?_⟩⟩
    rw [htext]
    simp only [List.append_assoc]

/-! ## §2 The directive of an opening -/

/-- The directive has just the flags that occur, the numbers that the digits write, or the largest
of sixty-four bits in place of a larger one, no width of its own where there are no digits, and a
precision where there is a point. -/
structure Opening.Gives (o : Opening) (conversion : Conversion) (d : Directive) : Prop where
  left : d.left ↔ '-' ∈ o.flags
  zero : d.zero ↔ '0' ∈ o.flags
  plus : d.plus ↔ '+' ∈ o.flags
  space : d.space ↔ ' ' ∈ o.flags
  width : d.width = min (2 ^ 64 - 1) (Nat.ofDigitChars 10 o.width 0)
  precision : d.precision =
    o.precision.map fun digits => min (2 ^ 64 - 1) (Nat.ofDigitChars 10 digits 0)
  conversion : d.conversion = conversion

theorem Opening.gives_iff : o.Gives conversion d ↔ d = o.directive conversion := by
  constructor
  · intro h
    have hflag {b : Bool} {flag : Char} (hb : b ↔ flag ∈ o.flags) : b = o.flags.contains flag :=
      Bool.eq_iff_iff.mpr (hb.trans List.contains_iff_mem.symm)
    obtain ⟨left, zero, plus, space, width, precision, letter⟩ := d
    rw [Opening.directive, Directive.mk.injEq]
    exact ⟨hflag h.left, hflag h.zero, hflag h.plus, hflag h.space, h.width, h.precision,
      h.conversion⟩
  · rintro rfl
    exact ⟨List.contains_iff_mem, List.contains_iff_mem, List.contains_iff_mem,
      List.contains_iff_mem, rfl, rfl, rfl⟩

theorem Directive.read_eq_ok_iff_gives : Directive.read cs = .ok (d, rest) ↔
    ∃ (o : Opening) (conversion : Conversion),
      cs = o.text ++ conversion.letter :: rest ∧ o.Gives conversion d := by
  simp only [Directive.read_eq_ok_iff, Opening.gives_iff, and_comm]

example : Directive.read "010d".toList = .ok (⟨false, true, false, false, 10, none, .d⟩, []) := by
  decide

/-! ## §3 Writing -/

/-- A number that is not zero is not written with a zero in front. -/
theorem digitsOf_head_ne_zero {n : Nat} (hn : n ≠ 0) : ∀ c ∈ (digitsOf n).head?, c ≠ '0' := by
  have hsmall : ∀ d < 10, d ≠ 0 → Nat.digitChar d ≠ '0' := by decide
  induction n using Nat.strong_induction_on with
  | _ n ih =>
    rw [digitsOf, Nat.toDigits_eq_if (Nat.one_lt_succ_succ 8)]
    split
    · next hlt =>
      rintro c ⟨⟩
      exact hsmall n hlt hn
    · next hlarge =>
      rw [List.head?_append_of_ne_nil _ Nat.toDigits_ne_nil]
      exact ih (n / 10) (by omega) (by omega)

namespace Directive

/-- The sizes of the directive have sixty-four bits. -/
structure Sized (d : Directive) : Prop where
  width_lt : d.width < 2 ^ 64
  precision_lt : ∀ places ∈ d.precision, places < 2 ^ 64

/-- The flags of a directive, each of them once. -/
def flagsText (d : Directive) : List Char :=
  (if d.left then ['-'] else []) ++ (if d.zero then ['0'] else []) ++
    (if d.plus then ['+'] else []) ++ (if d.space then [' '] else [])

/-- The width of a directive. There is none instead of zero, which would be a flag. -/
def widthText (d : Directive) : List Char := if d.width = 0 then [] else digitsOf d.width

theorem mem_flagsText : c ∈ d.flagsText ↔
    (d.left ∧ c = '-') ∨ (d.zero ∧ c = '0') ∨ (d.plus ∧ c = '+') ∨ (d.space ∧ c = ' ') := by
  have hone {b : Bool} {flag : Char} : c ∈ (if b then [flag] else []) ↔ b ∧ c = flag := by
    cases b <;> simp
  simp only [flagsText, List.mem_append, hone, or_assoc]

theorem isFlag_of_mem_flagsText (hc : c ∈ d.flagsText) : isFlag c := by
  obtain ⟨-, rfl⟩ | ⟨-, rfl⟩ | ⟨-, rfl⟩ | ⟨-, rfl⟩ := mem_flagsText.mp hc <;> rfl

/-- How a directive is written, up to its letter. -/
def spelling (d : Directive) : Opening where
  flags := d.flagsText
  width := d.widthText
  precision := d.precision.map digitsOf
  isFlag_of_mem _ := isFlag_of_mem_flagsText
  isDigit_of_mem c hc := by
    unfold widthText at hc
    split at hc
    · cases hc
    · exact (digits_digitsOf d.width).isDigit c hc
  head_ne_zero c hc := by
    unfold widthText at hc
    split at hc
    · cases hc
    · next hwidth => exact digitsOf_head_ne_zero hwidth c hc
  isDigit_of_mem_precision digits hdigits := by
    obtain ⟨places, -, rfl⟩ := Option.mem_map.mp hdigits
    exact (digits_digitsOf places).isDigit

/-- A directive as text, from after its percent sign. -/
def write (d : Directive) : List Char := d.spelling.text ++ [d.conversion.letter]

theorem ofDigitChars_widthText (d : Directive) :
    Nat.ofDigitChars 10 d.widthText 0 = d.width := by
  unfold widthText
  split
  · next hzero => rw [hzero, Nat.ofDigitChars_nil]
  · exact ofDigitChars_digitsOf d.width

theorem gives_spelling (h : d.Sized) : d.spelling.Gives d.conversion d where
  left := by simp [spelling, mem_flagsText]
  zero := by simp [spelling, mem_flagsText]
  plus := by simp [spelling, mem_flagsText]
  space := by simp [spelling, mem_flagsText]
  width := by
    have hlt := h.width_lt
    show d.width = min (2 ^ 64 - 1) (Nat.ofDigitChars 10 d.widthText 0)
    rw [ofDigitChars_widthText]
    omega
  precision := by
    show d.precision = (d.precision.map digitsOf).map _
    cases hprecision : d.precision with
    | none => rfl
    | some places =>
      have hlt := h.precision_lt places hprecision
      rw [Option.map_some, Option.map_some, ofDigitChars_digitsOf]
      exact congrArg some (by omega)
  conversion := rfl

/-- What is written is read back, whatever follows. -/
theorem read_write (h : d.Sized) (rest : List Char) : read (d.write ++ rest) = .ok (d, rest) := by
  have htext : d.write ++ rest = d.spelling.text ++ d.conversion.letter :: rest := by
    rw [write, List.append_assoc, List.singleton_append]
  exact read_eq_ok_iff_gives.mpr ⟨d.spelling, d.conversion, htext, gives_spelling h⟩

end Directive

/-- **Reading directives**: a directive is read exactly where a text begins with one, up to its
letter, and is what its opening and its letter give; what is written for a directive is read back as
that directive, whatever follows. -/
theorem directive_reading :
    (∀ cs rest, (∃ d, Directive.read cs = .ok (d, rest)) ↔ Begins cs rest) ∧
    (∀ cs d rest, Directive.read cs = .ok (d, rest) ↔
      ∃ (o : Opening) (conversion : Conversion),
        cs = o.text ++ conversion.letter :: rest ∧ o.Gives conversion d) ∧
    ∀ d : Directive, d.Sized → ∀ rest, Directive.read (d.write ++ rest) = .ok (d, rest) :=
  ⟨fun _ _ => exists_read_iff, fun _ _ _ => Directive.read_eq_ok_iff_gives,
    fun _ => Directive.read_write⟩

/-- Every flag, the largest width, and a precision of zero. -/
theorem directive_reading_widest :
    let d : Directive := ⟨true, true, true, true, 2 ^ 64 - 1, some 0, .d⟩
    d.Sized ∧ d.write = "-0+ 18446744073709551615.0d".toList ∧
      ∀ rest, Directive.read (d.write ++ rest) = .ok (d, rest) := by
  intro d
  have hsized : d.Sized := ⟨by decide, by rintro places ⟨⟩; decide⟩
  exact ⟨hsized, by decide, directive_reading.2.2 d hsized⟩

end SceneScript.Format
