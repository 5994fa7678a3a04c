/-
SceneScript.Proofs.RenderTheorems — the three rounded forms of a number.

With what is known of rounding and of digits with a point, each rounded form of a
finite double denotes the exact value of the double, rounded half to even: to a number
of places (`fixed_form`), or to a number of significant digits (`scientific_form`,
`general_form`). The shortest of them chooses between a text with an exponent and one
without by the exponent after rounding; both denote the same number.

The formats `%f`, `%e` and `%g`, with a precision or without, give these texts as they
are (`apply_numberFormat`). `number_rendering` says so of every engine on which `init1`
has succeeded, for any precision that can be laid out whatever the number is.
-/
import SceneScript.Proofs.PointTheorems
import SceneScript.Proofs.StringTheorems
import SceneScript.Proofs.TemplateTheorems

namespace SceneScript

namespace Number

/-! ## §1 The three forms -/

/-- The text of a number that is rounded to so many places, without an exponent. -/
structure FixedForm (q : ℚ) (places : Nat) (body : List Char) : Prop where
  parts : ∃ whole fraction, Parts body whole fraction [] ∧ fraction.length = places
  value : ∃ r, denoted? body = some r ∧ RoundedAt (-places) q r

/-- The text of a number that is rounded to one significant digit before the point and so many
after it, with an exponent. -/
structure ScientificForm (q : ℚ) (places : Nat) (body : List Char) : Prop where
  parts : ∃ first fraction tail, Parts body [first] fraction tail ∧ first ≠ '0' ∧
    fraction.length = places ∧ SpellsExponent tail
  value : ∃ r, denoted? body = some r ∧ RoundedTo (places + 1) q r

/-- The text of a number that is rounded to so many significant digits, without zeros at the end:
with an exponent if the first digit is too far from the point. -/
structure GeneralForm (q : ℚ) (digits : Nat) (r : ℚ) (top : Int) (body : List Char) : Prop where
  rounded : RoundedTo digits q r
  low : 10 ^ top ≤ |r|
  high : |r| < 10 ^ (top + 1)
  value : denoted? body = some r
  parts : ∃ whole fraction tail, Parts body whole fraction tail ∧ fraction.getLast? ≠ some '0' ∧
    (SpellsExponent tail ↔ top < -4 ∨ (digits : Int) ≤ top)

variable {x : Float} {negative : Bool} {significand : Nat} {exponent : Int}

theorem exactValue?_of_finite (h : Binary.ofFloat x = .finite negative significand exponent) :
    exactValue? x = some (signed negative (magnitude significand exponent).value) := by
  rw [exactValue?, h]

theorem exact_eq_zero_iff :
    signed negative (magnitude significand exponent).value = 0 ↔ significand = 0 := by
  rw [← abs_eq_zero, abs_signed, abs_eq_zero, value_magnitude, mul_eq_zero, Nat.cast_eq_zero]
  exact or_iff_left (by positivity)

theorem significand_pos_of_ne_zero
    (h : signed negative (magnitude significand exponent).value ≠ 0) : 0 < significand :=
  Nat.pos_of_ne_zero (mt exact_eq_zero_iff.mpr h)

theorem fixed_form (h : Binary.ofFloat x = .finite negative significand exponent) (places : Nat) :
    FixedForm (signed negative (magnitude significand exponent).value) places (fixed x places) := by
  obtain ⟨whole, fraction, hlength, hpointed⟩ :=
    fixedMagnitude_pointed (magnitude significand exponent) places
  have hround := ((magnitude significand exponent).scale10 places).rounds_round
  rw [Ratio.value_scale10] at hround
  rw [fixed, h]
  refine ⟨⟨whole, fraction, hpointed.parts_unscaled negative, hlength⟩, _,
    hpointed.denoted?_unscaled negative, roundedAt_of_rounds negative ?_⟩
  rw [neg_neg]
  exact hround

theorem shift_places (digits places : Nat) (top : Int) :
    (digits : ℚ) * 10 ^ (-(places : Int)) * 10 ^ top = digits * 10 ^ (top - places) := by
  rw [mul_assoc, ← zpow_add₀ (by norm_num), neg_add_eq_sub]

theorem scientific_form (h : Binary.ofFloat x = .finite negative significand exponent)
    (hne : signed negative (magnitude significand exponent).value ≠ 0) (places : Nat) :
    ScientificForm (signed negative (magnitude significand exponent).value) places
      (scientific .signed x places) := by
  have hnum := num_magnitude_pos (significand_pos_of_ne_zero hne) exponent
  have hspec := significant_spec hnum places
  have htext : scientific .signed x places = signText negative ++
      (mantissaText (significant (magnitude significand exponent) places).1 places ++
        'e' :: ExponentStyle.signed.write
          (significant (magnitude significand exponent) places).2) := by
    rw [scientific, h]
    rfl
  rw [htext]
  generalize significant (magnitude significand exponent) places = pair at hspec
  obtain ⟨digits, top⟩ := pair
  dsimp only at hspec ⊢
  obtain ⟨first, fraction, hfirst, hlength, hpointed⟩ := mantissaText_pointed hspec.high
  have hexponent := spellsExponent_signed top
  refine ⟨⟨first, fraction, _, hpointed.parts negative (.inr hexponent), hfirst hspec.low, hlength,
    hexponent⟩, _, hpointed.denoted?_eq (readExponent?_signed top) negative, ?_⟩
  rw [shift_places]
  exact hspec.roundedTo hnum negative

/-- **Both forms denote the same number**, the one with an exponent and the one without. -/
theorem general_form (h : Binary.ofFloat x = .finite negative significand exponent)
    (hne : signed negative (magnitude significand exponent).value ≠ 0) (digits : Nat) :
    ∃ r top, GeneralForm (signed negative (magnitude significand exponent).value) (max digits 1) r
      top (general x digits) := by
  have hpos := significand_pos_of_ne_zero hne
  have hnum := num_magnitude_pos hpos exponent
  have hplaces : max digits 1 - 1 + 1 = max digits 1 := by omega
  unfold general
  rw [h]
  dsimp only
  rw [if_neg hpos.ne', ← hplaces, Nat.add_sub_cancel]
  generalize max digits 1 - 1 = places
  have hspec := significant_spec hnum places
  generalize significant (magnitude significand exponent) places = pair at hspec
  obtain ⟨rounded, top⟩ := pair
  dsimp only at hspec ⊢
  obtain ⟨hlow, hhigh⟩ := hspec.abs_top_spec negative
  refine ⟨signed negative (rounded * 10 ^ (top - places)), top, ?_⟩
  split
  · next hfar =>
    obtain ⟨first, fraction, -, -, hpointed⟩ := mantissaText_pointed hspec.high
    obtain ⟨kept, hkept, hstripped⟩ := hpointed.stripZeros
    have hexponent := spellsExponent_signed top
    have hvalue := hstripped.denoted?_eq (readExponent?_signed top) negative
    rw [shift_places] at hvalue
    refine ⟨hspec.roundedTo hnum negative, hlow, hhigh, hvalue, [first], kept, _,
      hstripped.parts negative (.inr hexponent), hkept, iff_of_true hexponent ?_⟩
    omega
  · next hnear =>
    -- The magnitude is rounded a second time here, in the place of the last digit, and not the
    -- digits that it was rounded to before; they are the same.
    obtain ⟨whole, fraction, -, hpointed⟩ :=
      fixedMagnitude_pointed (magnitude significand exponent) (places - top).toNat
    have hcast : (((places - top).toNat : Nat) : Int) = places - top := by omega
    rw [hcast, hspec.round_eq, neg_sub] at hpointed
    obtain ⟨kept, hkept, hstripped⟩ := hpointed.stripZeros
    refine ⟨hspec.roundedTo hnum negative, hlow, hhigh, hstripped.denoted?_unscaled negative,
      whole, kept, [], hstripped.parts_unscaled negative, hkept, iff_of_false ?_ ?_⟩
    · rintro ⟨sign, digits, hnil, -⟩
      cases hnil
    · omega

/-- A number just below ten is ten in six digits. -/
example : general (Float.ofBits 0x4023ffffef39085f) 6 = ['1', '0'] := by decide

end Number

namespace Format

open Number

variable {x : Float} {precision : Option Nat} {conversion : Conversion} {d : Directive}

/-! ## §2 Within what can be laid out -/

/-- The largest precision that every number can be written with: a number without an exponent has
up to three places more than digits. -/
def safePrecision : Nat := 65532

/-- What every given precision keeps to, the default keeps to as well. -/
theorem getD_le_safePrecision (h : ∀ n ∈ precision, n ≤ safePrecision) :
    precision.getD defaultPrecision ≤ safePrecision := by
  cases precision with
  | none => decide
  | some n => exact h n rfl

/-- A number in one of the three rounded conversions. -/
def roundedBody (conversion : Conversion) (x : Float) (precision : Nat) : List Char :=
  match conversion with
  | .f => fixed x precision
  | .e => scientific .signed x precision
  | _ => general x precision

theorem generalPlaces_le {precision : Nat} (h : precision ≤ safePrecision) (x : Float) :
    generalPlaces x precision ≤ placesLimit := by
  have hsafe : safePrecision = 65532 := rfl
  have hlimit : placesLimit = 65535 := rfl
  unfold generalPlaces
  split
  · next significand exponent _ =>
    dsimp only
    generalize (significant (magnitude significand exponent) (max precision 1 - 1)).2 = top
    split
    · omega
    · split
      · omega
      · split <;> omega
  · exact Nat.zero_le _

theorem numberBody_eq (hconversion : d.conversion ∈ [.f, .e, .g])
    (hlimit : d.precision.getD defaultPrecision ≤ safePrecision) (x : Float) :
    numberBody d x =
      .ok (roundedBody d.conversion x (d.precision.getD defaultPrecision)) := by
  have hplaces : ¬ placesLimit < d.precision.getD defaultPrecision := by
    have hsafe : safePrecision ≤ placesLimit := by decide
    omega
  have hgeneral := generalPlaces_le hlimit x
  unfold numberBody roundedBody
  generalize d.precision.getD defaultPrecision = precision at hplaces hgeneral
  dsimp only
  cases hletter : d.conversion with
  | f => exact if_neg fun h => hplaces h.2
  | e => exact if_neg fun h => hplaces h.2
  | g => exact if_neg (not_lt.mpr hgeneral)
  | _ => simp [hletter] at hconversion

/-! ## §3 Formats of numbers -/

/-- How a precision is written in a format. -/
def precisionText : Option Nat → List Char
  | none => []
  | some places => '.' :: digitsOf places

/-- The format that asks for a number in a conversion, with a precision or without. -/
def numberFormat (precision : Option Nat) (conversion : Conversion) : String :=
  String.ofList ('%' :: (precisionText precision ++ [conversion.letter]))

/-- A precision without flags and width in front of it is a directive. -/
theorem directiveRead_numberFormat (h : precision.getD defaultPrecision ≤ maxSize)
    (conversion : Conversion) :
    Directive.read (precisionText precision ++ [conversion.letter]) =
      .ok (⟨false, false, false, false, 0, precision, conversion⟩, []) := by
  cases precision with
  | none => cases conversion <;> rfl
  | some places =>
    have hplaces : places ≤ maxSize := h
    let o : Opening :=
      { flags := []
        width := []
        precision := some (digitsOf places)
        isFlag_of_mem := by simp
        isDigit_of_mem := by simp
        head_ne_zero := by simp
        isDigit_of_mem_precision := by
          rintro digits ⟨⟩
          exact (digits_digitsOf places).isDigit }
    have hread := Directive.read_opening o conversion []
    have hdirective : o.directive conversion =
        ⟨false, false, false, false, 0, some places, conversion⟩ := by
      simp [o, Opening.directive, ofDigitChars_digitsOf, hplaces]
    rwa [hdirective] at hread

theorem read_numberFormat (h : precision.getD defaultPrecision ≤ maxSize)
    (conversion : Conversion) :
    Template.read (numberFormat precision conversion).toList =
      ⟨[.directive ⟨false, false, false, false, 0, precision, conversion⟩], none⟩ := by
  rw [numberFormat, String.toList_ofList,
    Template.read_directive (directiveRead_numberFormat h conversion), Template.read]
  rfl

/-- A format of a number gives its body as it is: without flags there is no sign to put in front,
and without a width there is nothing to fill. -/
theorem apply_numberFormat_of_body {p : Payload} {body : List Char} (hnumber : p.toNumber? = some x)
    (htext : conversion ≠ .s) (hsize : precision.getD defaultPrecision ≤ maxSize)
    (hbody : numberBody ⟨false, false, false, false, 0, precision, conversion⟩ x = .ok body)
    (caller : String) :
    Format.apply caller (numberFormat precision conversion) p = .ok (String.ofList body) := by
  have hsign (d : Directive) (hplus : d.plus = false) (hspace : d.space = false) :
      withSign d body = body := by
    unfold withSign
    split
    · rfl
    · rw [hplus, hspace]
      rfl
  rw [Format.apply, read_numberFormat hsize]
  simp [fill, Directive.render, htext, numberOf, hnumber, hbody, hsign, pad, Except.map]

theorem apply_numberFormat {p : Payload} (hnumber : p.toNumber? = some x)
    (hconversion : conversion ∈ [.f, .e, .g])
    (hlimit : precision.getD defaultPrecision ≤ safePrecision) (caller : String) :
    Format.apply caller (numberFormat precision conversion) p =
      .ok (String.ofList
        (roundedBody conversion x (precision.getD defaultPrecision))) := by
  have htext : conversion ≠ .s := by
    rintro rfl
    simp at hconversion
  exact apply_numberFormat_of_body hnumber htext (hlimit.trans (by decide))
    (numberBody_eq hconversion hlimit x) caller

end Format

namespace Engine

open Number Format Standard

/-! ## §4 Calls -/

variable {config : Config} {events : List Event}

/-- The text that a number has by a conversion: the body of every directive, and the answer of an
engine to a format that has nothing else in it. -/
structure Written (engine : Engine) (clock : Float) (memory : Memory) (files : Tree) (x : Float)
    (precision : Option Nat) (conversion : Format.Conversion) (body : List Char) : Prop where
  rendered : ∀ d : Directive, d.precision = precision → d.conversion = conversion →
    numberBody d x = .ok body
  answer : ∀ args frame format value p p', args.items = [format, value] →
    format.outcome frame = .ok p → p.toText? = some (numberFormat precision conversion) →
    value.outcome frame = .ok p' → p'.toNumber? = some x →
    (engine.call clock memory "create_string_fa" args frame files).1 =
      .ok (.owned (.text (String.ofList body)))

/-- What a number is written as, in the three conversions. -/
structure Rendered (engine : Engine) (clock : Float) (memory : Memory) (files : Tree) (x : Float)
    (precision : Option Nat) (q : ℚ) : Prop where
  fixed : ∃ body, Written engine clock memory files x precision .f body ∧
    FixedForm q (precision.getD defaultPrecision) body
  scientific : q ≠ 0 → ∃ body, Written engine clock memory files x precision .e body ∧
    ScientificForm q (precision.getD defaultPrecision) body
  general : q ≠ 0 → ∃ body r top, Written engine clock memory files x precision .g body ∧
    GeneralForm q (max (precision.getD defaultPrecision) 1) r top body

theorem written (hinit : (run { config := config } events).initialized = true) (clock : Float)
    (memory : Memory) (files : Tree) (x : Float) {precision : Option Nat}
    {conversion : Format.Conversion} (hconversion : conversion ∈ [.f, .e, .g])
    (hlimit : precision.getD defaultPrecision ≤ safePrecision) :
    Written (run { config := config } events) clock memory files x precision conversion
      (roundedBody conversion x (precision.getD defaultPrecision)) where
  rendered d hprecision hletter := by
    subst hprecision hletter
    exact numberBody_eq hconversion hlimit x
  answer args frame format value p p' hargs hp htext hvalue hnumber := by
    rw [call_createString hinit hargs hp htext hvalue,
      apply_numberFormat hnumber hconversion hlimit]
    rfl

/-- **Numbers are rounded once**, half to even, from their exact value, in every form and with
every precision up to the limit. -/
theorem number_rendering (config : Config) (events : List Event)
    (hinit : (run { config := config } events).initialized = true) (clock : Float)
    (memory : Memory) (files : Tree) (x : Float) (hx : isFinite x = true) (precision : Option Nat)
    (hlimit : precision.getD defaultPrecision ≤ safePrecision) :
    ∃ q, exactValue? x = some q ∧
      Rendered (run { config := config } events) clock memory files x precision q := by
  obtain ⟨negative, significand, exponent, hbinary⟩ := isFinite_iff.mp hx
  refine ⟨_, exactValue?_of_finite hbinary, ?fixed, ?scientific, ?general⟩
  case fixed =>
    exact ⟨_, written hinit clock memory files x (by simp) hlimit, fixed_form hbinary _⟩
  case scientific =>
    exact fun hne =>
      ⟨_, written hinit clock memory files x (by simp) hlimit, scientific_form hbinary hne _⟩
  case general =>
    intro hne
    obtain ⟨r, top, hform⟩ := general_form hbinary hne (precision.getD defaultPrecision)
    exact ⟨_, r, top, written hinit clock memory files x (by simp) hlimit, hform⟩

/-- A number just below ten, which is ten in six digits. -/
theorem number_rendering_carry :
    (run {} [.signal .init1]).initialized = true ∧
      isFinite (Float.ofBits 0x4023ffffef39085f) = true ∧
      (none : Option Nat).getD defaultPrecision ≤ safePrecision ∧
      ∃ q, exactValue? (Float.ofBits 0x4023ffffef39085f) = some q ∧
        Rendered (run {} [.signal .init1]) 0 .usual {} (Float.ofBits 0x4023ffffef39085f) none q := by
  have hx : isFinite (Float.ofBits 0x4023ffffef39085f) = true := by decide
  have hlimit : (none : Option Nat).getD defaultPrecision ≤ safePrecision := by decide
  exact ⟨initialized_run_init1, hx, hlimit,
    number_rendering {} [.signal .init1] initialized_run_init1 0 .usual {} _ hx none hlimit⟩

end Engine

end SceneScript
