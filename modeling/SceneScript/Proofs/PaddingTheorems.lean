/-
SceneScript.Proofs.PaddingTheorems — what a width adds to a text.

What a directive writes has three parts: a sign, if any, what comes after it, and the
padding. Without its sign a number is `Unsigned`: digits, perhaps with a point and an
exponent, or the letters of what is not finite. So its sign can be told from what
follows, digits can be told from letters by the last character, and zeros in front of
digits do not change what they denote.

`Filled` says where the padding goes, and `pad_filled` that it goes there. The text of an
argument, cut to its precision, and the number without sign, by `exists_unsigned`, are
what it is put around. `padding_keeps_text` says so of every engine on which `init1` has
succeeded, for every opening of a modest size and every argument that it accepts, between
any other text, and that a number is still the same number after it has been padded.
-/
import SceneScript.Proofs.LimitTheorems

namespace SceneScript

namespace Number

/-! ## §1 Numbers without a sign -/

variable {x : Float} {text sign : List Char} {negative finite : Bool} {v : ℚ}

/-- The text of a number without its sign, and the number: digits, perhaps with a point among them,
and perhaps an exponent. -/
inductive Spelled : List Char → ℚ → Prop
  | plain {text whole fraction : List Char} {v : ℚ} (h : Pointed text whole fraction v) :
      Spelled text v
  | scaled {text whole fraction : List Char} {v : ℚ} (h : Pointed text whole fraction v)
      (top : Int) : Spelled (text ++ 'e' :: ExponentStyle.signed.write top) (v * 10 ^ top)

/-- A text denotes a number, which may be a zero, and has its sign. -/
structure Denotes (text : List Char) (negative : Bool) (q : ℚ) : Prop where
  sign : (takeSign text).1 = negative
  value : denoted? text = some q

/-- What is written after the sign of a number: digits, or letters if it is not finite. -/
inductive Unsigned : Bool → List Char → Prop
  | digits {text : List Char} {v : ℚ} (h : Spelled text v) : Unsigned true text
  | letters {text : List Char} (h : text = ['n', 'a', 'n'] ∨ text = ['i', 'n', 'f']) :
      Unsigned false text

theorem Digits.exists_last {digits : List Char} (h : Digits digits) :
    ∃ front last, digits = front ++ [last] ∧ last.isDigit := by
  obtain hnil | ⟨front, last, rfl⟩ := digits.eq_nil_or_concat'
  · exact absurd hnil h.ne_nil
  · exact ⟨front, last, rfl, h.isDigit last (by simp)⟩

namespace Pointed

variable {whole fraction : List Char}

/-- Zeros in front of digits do not count. -/
theorem zeros_append (h : Pointed text whole fraction v) (zeros : Nat) :
    Pointed (List.replicate zeros '0' ++ text) (List.replicate zeros '0' ++ whole) fraction v where
  written := by
    rw [h.written, pointText, pointText]
    split
    · rfl
    · rw [List.append_assoc]
  digits := h.digits.zeros_append zeros
  places := h.places
  value := by rw [List.append_assoc, ofDigitChars_zeros_append, h.value]

theorem isDigit_or_point (h : Pointed text whole fraction v) :
    ∀ c ∈ text, c.isDigit ∨ c = '.' := by
  intro c hc
  rw [h.written, pointText] at hc
  split at hc
  · exact .inl (h.digits.isDigit c hc)
  · rcases List.mem_append.mp hc with hc | hc
    · exact .inl (h.digits.isDigit c hc)
    · rcases List.mem_cons.mp hc with rfl | hc
      · exact .inr rfl
      · exact .inl (h.places c hc)

theorem exists_last (h : Pointed text whole fraction v) :
    ∃ front last, text = front ++ [last] ∧ last.isDigit := by
  rw [h.written, pointText]
  split
  · exact h.digits.exists_last
  · next hne =>
    have hfraction : Digits fraction := ⟨hne, h.places⟩
    obtain ⟨front, last, rfl, hdigit⟩ := hfraction.exists_last
    exact ⟨whole ++ '.' :: front, last, by simp, hdigit⟩

end Pointed

/-- An exponent ends in a digit, too. -/
theorem exists_last_exponent (top : Int) : ∃ front last,
    ExponentStyle.signed.write top = front ++ [last] ∧ last.isDigit := by
  obtain ⟨front, last, hlast, hdigit⟩ :=
    (digits_padZeros (digits_digitsOf top.natAbs) 2).exists_last
  refine ⟨(if top < 0 then '-' else '+') :: front, last, ?_, hdigit⟩
  rw [ExponentStyle.write, hlast]
  rfl

theorem ne_space_of_mem_exponent {top : Int} {c : Char}
    (hc : c ∈ ExponentStyle.signed.write top) : c ≠ ' ' := by
  rintro rfl
  rw [ExponentStyle.write, List.mem_cons] at hc
  rcases hc with hc | hc
  · split at hc <;> cases hc
  · exact absurd ((digits_padZeros (digits_digitsOf _) 2).isDigit _ hc) (by decide)

namespace Spelled

theorem zeros_append (h : Spelled text v) (zeros : Nat) :
    Spelled (List.replicate zeros '0' ++ text) v := by
  cases h with
  | plain h => exact .plain (h.zeros_append zeros)
  | scaled h top =>
    rw [← List.append_assoc]
    exact .scaled (h.zeros_append zeros) top

/-- However its sign is spelled, a number is read back with it. -/
theorem denotes (h : Spelled text v) (hsign : SpellsSign negative sign) :
    Denotes (sign ++ text) negative (signed negative v) := by
  cases h with
  | plain h =>
    have hnone : readExponent? [] = some 0 := rfl
    have htake := h.takeSign_eq hsign []
    have hvalue := h.denoted?_of_sign hsign hnone
    rw [List.append_nil] at htake hvalue
    rw [zpow_zero, mul_one] at hvalue
    exact ⟨by rw [htake], hvalue⟩
  | scaled h top =>
    have htake := h.takeSign_eq hsign ('e' :: ExponentStyle.signed.write top)
    exact ⟨by rw [htake], h.denoted?_of_sign hsign (readExponent?_signed top)⟩

theorem head (h : Spelled text v) : ∀ c ∈ text.head?, c.isDigit := by
  cases h with
  | plain h => simpa using h.head []
  | scaled h top => exact h.head _

theorem exists_last (h : Spelled text v) :
    ∃ front last, text = front ++ [last] ∧ last.isDigit := by
  cases h with
  | plain h => exact h.exists_last
  | @scaled text _ _ _ h top =>
    obtain ⟨front, last, hlast, hdigit⟩ := exists_last_exponent top
    exact ⟨text ++ 'e' :: front, last, by rw [hlast]; simp, hdigit⟩

theorem space_not_mem (h : Spelled text v) : ' ' ∉ text := by
  have hpointed {text whole fraction : List Char} {v : ℚ} (h : Pointed text whole fraction v) :
      ' ' ∉ text := fun hc => by
    rcases h.isDigit_or_point ' ' hc with hdigit | hpoint
    · cases hdigit
    · cases hpoint
  cases h with
  | plain h => exact hpointed h
  | scaled h top =>
    intro hc
    rcases List.mem_append.mp hc with hc | hc
    · exact hpointed h hc
    · rcases List.mem_cons.mp hc with hletter | hc
      · cases hletter
      · exact ne_space_of_mem_exponent hc rfl

end Spelled

namespace Unsigned

/-- There is no sign in it that could be taken for that in front. -/
theorem head (h : Unsigned finite text) : ∀ c ∈ text.head?, c ∉ ['+', '-', ' '] := by
  intro c hc hsign
  cases h with
  | digits h =>
    have hdigit := h.head c hc
    simp only [List.mem_cons, List.not_mem_nil, or_false] at hsign
    obtain rfl | rfl | rfl := hsign <;> cases hdigit
  | letters h =>
    obtain rfl | rfl := h <;> cases hc <;> exact absurd hsign (by decide)

theorem space_not_mem (h : Unsigned finite text) : ' ' ∉ text := by
  cases h with
  | digits h => exact h.space_not_mem
  | letters h =>
    obtain rfl | rfl := h <;> decide

end Unsigned

/-! ## §2 Numbers that are written -/

theorem significant_lt (r : Ratio) (places : Nat) :
    (significant r places).1 < 10 ^ (places + 1) := by
  by_cases hzero : r.num = 0
  · rw [significant, if_pos hzero]
    exact Nat.pow_pos (by decide)
  · exact (significant_spec (Nat.pos_of_ne_zero hzero) places).high

theorem spelled_digitsOf (n : Nat) : Spelled (digitsOf n) n := by
  have hpointed : Pointed (digitsOf n) (digitsOf n) [] n := by
    refine ⟨rfl, digits_digitsOf n, by simp, ?_⟩
    rw [List.append_nil, ofDigitChars_digitsOf]
    simp
  exact .plain hpointed

section

variable {significand : Nat} {exponent : Int}

theorem fixed_spelled (h : Binary.ofFloat x = .finite negative significand exponent)
    (places : Nat) : ∃ unsigned v, fixed x places = signText negative ++ unsigned ∧
      Spelled unsigned v := by
  obtain ⟨whole, fraction, -, hpointed⟩ :=
    fixedMagnitude_pointed (magnitude significand exponent) places
  exact ⟨_, _, by rw [fixed, h], .plain hpointed⟩

theorem scientific_spelled (h : Binary.ofFloat x = .finite negative significand exponent)
    (places : Nat) : ∃ unsigned v, scientific .signed x places = signText negative ++ unsigned ∧
      Spelled unsigned v := by
  obtain ⟨first, fraction, -, -, hpointed⟩ :=
    mantissaText_pointed (significant_lt (magnitude significand exponent) places)
  exact ⟨_, _, by rw [scientific, h]; rfl, .scaled hpointed _⟩

theorem general_spelled (h : Binary.ofFloat x = .finite negative significand exponent)
    (digits : Nat) : ∃ unsigned v, general x digits = signText negative ++ unsigned ∧
      Spelled unsigned v := by
  unfold general
  rw [h]
  dsimp only
  split
  · exact ⟨_, _, rfl, spelled_digitsOf 0⟩
  · have hlt := significant_lt (magnitude significand exponent) (max digits 1 - 1)
    split
    · obtain ⟨first, fraction, -, -, hpointed⟩ := mantissaText_pointed hlt
      obtain ⟨kept, -, hstripped⟩ := hpointed.stripZeros
      exact ⟨_, _, rfl, .scaled hstripped _⟩
    · obtain ⟨whole, fraction, -, hpointed⟩ :=
        fixedMagnitude_pointed (magnitude significand exponent) _
      obtain ⟨kept, -, hstripped⟩ := hpointed.stripZeros
      exact ⟨_, _, rfl, .plain hstripped⟩

end

/-- Whether a number has a minus sign; what is no number has none. -/
def isNegative (x : Float) : Bool :=
  match Binary.ofFloat x with
  | .nan => false
  | .infinite negative => negative
  | .finite negative _ _ => negative

end Number

namespace Format

open Number

/-- Whether a number is written with a minus sign: a whole number if it is below zero, and in the
rounded forms what has a minus sign, also if it is zero or is rounded to zero. -/
def Conversion.isNegative (conversion : Conversion) (x : Float) : Bool :=
  match conversion with
  | .f | .e | .g => Number.isNegative x
  | .s | .d | .i => decide ((toInt64 x).toInt < 0)

/-- Whether a number is written in digits: a whole number always, and in the rounded forms what is
finite. -/
def Conversion.inDigits (conversion : Conversion) (x : Float) : Bool :=
  match conversion with
  | .f | .e | .g => isFinite x
  | .s | .d | .i => true

variable {d : Directive} {x : Float}

/-- A rounded form is a minus sign, if the number has one, and what comes after it. -/
theorem roundedBody_unsigned {conversion : Conversion} (hconversion : conversion ∈ [.f, .e, .g])
    (x : Float) (precision : Nat) : ∃ unsigned,
      roundedBody conversion x precision = signText (conversion.isNegative x) ++ unsigned ∧
        Unsigned (conversion.inDigits x) unsigned := by
  have hshape : conversion.isNegative x = Number.isNegative x ∧
      conversion.inDigits x = isFinite x := by
    fin_cases hconversion <;> exact ⟨rfl, rfl⟩
  rw [hshape.1, hshape.2, Number.isNegative, isFinite]
  cases hx : Binary.ofFloat x with
  | nan =>
    refine ⟨['n', 'a', 'n'], ?_, .letters (.inl rfl)⟩
    fin_cases hconversion <;>
      simp [roundedBody, fixed, scientific, general, hx, nonFiniteText, signText]
  | infinite negative =>
    refine ⟨['i', 'n', 'f'], ?_, .letters (.inr rfl)⟩
    fin_cases hconversion <;>
      simp [roundedBody, fixed, scientific, general, hx, nonFiniteText]
  | finite negative significand exponent =>
    obtain ⟨unsigned, v, hbody, hspelled⟩ : ∃ unsigned v,
        roundedBody conversion x precision = signText negative ++ unsigned ∧
          Spelled unsigned v := by
      fin_cases hconversion
      · exact fixed_spelled hx precision
      · exact scientific_spelled hx precision
      · exact general_spelled hx precision
    exact ⟨unsigned, hbody, .digits hspelled⟩

/-- So is every number without sign flags and width. -/
theorem numberBody_unsigned (hconversion : d.conversion ≠ .s)
    (hlimit : d.precision.getD defaultPrecision ≤ safePrecision) (x : Float) : ∃ unsigned,
      numberBody d x = .ok (signText (d.conversion.isNegative x) ++ unsigned) ∧
        Unsigned (d.conversion.inDigits x) unsigned := by
  by_cases hrounded : d.conversion ∈ [.f, .e, .g]
  · rw [numberBody_eq hrounded hlimit]
    generalize d.precision.getD defaultPrecision = precision
    obtain ⟨unsigned, hbody, hunsigned⟩ := roundedBody_unsigned hrounded x precision
    exact ⟨unsigned, by rw [hbody], hunsigned⟩
  · obtain hletter | hletter : d.conversion = .d ∨ d.conversion = .i := by
      cases hletter : d.conversion <;> simp_all
    all_goals
      rw [numberBody, hletter]
      exact ⟨_, rfl, .digits (spelled_digitsOf _)⟩

/-! ## §3 Where the padding goes -/

namespace Opening

/-- The width that is asked for: none is zero. -/
def size (o : Opening) : Nat := Nat.ofDigitChars 10 o.width 0

/-- The precision that is asked for: a point without digits is zero. -/
def places (o : Opening) : Option Nat := o.precision.map fun digits => Nat.ofDigitChars 10 digits 0

/-- What stands in front of a number: a minus sign if it has one, or else what the flags ask for. -/
def lead (o : Opening) (negative : Bool) : List Char :=
  if negative then ['-']
  else if '+' ∈ o.flags then ['+']
  else if ' ' ∈ o.flags then [' ']
  else []

/-- A sign and what comes after it, brought to the width that is asked for. -/
def filled (o : Opening) (zeros : Bool) (lead rest : List Char) : List Char :=
  if '-' ∈ o.flags then (lead ++ rest).rightpad o.size ' '
  else if '0' ∈ o.flags ∧ zeros then lead ++ rest.leftpad (o.size - lead.length) '0'
  else (lead ++ rest).leftpad o.size ' '

variable {o : Opening} {conversion : Conversion} {negative : Bool} {unsigned : List Char}

theorem width_directive (h : o.size ≤ paddingLimit) : (o.directive conversion).width = o.size :=
  min_eq_right (h.trans (by decide))

theorem precision_directive (h : ∀ n ∈ o.places, n ≤ safePrecision) :
    (o.directive conversion).precision = o.places := by
  unfold directive places at *
  cases hprecision : o.precision with
  | none => rfl
  | some digits =>
    have hsafe := h (Nat.ofDigitChars 10 digits 0) (by rw [hprecision]; rfl)
    exact congrArg some (min_eq_right (hsafe.trans (by decide)))

/-- The flags ask for a sign only where there is none. -/
theorem withSign_directive (h : ∀ c ∈ unsigned.head?, c ∉ ['+', '-', ' ']) :
    withSign (o.directive conversion) (signText negative ++ unsigned) =
      o.lead negative ++ unsigned := by
  have hplain : withSign (o.directive conversion) unsigned = o.lead false ++ unsigned := by
    unfold withSign
    split
    · exact absurd (by simp) (h '-' rfl)
    · simp only [directive, List.contains_iff_mem, lead, Bool.false_eq_true, if_false]
      split
      · rfl
      · split <;> rfl
  cases negative with
  | true => rfl
  | false => exact hplain

/-- It can be told from what comes after it. -/
theorem splitSign_lead (h : ∀ c ∈ unsigned.head?, c ∉ ['+', '-', ' ']) :
    splitSign (o.lead negative ++ unsigned) = (o.lead negative, unsigned) := by
  have hnone : splitSign unsigned = ([], unsigned) := by
    unfold splitSign
    split
    · exact absurd (by simp) (h '+' rfl)
    · exact absurd (by simp) (h '-' rfl)
    · exact absurd (by simp) (h ' ' rfl)
    · rfl
  unfold lead
  split
  · rfl
  · split
    · rfl
    · split
      · rfl
      · exact hnone

end Opening

theorem not_isAlpha_of_isDigit {c : Char} (h : c.isDigit) : ¬ c.isAlpha := by
  have hnine : '9'.val.toNat = 57 := rfl
  have hupper : 'A'.val.toNat = 65 := rfl
  have hlower : 'a'.val.toNat = 97 := rfl
  simp only [Char.isDigit, Char.isAlpha, Char.isUpper, Char.isLower, ge_iff_le,
    UInt32.le_iff_toNat_le, Bool.or_eq_true, Bool.and_eq_true, decide_eq_true_eq] at h ⊢
  omega

/-- Digits are told from letters at the end. -/
theorem endsInLetter_unsigned {finite : Bool} {unsigned : List Char} (h : Unsigned finite unsigned)
    (lead : List Char) : endsInLetter (lead ++ unsigned) = !finite := by
  cases h with
  | digits h =>
    obtain ⟨front, last, rfl, hdigit⟩ := h.exists_last
    have hlast : (lead ++ (front ++ [last])).getLast? = some last := by
      rw [← List.append_assoc, List.getLast?_concat]
    rw [endsInLetter, hlast]
    exact Bool.eq_false_iff.mpr (not_isAlpha_of_isDigit hdigit)
  | letters h =>
    obtain rfl | rfl := h
    · have hlast : (lead ++ ['n', 'a', 'n']).getLast? = some 'n' := by simp
      rw [endsInLetter, hlast]
      rfl
    · have hlast : (lead ++ ['i', 'n', 'f']).getLast? = some 'f' := by simp
      rw [endsInLetter, hlast]
      rfl

theorem rightpad_of_le {width : Nat} {text : List Char} (h : width ≤ text.length) (c : Char) :
    text.rightpad width c = text := by
  rw [List.rightpad, Nat.sub_eq_zero_of_le h]
  exact List.append_nil text

theorem leftpad_of_le {width : Nat} {text : List Char} (h : width ≤ text.length) (c : Char) :
    text.leftpad width c = text := by
  rw [List.leftpad, Nat.sub_eq_zero_of_le h]
  rfl

theorem pad_directive {o : Opening} (hwidth : o.size ≤ paddingLimit) (conversion : Conversion)
    {numeric zeros : Bool} {lead rest : List Char}
    (hzeros : (numeric && !endsInLetter (lead ++ rest)) = zeros)
    (hsplit : zeros = true → splitSign (lead ++ rest) = (lead, rest)) :
    pad (o.directive conversion) numeric (lead ++ rest) = .ok (o.filled zeros lead rest) := by
  have hlength : (lead ++ rest).length = lead.length + rest.length := List.length_append
  unfold pad Opening.filled
  rw [Opening.width_directive hwidth, Bool.and_assoc, hzeros]
  simp only [Opening.directive, List.contains_iff_mem, Bool.and_eq_true]
  split
  · next hfits =>
    have hrest : o.size - lead.length ≤ rest.length := by omega
    rw [rightpad_of_le hfits, leftpad_of_le hfits, leftpad_of_le hrest, ite_self, ite_self]
  · rw [if_neg (by omega)]
    split
    · rfl
    · split
      · next hmarks =>
        have hmissing : o.size - lead.length - rest.length = o.size - (lead ++ rest).length := by
          omega
        rw [hsplit hmarks.2, List.leftpad, hmissing, List.append_assoc]
      · rfl

/-- What a sign and what comes after it are in the width that is asked for: there are spaces on one
side, or zeros between the two. -/
structure Filled (o : Opening) (zeros : Bool) (lead rest out : List Char) : Prop where
  length : out.length = max o.size (lead ++ rest).length
  left : '-' ∈ o.flags → out = (lead ++ rest).rightpad o.size ' '
  between : '-' ∉ o.flags → '0' ∈ o.flags → zeros = true →
    out = lead ++ rest.leftpad (o.size - lead.length) '0'
  right : '-' ∉ o.flags → ¬ ('0' ∈ o.flags ∧ zeros = true) →
    out = (lead ++ rest).leftpad o.size ' '

theorem filled_spec (o : Opening) (zeros : Bool) (lead rest : List Char) :
    Filled o zeros lead rest (o.filled zeros lead rest) where
  length := by
    unfold Opening.filled
    split
    · exact List.length_rightpad
    · split
      · rw [List.length_append, List.length_append, List.length_leftpad]
        omega
      · exact List.length_leftpad
  left h := if_pos h
  between h hflag hzeros := (if_neg h).trans (if_pos ⟨hflag, hzeros⟩)
  right h hnot := (if_neg h).trans (if_neg hnot)

/-! ## §4 What is left without spaces -/

/-- A text without its spaces. -/
def unspaced (text : List Char) : List Char := text.filter (· ≠ ' ')

theorem unspaced_append (text text' : List Char) :
    unspaced (text ++ text') = unspaced text ++ unspaced text' := List.filter_append ..

theorem unspaced_spaces (count : Nat) : unspaced (List.replicate count ' ') = [] := by
  simp [unspaced]

theorem unspaced_of_not_mem {text : List Char} (h : ' ' ∉ text) : unspaced text = text := by
  refine List.filter_eq_self.mpr fun c hc => ?_
  have hne : c ≠ ' ' := fun hspace => h (hspace ▸ hc)
  exact decide_eq_true hne

/-- Spaces are all that is put around a text, but for zeros in front of digits. -/
theorem Filled.unspaced_eq {o : Opening} {zeros : Bool} {lead rest out : List Char}
    (h : Filled o zeros lead rest out) (hrest : ' ' ∉ rest) : ∃ count,
      unspaced out = unspaced lead ++ (List.replicate count '0' ++ rest) ∧
        (zeros = false → count = 0) := by
  have hplain : unspaced (lead ++ rest) = unspaced lead ++ (List.replicate 0 '0' ++ rest) := by
    rw [unspaced_append, unspaced_of_not_mem hrest]
    rfl
  by_cases hleft : '-' ∈ o.flags
  · refine ⟨0, ?_, fun _ => rfl⟩
    rw [h.left hleft, List.rightpad, unspaced_append, unspaced_spaces, List.append_nil, hplain]
  · by_cases hzeros : '0' ∈ o.flags ∧ zeros = true
    · obtain ⟨hflag, rfl⟩ := hzeros
      refine ⟨o.size - lead.length - rest.length, ?_, by simp⟩
      have hnot : ' ' ∉ List.replicate (o.size - lead.length - rest.length) '0' ++ rest := by
        simp [hrest]
      rw [h.between hleft hflag rfl, List.leftpad, unspaced_append, unspaced_of_not_mem hnot]
    · refine ⟨0, ?_, fun _ => rfl⟩
      rw [h.right hleft hzeros, List.leftpad, unspaced_append, unspaced_spaces, List.nil_append,
        hplain]

/-- Without a space in its place, no sign is left in front but the number's own or a plus sign. -/
theorem spellsSign_lead (o : Opening) (negative : Bool) :
    SpellsSign negative (unspaced (o.lead negative)) := by
  cases negative with
  | true => exact .minus
  | false =>
    unfold Opening.lead
    rw [if_neg Bool.false_ne_true]
    split
    · exact .plus
    · split <;> exact .missing

/-! ## §5 Directives -/

variable {o : Opening} {conversion : Conversion} {arg : Payload} {unsigned out : List Char}

/-- A number in a given width: `unsigned` is what is written for it after its sign. -/
structure NumberFilled (o : Opening) (conversion : Conversion) (x : Float)
    (unsigned out : List Char) : Prop where
  /-- There is no other sign. -/
  head : ∀ c ∈ unsigned.head?, c ∉ ['+', '-', ' ']
  filled : Filled o (conversion.inDigits x) (o.lead (conversion.isNegative x)) unsigned out
  /-- The padding does not change the number, nor its sign. -/
  same : conversion.inDigits x = true → ∃ q,
    Denotes (signText (conversion.isNegative x) ++ unsigned) (conversion.isNegative x) q ∧
    Denotes (unspaced (o.lead (conversion.isNegative x) ++ unsigned)) (conversion.isNegative x) q ∧
    Denotes (unspaced out) (conversion.isNegative x) q
  /-- What is not finite is a word, in which nothing is changed. -/
  word : conversion.inDigits x = false →
    (unsigned = ['n', 'a', 'n'] ∨ unsigned = ['i', 'n', 'f']) ∧
    unspaced out = unspaced (o.lead (conversion.isNegative x) ++ unsigned)

theorem numberFilled (o : Opening) (h : Unsigned (conversion.inDigits x) unsigned) :
    NumberFilled o conversion x unsigned
      (o.filled (conversion.inDigits x) (o.lead (conversion.isNegative x)) unsigned) := by
  have hfilled := filled_spec o (conversion.inDigits x) (o.lead (conversion.isNegative x)) unsigned
  obtain ⟨count, hout, hnone⟩ := hfilled.unspaced_eq h.space_not_mem
  have hbody : unspaced (o.lead (conversion.isNegative x) ++ unsigned) =
      unspaced (o.lead (conversion.isNegative x)) ++ unsigned := by
    rw [unspaced_append, unspaced_of_not_mem h.space_not_mem]
  have hlead := spellsSign_lead o (conversion.isNegative x)
  refine ⟨h.head, hfilled, ?same, ?word⟩
  case same =>
    -- Zeros are part of the digits here, so that the three texts are read by one lemma.
    intro hdigits
    rw [hdigits] at h
    rw [hbody, hout]
    cases h with
    | digits h => exact ⟨_, h.denotes (spellsSign_signText _), h.denotes hlead,
        (h.zeros_append count).denotes hlead⟩
  case word =>
    intro hword
    rw [hbody, hout, hnone hword]
    rw [hword] at h
    cases h with
    | letters h => exact ⟨h, rfl⟩

theorem render_text (hwidth : o.size ≤ paddingLimit)
    (hprecision : ∀ n ∈ o.places, n ≤ safePrecision) {t : String} (ht : arg.toText? = some t) :
    (o.directive .s).render arg = .ok (o.filled false [] (cutTo o.places t.toList)) := by
  have hletter : (o.directive .s).conversion = .s := rfl
  rw [Directive.render, if_pos hletter, textOf, ht]
  dsimp only
  rw [Opening.precision_directive hprecision]
  have hpad : pad (o.directive .s) false ([] ++ cutTo o.places t.toList) =
      .ok (o.filled false [] (cutTo o.places t.toList)) :=
    pad_directive hwidth .s rfl fun hzeros => absurd hzeros Bool.false_ne_true
  exact hpad

theorem render_number (hwidth : o.size ≤ paddingLimit)
    (hprecision : ∀ n ∈ o.places, n ≤ safePrecision) (hconversion : conversion ≠ .s)
    (hnumber : arg.toNumber? = some x) : ∃ unsigned,
      numberBody ⟨false, false, false, false, 0, o.places, conversion⟩ x =
        .ok (signText (conversion.isNegative x) ++ unsigned) ∧
      Unsigned (conversion.inDigits x) unsigned ∧
      (o.directive conversion).render arg =
        .ok (o.filled (conversion.inDigits x) (o.lead (conversion.isNegative x)) unsigned) := by
  obtain ⟨unsigned, hbody, hunsigned⟩ :=
    numberBody_unsigned (d := ⟨false, false, false, false, 0, o.places, conversion⟩) hconversion
      (getD_le_safePrecision hprecision) x
  refine ⟨unsigned, hbody, hunsigned, ?_⟩
  have hsame : numberBody (o.directive conversion) x =
      numberBody ⟨false, false, false, false, 0, o.places, conversion⟩ x := by
    rw [numberBody, numberBody, Opening.precision_directive hprecision]
    rfl
  have hletter : ¬ (o.directive conversion).conversion = .s := hconversion
  rw [Directive.render, if_neg hletter, numberOf, hnumber]
  dsimp only
  rw [hsame, hbody]
  dsimp only
  rw [Opening.withSign_directive hunsigned.head]
  refine pad_directive hwidth conversion ?_ fun _ => Opening.splitSign_lead hunsigned.head
  rw [endsInLetter_unsigned hunsigned, Bool.not_not, Bool.true_and]

end Format

namespace Engine

open Number Format Standard

/-! ## §6 Calls -/

variable {config : Config} {events : List Event}

/-- What an argument is written as by a directive, on an engine: the same between any texts as
alone. -/
structure Padded (engine : Engine) (clock : Float) (memory : Memory) (files : Tree) (o : Opening)
    (conversion : Format.Conversion) (arg : Payload) (out : List Char) : Prop where
  written : ∀ front back, WritesTo engine clock memory files
    (String.ofList (doubled front ++ '%' :: (o.text ++ conversion.letter :: doubled back))) arg
    (.ok (.owned (.text (String.ofList (front ++ out ++ back)))))
  /-- A text is cut, and then gets its padding, which is never zeros. -/
  text : conversion = .s → ∃ t, arg.toText? = some t ∧
    Filled o false [] (cutTo o.places t.toList) out
  /-- A number is what it is without flags and width, but for a plus sign or a space, and for the
  padding. -/
  number : conversion ≠ .s → ∃ x unsigned, arg.toNumber? = some x ∧
    WritesTo engine clock memory files (numberFormat o.places conversion) arg
      (.ok (.owned (.text (String.ofList (signText (conversion.isNegative x) ++ unsigned))))) ∧
    NumberFilled o conversion x unsigned out

/-- **Padding keeps the text** that it is put around, with every flag, width, precision and
conversion, and for every argument that these accept. -/
theorem padding_keeps_text (config : Config) (events : List Event)
    (hinit : (run { config := config } events).initialized = true) (clock : Float)
    (memory : Memory) (files : Tree) (o : Opening) (conversion : Format.Conversion)
    (hwidth : o.size < 2 ^ 63) (hprecision : ∀ n ∈ o.places, n ≤ safePrecision) (arg : Payload)
    (haccepted : (o.directive conversion).reading.fault? arg = none) :
    ∃ out, Padded (run { config := config } events) clock memory files o conversion arg out := by
  have hlimit : o.size ≤ paddingLimit := Nat.le_of_lt_succ hwidth
  have hwritten {out : List Char} (hrender : (o.directive conversion).render arg = .ok out)
      (front back : List Char) : WritesTo (run { config := config } events) clock memory files
        (String.ofList (doubled front ++ '%' :: (o.text ++ conversion.letter :: doubled back))) arg
        (.ok (.owned (.text (String.ofList (front ++ out ++ back))))) := by
    intro args frame form value p hargs hp htext hvalue
    rw [call_createString hinit hargs hp htext hvalue, apply_directive _ o conversion front back
      hrender]
    rfl
  by_cases hconversion : conversion = .s
  · subst hconversion
    obtain ⟨t, ht⟩ := Reading.fault?_text_eq_none_iff.mp haccepted
    exact ⟨_, hwritten (render_text hlimit hprecision ht),
      fun _ => ⟨t, ht, filled_spec o false [] _⟩, fun hnot => absurd rfl hnot⟩
  · have hreading : (o.directive conversion).reading = .number := if_neg hconversion
    rw [hreading] at haccepted
    obtain ⟨x, hx⟩ := Reading.fault?_number_eq_none_iff.mp haccepted
    obtain ⟨unsigned, hbody, hunsigned, hrender⟩ :=
      render_number hlimit hprecision hconversion hx
    refine ⟨_, hwritten hrender, fun htext => absurd htext hconversion, fun _ =>
      ⟨x, unsigned, hx, ?_, numberFilled o hunsigned⟩⟩
    intro args frame form value p hargs hp htext hvalue
    have hsize : o.places.getD defaultPrecision ≤ maxSize :=
      (getD_le_safePrecision hprecision).trans (by decide)
    rw [call_createString hinit hargs hp htext hvalue,
      apply_numberFormat_of_body hx hconversion hsize hbody]
    rfl

/-- A width of eight, with zeros, one place after the point, and a space in place of a plus sign. -/
def zeroFilled : Opening where
  flags := [' ', '0', ' ']
  width := ['8']
  precision := some ['1']
  isFlag_of_mem := by simp [isFlag]
  isDigit_of_mem := by simp
  head_ne_zero := by simp
  isDigit_of_mem_precision := by simp

/-- The negative zero in that width, on an engine on which nothing but `init1` has happened. -/
theorem padding_keeps_text_zero :
    (run {} [.signal .init1]).initialized = true ∧ zeroFilled.size < 2 ^ 63 ∧
      (∀ n ∈ zeroFilled.places, n ≤ safePrecision) ∧
      (zeroFilled.directive .f).reading.fault? (.number (Float.ofBits 0x8000000000000000)) = none ∧
      ∃ out, Padded (run {} [.signal .init1]) 0 .usual {} zeroFilled .f
        (.number (Float.ofBits 0x8000000000000000)) out := by
  have hwidth : zeroFilled.size < 2 ^ 63 := by decide
  have hprecision : ∀ n ∈ zeroFilled.places, n ≤ safePrecision := by
    rintro n ⟨⟩
    show 1 ≤ safePrecision
    decide
  exact ⟨initialized_run_init1, hwidth, hprecision, rfl,
    padding_keeps_text {} [.signal .init1] initialized_run_init1 0 .usual {} zeroFilled .f hwidth
      hprecision _ rfl⟩

/-- The sign is kept in front of the zeros. -/
example : zeroFilled.filled true (zeroFilled.lead true) ['0', '.', '0'] =
    ['-', '0', '0', '0', '0', '0', '.', '0'] := by decide

end Engine

end SceneScript
