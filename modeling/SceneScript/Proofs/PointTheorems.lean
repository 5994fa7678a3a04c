/-
SceneScript.Proofs.PointTheorems — digits with a point, and the number that they denote.

A magnitude is written as digits with a point among them, if any come after it. What
such a text denotes, with a sign in front and an exponent behind, is read off with the
reader of real numbers, before that rounds to a double (`denoted?`).

`Pointed` says of a text what its digits are and what it is worth. A magnitude with a
given number of places is worth what it is rounded to (`fixedMagnitude_pointed`), and
so are its significant digits, with the point after the first (`mantissaText_pointed`).
Zeros at the end can be left out (`Pointed.stripZeros`), and an exponent with a sign
and two digits or more is read back (`readExponent?_signed`).
-/
import SceneScript.Proofs.RoundingTheorems
import SceneScript.Proofs.NumeralTheorems
import Mathlib.Data.List.DropRight

namespace SceneScript.Number

/-! ## §1 The text of a number and what it denotes -/

/-- Digits with a point, which is left out if no digits follow it. -/
def pointText (whole fraction : List Char) : List Char :=
  if fraction = [] then whole else whole ++ '.' :: fraction

/-- The letter `e`, a sign, and at least two digits. -/
def SpellsExponent (tail : List Char) : Prop :=
  ∃ sign digits, tail = 'e' :: sign :: digits ∧ (sign = '+' ∨ sign = '-') ∧
    2 ≤ digits.length ∧ ∀ c ∈ digits, c.isDigit

/-- The parts of the text of a number: a sign, digits, digits after a point, and an exponent. -/
structure Parts (body whole fraction tail : List Char) : Prop where
  written : ∃ negative, body = signText negative ++ (pointText whole fraction ++ tail)
  digits : Digits whole
  places : ∀ c ∈ fraction, c.isDigit
  exponent : tail = [] ∨ SpellsExponent tail

/-- The number that a text denotes, exactly. -/
def denoted? (text : List Char) : Option ℚ :=
  let (negative, body) := takeSign text
  (readDecimal? body).map fun d => signed negative d.ratio.value

/-- The number that a double is, exactly; there is none for what is not finite. -/
def exactValue? (x : Float) : Option ℚ :=
  match Binary.ofFloat x with
  | .finite negative significand exponent =>
    some (signed negative (magnitude significand exponent).value)
  | _ => none

/-! ## §2 Digits with a point among them -/

variable {text whole fraction tail : List Char} {v : ℚ} {e : Int}

/-- A text of digits with a point, if any come after it, and the value of that. -/
structure Pointed (text whole fraction : List Char) (v : ℚ) : Prop where
  written : text = pointText whole fraction
  digits : Digits whole
  places : ∀ c ∈ fraction, c.isDigit
  value : (Nat.ofDigitChars 10 (whole ++ fraction) 0 : ℚ) * 10 ^ (-(fraction.length : Int)) = v

/-- Digits with a point and an exponent are read with the places after the point counted off. -/
theorem readDecimal?_pointText (hwhole : Digits whole) (hfraction : ∀ c ∈ fraction, c.isDigit)
    (htail : readExponent? tail = some e) :
    readDecimal? (pointText whole fraction ++ tail) =
      some ⟨Nat.ofDigitChars 10 (whole ++ fraction) 0, e - fraction.length⟩ := by
  have hdigits : whole ++ fraction ≠ [] := List.append_ne_nil_of_left_ne_nil hwhole.ne_nil _
  unfold pointText
  split
  · next hnil =>
    exact readDecimal?_of_parts hwhole.isDigit hfraction hdigits (.inr ⟨rfl, hnil⟩) htail
  · rw [List.append_assoc]
    exact readDecimal?_of_parts hwhole.isDigit hfraction hdigits (.inl rfl) htail

namespace Pointed

theorem head (h : Pointed text whole fraction v) (tail : List Char) :
    ∀ c ∈ (text ++ tail).head?, c.isDigit := by
  rw [h.written, pointText]
  split
  · exact h.digits.head tail
  · rw [List.append_assoc]
    exact h.digits.head _

/-- However the sign is spelled, it is taken off. -/
theorem takeSign_eq (h : Pointed text whole fraction v) {negative : Bool} {sign : List Char}
    (hsign : SpellsSign negative sign) (tail : List Char) :
    takeSign (sign ++ (text ++ tail)) = (negative, text ++ tail) :=
  takeSign_append hsign fun c hc => ne_sign_of_isDigit (h.head tail c hc)

/-- What is written with a sign and an exponent denotes the value times that power of ten. -/
theorem denoted?_of_sign (h : Pointed text whole fraction v) {negative : Bool} {sign : List Char}
    (hsign : SpellsSign negative sign) (htail : readExponent? tail = some e) :
    denoted? (sign ++ (text ++ tail)) = some (signed negative (v * 10 ^ e)) := by
  unfold denoted?
  rw [h.takeSign_eq hsign, h.written]
  dsimp only
  rw [readDecimal?_pointText h.digits h.places htail, Option.map_some, Decimal.value_ratio,
    ← h.value, sub_eq_neg_add, zpow_add₀ (by norm_num), mul_assoc]

theorem denoted?_eq (h : Pointed text whole fraction v) (htail : readExponent? tail = some e)
    (negative : Bool) :
    denoted? (signText negative ++ (text ++ tail)) = some (signed negative (v * 10 ^ e)) :=
  h.denoted?_of_sign (spellsSign_signText negative) htail

theorem parts (h : Pointed text whole fraction v) (negative : Bool)
    (htail : tail = [] ∨ SpellsExponent tail) :
    Parts (signText negative ++ (text ++ tail)) whole fraction tail :=
  ⟨⟨negative, by rw [h.written]⟩, h.digits, h.places, htail⟩

theorem denoted?_unscaled (h : Pointed text whole fraction v) (negative : Bool) :
    denoted? (signText negative ++ text) = some (signed negative v) := by
  have hnone : readExponent? [] = some 0 := rfl
  simpa using h.denoted?_eq hnone negative

theorem parts_unscaled (h : Pointed text whole fraction v) (negative : Bool) :
    Parts (signText negative ++ text) whole fraction [] := by
  simpa using h.parts negative (.inl rfl)

end Pointed

/-! ## §3 Magnitudes -/

theorem Digits.zeros_append {digits : List Char} (h : Digits digits) (zeros : Nat) :
    Digits (List.replicate zeros '0' ++ digits) where
  ne_nil := List.append_ne_nil_of_right_ne_nil _ h.ne_nil
  isDigit c hc := (List.mem_append.mp hc).elim isDigit_of_mem_replicate (h.isDigit c)

theorem digits_padZeros {digits : List Char} (h : Digits digits) (width : Nat) :
    Digits (padZeros width digits) :=
  h.zeros_append _

theorem ofDigitChars_padZeros (width n : Nat) :
    Nat.ofDigitChars 10 (padZeros width (digitsOf n)) 0 = n := by
  rw [padZeros, ofDigitChars_zeros_append, ofDigitChars_digitsOf]

/-- A magnitude with a given number of places is rounded in the last of them. -/
theorem fixedMagnitude_pointed (r : Ratio) (places : Nat) :
    ∃ whole fraction, fraction.length = places ∧
      Pointed (fixedMagnitude r places) whole fraction
        ((r.scale10 places).round * 10 ^ (-(places : Int))) := by
  unfold fixedMagnitude
  generalize (r.scale10 places).round = n
  have hpadded := digits_padZeros (digits_digitsOf n) (places + 1)
  have hnumber := ofDigitChars_padZeros (places + 1) n
  generalize padZeros (places + 1) (digitsOf n) = digits at hpadded hnumber
  cases places with
  | zero =>
    refine ⟨digits, [], rfl, ?_, hpadded, by simp, ?_⟩
    · show digits ++ [] = digits
      exact List.append_nil digits
    · rw [List.append_nil, hnumber]
      rfl
  | succ k =>
    obtain ⟨whole, fraction, htext, hwhole, hfraction, hlength, hdigits⟩ :=
      positional_negSucc hpadded k
    have hne : fraction ≠ [] := List.ne_nil_of_length_eq_add_one hlength
    refine ⟨whole, fraction, hlength, ?_, hwhole, hfraction, ?_⟩
    · rw [pointText, if_neg hne]
      exact htext
    · rw [hdigits, hnumber, hlength]

/-- A number that is spelled with so many digits is below that power of ten. -/
theorem ofDigitChars_lt {digits : List Char} (h : ∀ c ∈ digits, c.isDigit) :
    Nat.ofDigitChars 10 digits 0 < 10 ^ digits.length := by
  induction digits with
  | nil => decide
  | cons c digits ih =>
    have hdigit : c.toNat - '0'.toNat ≤ 9 := by
      have hc := h c List.mem_cons_self
      simp only [Char.isDigit, ge_iff_le, UInt32.le_iff_toNat_le, Bool.and_eq_true,
        decide_eq_true_eq] at hc
      exact Nat.sub_le_sub_right hc.2 48
    have hrest := ih fun c hc => h c (List.mem_cons_of_mem _ hc)
    rw [Nat.ofDigitChars_cons, Nat.mul_zero, Nat.zero_add, Nat.ofDigitChars_eq_ofDigitChars_zero,
      List.length_cons, Nat.pow_succ]
    calc 10 ^ digits.length * (c.toNat - '0'.toNat) + Nat.ofDigitChars 10 digits 0
        < 10 ^ digits.length * (c.toNat - '0'.toNat) + 10 ^ digits.length := by gcongr
      _ ≤ 10 ^ digits.length * 9 + 10 ^ digits.length := by gcongr
      _ = 10 ^ digits.length * 10 := by ring

/-- Significant digits are written with the point after the first, which is not a zero if there are
as many of them. -/
theorem mantissaText_pointed {n places : Nat} (h : n < 10 ^ (places + 1)) :
    ∃ first fraction, (10 ^ places ≤ n → first ≠ '0') ∧ fraction.length = places ∧
      Pointed (mantissaText n places) [first] fraction (n * 10 ^ (-(places : Int))) := by
  have hlength : (padZeros (places + 1) (digitsOf n)).length = places + 1 := by
    have hle : (digitsOf n).length ≤ places + 1 :=
      (Nat.length_toDigits_le_iff (by decide) (Nat.succ_pos _)).mpr h
    rw [padZeros, List.length_append, List.length_replicate]
    omega
  have hdigits := (digits_padZeros (digits_digitsOf n) (places + 1)).isDigit
  have hnumber := ofDigitChars_padZeros (places + 1) n
  unfold mantissaText
  generalize padZeros (places + 1) (digitsOf n) = digits at hlength hdigits hnumber
  obtain ⟨first, fraction, rfl⟩ := List.exists_cons_of_length_eq_add_one hlength
  have hplaces : fraction.length = places := Nat.succ.inj hlength
  have hfraction : ∀ c ∈ fraction, c.isDigit := fun c hc => hdigits c (List.mem_cons_of_mem _ hc)
  refine ⟨first, fraction, ?_, hplaces, ?_, ⟨List.cons_ne_nil _ _, ?_⟩, hfraction, ?_⟩
  · rintro hlow rfl
    have hlt := ofDigitChars_lt hfraction
    have hzero : Nat.ofDigitChars 10 ('0' :: fraction) 0 = Nat.ofDigitChars 10 fraction 0 :=
      ofDigitChars_zeros_append 1 fraction
    rw [hplaces] at hlt
    omega
  · cases fraction <;> rfl
  · intro c hc
    obtain rfl := List.mem_singleton.mp hc
    exact hdigits c List.mem_cons_self
  · rw [List.singleton_append, hnumber, hplaces]

/-! ## §4 Zeros at the end -/

theorem stripZeros_eq (text : List Char) : stripZeros text =
    if '.' ∈ text then (text.rdropWhile (· == '0')).rdropWhile (· == '.') else text := by
  unfold stripZeros List.rdropWhile
  rw [List.reverse_reverse]

theorem rdropWhile_eq_self {p : Char → Bool} {cs : List Char} (h : ∀ c ∈ cs.getLast?, ¬ p c) :
    cs.rdropWhile p = cs :=
  List.rdropWhile_eq_self_iff.mpr fun hne => h _ (List.getLast_mem_getLast? hne)

theorem rdropWhile_append_replicate {p : Char → Bool} {c : Char} (h : p c) (cs : List Char)
    (count : Nat) : (cs ++ List.replicate count c).rdropWhile p = cs.rdropWhile p := by
  have hall : ∀ c' ∈ List.replicate count c, p c' := fun c' hc' => by
    rw [List.eq_of_mem_replicate hc']
    exact h
  rw [List.rdropWhile, List.reverse_append, List.reverse_replicate,
    List.dropWhile_append_of_pos hall, List.rdropWhile]

/-- Every text is one that does not end in a zero, with zeros after it. -/
theorem exists_append_zeros (cs : List Char) :
    ∃ kept zeros, cs = kept ++ List.replicate zeros '0' ∧ kept.getLast? ≠ some '0' := by
  refine ⟨cs.rdropWhile (· == '0'), (cs.rtakeWhile (· == '0')).length, ?_, fun h => ?_⟩
  · have hzeros : ∀ c ∈ cs.rtakeWhile (· == '0'), c = '0' := by
      intro c hc
      have hzero := List.mem_rtakeWhile_imp hc
      exact eq_of_beq hzero
    rw [← List.eq_replicate_of_mem hzeros, List.rdropWhile_append_rtakeWhile]
  · obtain ⟨hne, hlast⟩ := List.mem_getLast?_eq_getLast h
    have hnot := List.rdropWhile_last_not (· == '0') cs hne
    rw [← hlast] at hnot
    exact hnot rfl

/-- Digits with a point lose the zeros at the end, and the point with the last of its digits. -/
theorem stripZeros_point (hwhole : Digits whole) (hfraction : ∀ c ∈ fraction, c.isDigit)
    (hlast : fraction.getLast? ≠ some '0') (zeros : Nat) :
    stripZeros (whole ++ '.' :: (fraction ++ List.replicate zeros '0')) =
      pointText whole fraction := by
  have hsplit : whole ++ '.' :: (fraction ++ List.replicate zeros '0') =
      (whole ++ '.' :: fraction) ++ List.replicate zeros '0' := by simp
  rw [stripZeros_eq, if_pos (by simp), hsplit, rdropWhile_append_replicate rfl]
  obtain rfl | ⟨front, last, rfl⟩ := fraction.eq_nil_or_concat'
  · rw [List.rdropWhile_concat_neg _ _ _ (by decide), List.rdropWhile_concat_pos _ _ _ rfl]
    refine rdropWhile_eq_self fun c hc hpoint => ?_
    have hdigit := hwhole.isDigit c (List.mem_of_getLast? hc)
    rw [eq_of_beq hpoint] at hdigit
    cases hdigit
  · have hdigit : last.isDigit := hfraction last (by simp)
    have hzero : ¬ (last == '0') = true := by simpa using hlast
    have hpoint : ¬ (last == '.') = true := by
      intro heq
      rw [eq_of_beq heq] at hdigit
      cases hdigit
    rw [← List.cons_append, ← List.append_assoc, List.rdropWhile_concat_neg (· == '0') _ _ hzero,
      List.rdropWhile_concat_neg (· == '.') _ _ hpoint, pointText, if_neg (by simp)]
    simp

/-- Nothing is lost with the zeros at the end of a fraction. -/
theorem Pointed.stripZeros (h : Pointed text whole fraction v) :
    ∃ kept, kept.getLast? ≠ some '0' ∧ Pointed (Number.stripZeros text) whole kept v := by
  obtain ⟨rfl, hwhole, hfraction, hvalue⟩ := h
  by_cases hnil : fraction = []
  · subst hnil
    refine ⟨[], by simp, ?_, hwhole, hfraction, hvalue⟩
    refine (stripZeros_eq whole).trans (if_neg fun hpoint => ?_)
    exact absurd (hwhole.isDigit _ hpoint) (by decide)
  · obtain ⟨kept, zeros, rfl, hlast⟩ := exists_append_zeros fraction
    have hkept : ∀ c ∈ kept, c.isDigit := fun c hc => hfraction c (List.mem_append_left _ hc)
    refine ⟨kept, hlast, ?_, hwhole, hkept, ?_⟩
    · rw [pointText, if_neg hnil]
      exact stripZeros_point hwhole hkept hlast zeros
    · rw [← hvalue, ← List.append_assoc, Nat.ofDigitChars_append (l := whole ++ kept),
        Nat.ofDigitChars_replicate_zero, List.length_append, List.length_replicate, Nat.cast_mul,
        Nat.cast_pow, Nat.cast_ofNat, Nat.cast_add, neg_add, zpow_add₀ (by norm_num),
        zpow_neg _ (zeros : Int), zpow_natCast]
      field_simp

/-! ## §5 Exponents -/

/-- An exponent with a sign and at least two digits is read back. -/
theorem readExponent?_signed (e : Int) :
    readExponent? ('e' :: ExponentStyle.signed.write e) = some e := by
  have hread : readNat? (padZeros 2 (digitsOf e.natAbs)) = some e.natAbs :=
    readNat?_eq_some_iff.mpr
      ⟨digits_padZeros (digits_digitsOf _) 2, (ofDigitChars_padZeros 2 _).symm⟩
  have hminus (digits : List Char) : takeSign ('-' :: digits) = (true, digits) := rfl
  have hplus (digits : List Char) : takeSign ('+' :: digits) = (false, digits) := rfl
  rw [readExponent?, if_pos (.inl rfl), readInt?, ExponentStyle.write]
  rcases lt_or_ge e 0 with hneg | hpos
  · rw [if_pos hneg, hminus]
    dsimp only
    rw [hread]
    show some (-(e.natAbs : Int)) = some e
    rw [Int.ofNat_natAbs_of_nonpos hneg.le, neg_neg]
  · rw [if_neg (not_lt.mpr hpos), hplus]
    dsimp only
    rw [hread]
    show some (e.natAbs : Int) = some e
    rw [Int.natAbs_of_nonneg hpos]

theorem spellsExponent_signed (e : Int) : SpellsExponent ('e' :: ExponentStyle.signed.write e) := by
  refine ⟨_, _, rfl, ?_, ?_, (digits_padZeros (digits_digitsOf _) 2).isDigit⟩
  · split
    · exact .inr rfl
    · exact .inl rfl
  · rw [padZeros, List.length_append, List.length_replicate]
    omega

end SceneScript.Number
