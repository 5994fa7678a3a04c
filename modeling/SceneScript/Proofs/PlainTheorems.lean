/-
SceneScript.Proofs.PlainTheorems — the text of a double, and what it is read as.

The text of a finite double is its sign and a decimal, `numeral`, that reads back as
the same double, bit for bit, when it is read as a real number (`toFloat_numeral`).
But a text without a point is read as a whole number of sixty-four bits. The text of
a double has no point exactly when its decimal is whole, and then the whole number is
the same number (`ofInt_signed`), as long as there are such whole numbers. They end
at `2 ^ 63`: the decimals of doubles below are below, and those of the others are
beyond (`numeral_whole`), the one of `2 ^ 63` itself included, because it is rounded
to fewer digits.

So the text of a double is read as the same number (`numberIn_plain`) or, from
`2 ^ 63` on in either direction, not at all (`numberIn_plain_large`).
-/
import SceneScript.Proofs.NumeralTheorems
import Mathlib

namespace SceneScript

namespace Number

/-! ## §1 Bits of doubles -/

variable {x : Float} {negative : Bool} {significand : Nat} {exponent : Int}

/-- **A double is put together again** from its sign and the place of its magnitude. -/
theorem ofSignedBits_place (h : Binary.ofFloat x = .finite negative significand exponent) :
    ofSignedBits negative (place significand exponent) = x := by
  have hbits := (ofBits_finite h x.toBits.toNat_lt).2
  have hsum : (if negative then signWeight + place significand exponent
      else place significand exponent) = x.toBits.toNat := by
    rw [hbits]
    cases negative
    · exact (Nat.zero_add _).symm
    · rfl
  rw [ofSignedBits, hsum, UInt64.ofNat_toNat, Float.ofBits_toBits]

theorem canonical_of_finite (h : Binary.ofFloat x = .finite negative significand exponent) :
    Canonical significand exponent :=
  (ofBits_finite h x.toBits.toNat_lt).1

theorem isFinite_iff : isFinite x = true ↔ ∃ negative significand exponent,
    Binary.ofFloat x = .finite negative significand exponent := by
  unfold isFinite
  split
  · next heq => simp [heq]
  · next hnot =>
    refine ⟨fun h => Bool.noConfusion h, ?_⟩
    rintro ⟨negative, significand, exponent, heq⟩
    exact absurd heq (hnot negative significand exponent)

/-- What is left of a finite double without its fraction. -/
theorem exists_truncate? (h : Binary.ofFloat x = .finite negative significand exponent) :
    ∃ whole : Int, truncate? x = some whole ∧
      (magnitude significand exponent).floor = whole.natAbs := by
  unfold truncate?
  rw [h]
  refine ⟨_, rfl, ?_⟩
  cases negative <;> simp

/-- What is finite is a number, and so it is equal to itself. -/
theorem beq_self_of_finite (h : Binary.ofFloat x = .finite negative significand exponent) :
    (x == x) = true := by
  rw [Float.beq_self_iff]
  rintro rfl
  have hnan : Binary.ofFloat Float.nan = .nan := by decide
  rw [hnan] at h
  cases h

/-- Zeros of either sign are equal. -/
theorem zero_beq_zero (negative : Bool) :
    (ofSignedBits false 0 == ofSignedBits negative 0) = true := by
  cases negative <;> decide

/-- A whole number of either sign is the double of its magnitude and sign, except that zero has
only one sign. -/
theorem ofInt_signed (negative : Bool) {n : Nat}
    (h : ofSignedBits negative (nearestBits (Ratio.ofNat n)) = x) (hx : (x == x) = true) :
    (ofInt (if negative then -(n : Int) else n) == x) = true := by
  rcases Nat.eq_zero_or_pos n with rfl | hpos
  · have hzero : ofInt (if negative then -((0 : Nat) : Int) else (0 : Nat)) =
        ofSignedBits false 0 := by
      cases negative <;> rfl
    have hbits : nearestBits (Ratio.ofNat 0) = 0 := nearestBits_of_zero rfl
    rw [hzero, ← h, hbits]
    exact zero_beq_zero negative
  · have hsame : ofInt (if negative then -(n : Int) else n) = x := by
      rw [← h]
      cases negative with
      | false =>
        have hsign : ¬ (n : Int) < 0 := by omega
        simp [ofInt, hsign]
      | true => simp [ofInt, hpos]
    rw [hsame]
    exact hx

/-! ## §2 The decimal that is written -/

/-- The decimal in the text of a magnitude. -/
def numeral (significand : Nat) (exponent : Int) : Decimal :=
  if significand = 0 then ⟨0, 0⟩ else shortest significand exponent

theorem plain_eq (h : Binary.ofFloat x = .finite negative significand exponent) :
    plain x = String.ofList (signText negative ++
      positional (digitsOf (numeral significand exponent).digits)
        (numeral significand exponent).exponent) := by
  unfold plain
  rw [h]
  dsimp only
  unfold plainFinite numeral
  split <;> rfl

theorem bits_numeral (h : Canonical significand exponent) :
    (numeral significand exponent).bits = place significand exponent := by
  rw [← h.nearestBits_magnitude]
  unfold numeral
  split
  · next hzero =>
    subst hzero
    rw [nearestBits_of_zero (num_magnitude_zero exponent)]
    rfl
  · exact bits_shortest significand exponent

/-- **The text of a double is a decimal that reads back** as the double. -/
theorem toFloat_numeral (h : Binary.ofFloat x = .finite negative significand exponent) :
    (numeral significand exponent).toFloat negative = x := by
  rw [Decimal.toFloat, bits_numeral (canonical_of_finite h)]
  exact ofSignedBits_place h

/-! ## §3 Whole decimals -/

/-- The value of a whole decimal. -/
theorem value_of_whole {d : Decimal} {zeros : Nat} (h : d.exponent = .ofNat zeros) :
    (Ratio.ofNat (d.digits * 10 ^ zeros)).value = d.ratio.value := by
  rw [Ratio.value_ofNat, Decimal.value_ratio, h]
  simp

/-- The first magnitude beyond the integers of sixty-four bits is `2 ^ 52 · 2 ^ 11`. -/
theorem canonical_limit : Canonical exponentWeight 11 :=
  ⟨by decide, by decide, by decide, .inr le_rfl⟩

theorem nearestBits_limit : nearestBits (Ratio.ofNat (2 ^ 63)) = place exponentWeight 11 := by
  rw [← canonical_limit.nearestBits_magnitude]
  refine nearestBits_congr ?_
  rw [Ratio.value_ofNat, value_magnitude]
  norm_num [exponentWeight]

theorem limit_le_iff (h : Canonical significand exponent) :
    place exponentWeight 11 ≤ place significand exponent ↔
      2 ^ 63 ≤ (magnitude significand exponent).floor := by
  have hlimit : ((exponentWeight : Nat) : ℚ) * 2 ^ (11 : Int) = ((2 ^ 63 : Nat) : ℚ) := by
    norm_num [exponentWeight]
  rw [canonical_limit.place_le_iff h, hlimit, Ratio.le_floor_iff, value_magnitude]

/-- What is written for the limit lies beyond it. -/
theorem shortest_limit : shortest exponentWeight 11 = ⟨9223372036854776, 3⟩ := by
  decide

/-- The whole decimals below the limit are written for the doubles below it, and those written for
the others lie beyond it. -/
theorem numeral_whole (h : Canonical significand exponent) {zeros : Nat}
    (hzeros : (numeral significand exponent).exponent = .ofNat zeros) :
    ((magnitude significand exponent).floor < 2 ^ 63 →
      (numeral significand exponent).digits * 10 ^ zeros < 2 ^ 63) ∧
    (2 ^ 63 ≤ (magnitude significand exponent).floor →
      2 ^ 63 < (numeral significand exponent).digits * 10 ^ zeros) := by
  have hread : nearestBits (Ratio.ofNat ((numeral significand exponent).digits * 10 ^ zeros)) =
      place significand exponent := by
    rw [← bits_numeral h, Decimal.bits_eq]
    exact nearestBits_congr (value_of_whole hzeros)
  have hmono {m n : Nat} (hle : m ≤ n) :
      nearestBits (Ratio.ofNat m) ≤ nearestBits (Ratio.ofNat n) := by
    refine nearestBits_mono ?_
    rw [Ratio.value_ofNat, Ratio.value_ofNat]
    exact_mod_cast hle
  constructor
  · intro hsmall
    by_contra hlarge
    have hplace := hmono (not_lt.mp hlarge)
    rw [nearestBits_limit, hread, limit_le_iff h] at hplace
    omega
  · intro hlarge
    by_contra hsmall
    have hplace := hmono (not_lt.mp hsmall)
    rw [nearestBits_limit, hread] at hplace
    -- The double is the limit itself, and what is written for that is known.
    obtain ⟨rfl, rfl⟩ :=
      canonical_limit.place_inj h (((limit_le_iff h).mpr hlarge).antisymm hplace)
    have hnumeral : numeral exponentWeight 11 = ⟨9223372036854776, 3⟩ := by
      rw [numeral, if_neg (by decide), shortest_limit]
    rw [hnumeral] at hzeros hsmall
    obtain rfl : zeros = 3 := (Int.ofNat.inj hzeros).symm
    exact absurd hsmall (by decide)

/-- What is written for a double beyond the limit is whole. -/
theorem numeral_exponent_nonneg (h : Canonical significand exponent)
    (hlarge : 2 ^ 63 ≤ (magnitude significand exponent).floor) :
    0 ≤ (numeral significand exponent).exponent := by
  have hvalue : ((2 ^ 63 : Nat) : ℚ) ≤ (magnitude significand exponent).value :=
    Ratio.le_floor_iff.mp hlarge
  have hexponent : 0 ≤ exponent := by
    by_contra hneg
    have hone : (2 : ℚ) ^ exponent ≤ 1 := zpow_le_one_of_nonpos₀ one_le_two (by omega)
    have hlt : (significand : ℚ) < 2 ^ 53 := by exact_mod_cast h.cast_lt
    have hle : (significand : ℚ) * 2 ^ exponent ≤ significand :=
      mul_le_of_le_one_right (Nat.cast_nonneg _) hone
    rw [value_magnitude] at hvalue
    norm_num at hvalue
    linarith
  unfold numeral
  split
  · exact le_rfl
  · refine exponent_shortest_nonneg hexponent (le_trans ?_ hvalue)
    norm_num

end Number

namespace Standard

open Number

variable {x : Float} {negative : Bool} {significand : Nat} {exponent : Int}

/-! ## §4 Reading the text of a number -/

theorem toNumber?_ofInt {n : Int} (hlow : -2 ^ 63 ≤ n) (hhigh : n < 2 ^ 63) :
    (Payload.integer (Int64.ofInt n)).toNumber? = some (ofInt n) := by
  show some (ofInt (Int64.ofInt n).toInt) = _
  rw [Int64.toInt_ofInt_of_le hlow hhigh]

/-- Below the limit the text of a double is read as a payload that is the same number. -/
theorem numberIn_plain (h : Binary.ofFloat x = .finite negative significand exponent)
    (hsmall : (magnitude significand exponent).floor < 2 ^ 63) :
    ∃ p y, numberIn (plain x) = .ok p ∧ p.toNumber? = some y ∧ (y == x) = true := by
  have hread := toFloat_numeral h
  rw [plain_eq h]
  cases hexponent : (numeral significand exponent).exponent with
  | negSucc k =>
    rw [numberIn_real]
    refine ⟨_, _, rfl, rfl, ?_⟩
    have hdecimal : (⟨(numeral significand exponent).digits, .negSucc k⟩ : Decimal) =
        numeral significand exponent := by rw [← hexponent]
    rw [hdecimal, hread]
    exact beq_self_of_finite h
  | ofNat zeros =>
    have hlt := (numeral_whole (canonical_of_finite h) hexponent).1 hsmall
    have hbits : ofSignedBits negative
        (nearestBits (Ratio.ofNat ((numeral significand exponent).digits * 10 ^ zeros))) = x := by
      rw [nearestBits_congr (value_of_whole hexponent), ← Decimal.bits_eq]
      exact hread
    have hsame := ofInt_signed negative hbits (beq_self_of_finite h)
    have hwhole := numberIn_whole negative (numeral significand exponent).digits zeros
    generalize (numeral significand exponent).digits * 10 ^ zeros = n at hlt hsame hwhole
    have hlow : -2 ^ 63 ≤ if negative then -(n : Int) else n := by
      split <;> omega
    have hhigh : (if negative then -(n : Int) else n) < 2 ^ 63 := by
      split <;> omega
    refine ⟨_, _, hwhole.trans (if_pos ⟨hlow, ?_⟩), toNumber?_ofInt hlow hhigh, hsame⟩
    have hmax : Int64.maxValue.toInt = 2 ^ 63 - 1 := rfl
    omega

/-- Beyond the limit the text of a double is no integer of sixty-four bits, and it has no point. -/
theorem numberIn_plain_large (h : Binary.ofFloat x = .finite negative significand exponent)
    (hlarge : 2 ^ 63 ≤ (magnitude significand exponent).floor) :
    numberIn (plain x) = .error (.badWhole (plain x)) := by
  have hcanonical := canonical_of_finite h
  obtain ⟨zeros, hzeros⟩ :=
    Int.eq_ofNat_of_zero_le (numeral_exponent_nonneg hcanonical hlarge)
  have hlt := (numeral_whole hcanonical hzeros).2 hlarge
  have hwhole := numberIn_whole negative (numeral significand exponent).digits zeros
  rw [plain_eq h, hzeros]
  refine hwhole.trans (if_neg ?_)
  generalize (numeral significand exponent).digits * 10 ^ zeros = n at hlt
  have hmin : Int64.minValue.toInt = -2 ^ 63 := rfl
  have hmax : Int64.maxValue.toInt = 2 ^ 63 - 1 := rfl
  rintro ⟨hlow, hhigh⟩
  cases negative
  · simp only [Bool.false_eq_true, if_false] at hhigh
    omega
  · simp only [if_true] at hlow
    omega

end Standard

end SceneScript
