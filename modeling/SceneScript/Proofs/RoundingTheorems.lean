/-
SceneScript.Proofs.RoundingTheorems — rounding to decimal places and to significant digits.

`RoundedAt` says what it is for a rational to be rounded half to even in a decimal
place, and `RoundedTo` what it is to be rounded to so many significant digits: in
the place that the number itself has its last digit in. Both are for numbers of
either sign; `roundedAt_of_rounds` comes to them from the rounding of magnitudes.

`Ratio.log10` finds the first digit of a magnitude (`Ratio.log10_spec`). Rounding
may carry into a new decade, and then the digits are written one place higher.
`significant_spec` says that nothing is lost by that: the number is the one that
was rounded, and to have rounded in the higher place at once would have given it,
too. The second is what lets the two forms of a number agree.
-/
import SceneScript.Number.Text
import SceneScript.Proofs.DecimalTheorems

namespace SceneScript.Number

/-! ## §1 Rounded numbers -/

/-- The other number is the nearest multiple of `10 ^ unit`, an even one if two are nearest. -/
def RoundedAt (unit : Int) (q r : ℚ) : Prop :=
  ∃ n : Int, r = n * 10 ^ unit ∧ |q - r| ≤ 10 ^ unit / 2 ∧ (|q - r| = 10 ^ unit / 2 → Even n)

/-- The other number is the nearest with so many digits, counted from the first digit of the
number that is rounded. -/
def RoundedTo (count : Nat) (q r : ℚ) : Prop :=
  ∃ top : Int, 10 ^ top ≤ |q| ∧ |q| < 10 ^ (top + 1) ∧ RoundedAt (top + 1 - count) q r

/-- There is one rounded number: of two that are nearest, only one is even. -/
theorem RoundedAt.unique {unit : Int} {q r r' : ℚ} (h : RoundedAt unit q r)
    (h' : RoundedAt unit q r') : r = r' := by
  obtain ⟨n, rfl, hnear, htie⟩ := h
  obtain ⟨n', rfl, hnear', htie'⟩ := h'
  have hunit : (0 : ℚ) < 10 ^ unit := by positivity
  by_contra hne
  have hdiffer : n ≠ n' := fun heq => hne (by rw [heq])
  have hsteps : (n : ℚ) * 10 ^ unit - n' * 10 ^ unit = ((n - n' : Int) : ℚ) * 10 ^ unit := by
    push_cast
    ring
  have hsum : |((n - n' : Int) : ℚ)| * 10 ^ unit ≤
      |q - n * 10 ^ unit| + |q - n' * 10 ^ unit| := by
    rw [← abs_of_pos hunit, ← abs_mul, abs_of_pos hunit, ← hsteps, add_comm]
    calc |(n : ℚ) * 10 ^ unit - n' * 10 ^ unit|
        = |(q - n' * 10 ^ unit) - (q - n * 10 ^ unit)| := by ring_nf
      _ ≤ |q - n' * 10 ^ unit| + |q - n * 10 ^ unit| := abs_sub _ _
  have hone : (1 : ℚ) ≤ |((n - n' : Int) : ℚ)| := by
    exact_mod_cast Int.one_le_abs (sub_ne_zero.mpr hdiffer)
  -- They are one step apart, both at a half, and so both even.
  have hstep : (10 : ℚ) ^ unit ≤ |((n - n' : Int) : ℚ)| * 10 ^ unit :=
    le_mul_of_one_le_left hunit.le hone
  have heven := htie (by linarith)
  have heven' := htie' (by linarith)
  have hapart : |((n - n' : Int) : ℚ)| ≤ 1 := by
    refine le_of_mul_le_mul_right ?_ hunit
    linarith
  have hapart' : |n - n'| ≤ 1 := by exact_mod_cast hapart
  have hsmall := abs_le.mp hapart'
  obtain ⟨k, rfl⟩ := heven
  obtain ⟨k', rfl⟩ := heven'
  omega

/-- There is one place in which a number has its first digit. -/
theorem decade_unique {v : ℚ} {top top' : Int} (hlow : 10 ^ top ≤ v) (hhigh : v < 10 ^ (top + 1))
    (hlow' : 10 ^ top' ≤ v) (hhigh' : v < 10 ^ (top' + 1)) : top = top' := by
  have hle : top < top' + 1 :=
    (zpow_lt_zpow_iff_right₀ (by norm_num)).mp (hlow.trans_lt hhigh')
  have hge : top' < top + 1 :=
    (zpow_lt_zpow_iff_right₀ (by norm_num)).mp (hlow'.trans_lt hhigh)
  omega

theorem RoundedTo.unique {count : Nat} {q r r' : ℚ} (h : RoundedTo count q r)
    (h' : RoundedTo count q r') : r = r' := by
  obtain ⟨top, hlow, hhigh, hround⟩ := h
  obtain ⟨top', hlow', hhigh', hround'⟩ := h'
  obtain rfl : top = top' := decade_unique hlow hhigh hlow' hhigh'
  exact hround.unique hround'

/-- A magnitude with a sign. -/
def signed (negative : Bool) (v : ℚ) : ℚ := if negative then -v else v

@[simp] theorem abs_signed (negative : Bool) (v : ℚ) : |signed negative v| = |v| := by
  cases negative <;> simp [signed]

theorem signed_sub (negative : Bool) (v w : ℚ) :
    signed negative v - signed negative w = signed negative (v - w) := by
  cases negative
  · rfl
  · simp only [signed, if_true]
    ring

/-- Rounding a magnitude in a decimal place rounds the number with its sign. -/
theorem roundedAt_of_rounds {v : ℚ} {n : Nat} {unit : Int} (negative : Bool)
    (h : Rounds (v * 10 ^ (-unit)) n) :
    RoundedAt unit (signed negative v) (signed negative (n * 10 ^ unit)) := by
  have hunit : (0 : ℚ) < 10 ^ unit := by positivity
  have hdiff : v - n * 10 ^ unit = (v * 10 ^ (-unit) - n) * 10 ^ unit := by
    rw [sub_mul, mul_assoc, ← zpow_add₀ (by norm_num), neg_add_cancel, zpow_zero, mul_one]
  have habs : |signed negative v - signed negative (n * 10 ^ unit)| =
      |v * 10 ^ (-unit) - n| * 10 ^ unit := by
    rw [signed_sub, abs_signed, hdiff, abs_mul, abs_of_pos hunit]
  obtain ⟨hnear, htie⟩ := h
  refine ⟨if negative then -(n : Int) else n, ?_, ?_, fun heq => ?_⟩
  · cases negative <;> simp [signed]
  · rw [habs]
    calc |v * 10 ^ (-unit) - n| * 10 ^ unit
        ≤ 1 / 2 * 10 ^ unit := by gcongr
      _ = 10 ^ unit / 2 := by ring
  · have hhalf : |v * 10 ^ (-unit) - n| = 1 / 2 := by
      rw [habs] at heq
      have hscaled : |v * 10 ^ (-unit) - n| * 10 ^ unit = 1 / 2 * 10 ^ unit := by linarith
      exact mul_right_cancel₀ hunit.ne' hscaled
    have heven : Even (n : Int) := by exact_mod_cast htie hhalf
    cases negative
    · exact heven
    · exact heven.neg

/-! ## §2 The first digit -/

/-- A positive quotient lies between two neighbouring powers of ten. -/
theorem Ratio.log10_spec {r : Ratio} (h : 0 < r.num) :
    (10 : ℚ) ^ r.log10 ≤ r.value ∧ r.value < 10 ^ (r.log10 + 1) := by
  have hden := r.den_cast_pos
  have hnum : (0 : ℚ) < r.num := Nat.cast_pos.mpr h
  unfold Ratio.log10
  split
  · next hle =>
    -- From one on, the whole part has the same first place.
    have hpos : 0 < r.num / r.den := Nat.div_pos hle r.den_pos
    obtain ⟨hlow, hhigh⟩ := Number.log10_spec hpos
    generalize Number.log10 (r.num / r.den) = k at hlow hhigh
    have hbelow : 10 ^ k * r.den ≤ r.num := (Nat.le_div_iff_mul_le r.den_pos).mp hlow
    have habove : r.num < 10 ^ (k + 1) * r.den := (Nat.div_lt_iff_lt_mul r.den_pos).mp hhigh
    rw [value, le_div_iff₀ hden, div_lt_iff₀ hden]
    constructor
    · rw [zpow_natCast]
      exact_mod_cast hbelow
    · have hcast : ((10 : ℚ) ^ ((k : Int) + 1)) = 10 ^ (k + 1) := by
        rw [← zpow_natCast, Nat.cast_succ]
      rw [hcast]
      exact_mod_cast habove
  · next hlt =>
    -- Below one, so does the whole part of the reciprocal of what is just above.
    have hpos : 0 < (r.den - 1) / r.num := Nat.div_pos (by omega) h
    obtain ⟨hlow, hhigh⟩ := Number.log10_spec hpos
    generalize Number.log10 ((r.den - 1) / r.num) = k at hlow hhigh
    have hbelow : 10 ^ k * r.num < r.den := by
      have := (Nat.le_div_iff_mul_le h).mp hlow
      omega
    have habove : r.den ≤ 10 ^ (k + 1) * r.num := by
      have := (Nat.div_lt_iff_lt_mul h).mp hhigh
      omega
    have hpower : ((10 : ℚ) ^ (-((k : Int) + 1))) = (10 ^ (k + 1))⁻¹ := by
      rw [zpow_neg, ← zpow_natCast, Nat.cast_succ]
    have hpower' : ((10 : ℚ) ^ (-((k : Int) + 1) + 1)) = (10 ^ k)⁻¹ := by
      rw [neg_add, add_assoc, neg_add_cancel, add_zero, zpow_neg, zpow_natCast]
    rw [hpower, hpower', value, le_div_iff₀ hden, div_lt_iff₀ hden]
    constructor
    · rw [inv_mul_le_iff₀ (by positivity)]
      exact_mod_cast habove
    · rw [lt_inv_mul_iff₀ (by positivity)]
      exact_mod_cast hbelow

/-! ## §3 Significant digits -/

/-- The digits, read with their last place at `top - places`, are a magnitude in `places + 1`
significant digits. -/
structure Significant (r : Ratio) (places : Nat) (digits : Nat) (top : Int) : Prop where
  low : 10 ^ places ≤ digits
  high : digits < 10 ^ (places + 1)
  /-- They are what comes of rounding in the last place that the magnitude itself has. -/
  nearest : ∃ n, Rounds (r.value * 10 ^ ((places : Int) - r.log10)) n ∧
    (digits : ℚ) * 10 ^ (top - places) = n * 10 ^ (r.log10 - places)
  /-- They are also what comes of rounding in their own last place. -/
  stable : Rounds (r.value * 10 ^ ((places : Int) - top)) digits

/-- What is nearest to a tenth of a number that rounds up to ten times as much. -/
theorem rounds_tenth {y : ℚ} {n : Nat} (h : Rounds y (10 * n)) (hle : y ≤ 10 * n) :
    Rounds (y / 10) n := by
  obtain ⟨hnear, -⟩ := h
  have hbelow := (abs_le.mp hnear).1
  push_cast at hbelow
  have hdiff : y / 10 - n ≤ 0 := by linarith
  rw [Rounds, abs_of_nonpos hdiff]
  refine ⟨by linarith, fun heq => ?_⟩
  linarith

/-- **Significant digits** are right whether or not rounding carries into a new decade. -/
theorem significant_spec {r : Ratio} (h : 0 < r.num) (places : Nat) :
    Significant r places (significant r places).1 (significant r places).2 := by
  obtain ⟨hlow, hhigh⟩ := Ratio.log10_spec h
  have hten : (10 : ℚ) ≠ 0 := by norm_num
  have hround := (r.scale10 ((places : Int) - r.log10)).rounds_round
  rw [Ratio.value_scale10] at hround
  have hfirst : ((10 ^ places : Nat) : ℚ) ≤ r.value * 10 ^ ((places : Int) - r.log10) := by
    calc ((10 ^ places : Nat) : ℚ)
        = 10 ^ r.log10 * 10 ^ ((places : Int) - r.log10) := by
          rw [← zpow_add₀ hten, add_sub_cancel, zpow_natCast]
          push_cast
          rfl
      _ ≤ r.value * 10 ^ ((places : Int) - r.log10) := by gcongr
  have hbeyond : r.value * 10 ^ ((places : Int) - r.log10) ≤ ((10 ^ (places + 1) : Nat) : ℚ) := by
    calc r.value * 10 ^ ((places : Int) - r.log10)
        ≤ 10 ^ (r.log10 + 1) * 10 ^ ((places : Int) - r.log10) := by gcongr
      _ = ((10 ^ (places + 1) : Nat) : ℚ) := by
          rw [← zpow_add₀ hten, show r.log10 + 1 + ((places : Int) - r.log10) = (places + 1 : Nat) by
            push_cast; ring, zpow_natCast]
          push_cast
          rfl
  have hlower := (rounds_natCast (10 ^ places)).mono hround hfirst
  have hupper := hround.mono (rounds_natCast (10 ^ (places + 1))) hbeyond
  unfold significant
  rw [if_neg h.ne']
  dsimp only
  generalize (r.scale10 ((places : Int) - r.log10)).round = n at hround hlower hupper
  simp only [Nat.pow_eq]
  split
  · next hcarry =>
    subst hcarry
    refine ⟨le_rfl, Nat.pow_lt_pow_right (by decide) (Nat.lt_succ_self _), ⟨_, hround, ?_⟩, ?_⟩
    · push_cast
      rw [← zpow_natCast, ← zpow_natCast, ← zpow_add₀ hten, ← zpow_add₀ hten]
      congr 1
      push_cast
      ring
    · have hstep : r.value * 10 ^ ((places : Int) - (r.log10 + 1)) =
          r.value * 10 ^ ((places : Int) - r.log10) / 10 := by
        rw [← sub_sub, zpow_sub_one₀ hten]
        ring
      rw [hstep]
      rw [pow_succ'] at hround hbeyond
      refine rounds_tenth hround ?_
      exact_mod_cast hbeyond
  · next hkept =>
    exact ⟨hlower, lt_of_le_of_ne hupper hkept, ⟨n, hround, rfl⟩, hround⟩

/-- Nine and a half in one digit carries, and so is written one place higher. -/
example : significant ⟨19, 2, by decide⟩ 0 = (1, 1) := by decide

namespace Significant

variable {r : Ratio} {places digits : Nat} {top : Int}

theorem pos (h : Significant r places digits top) : 0 < digits :=
  (Nat.pow_pos (by decide)).trans_le h.low

/-- With either sign, the digits are the number rounded to so many significant digits. -/
theorem roundedTo (h : Significant r places digits top) (hpos : 0 < r.num) (negative : Bool) :
    RoundedTo (places + 1) (signed negative r.value)
      (signed negative (digits * 10 ^ (top - places))) := by
  obtain ⟨hlow, hhigh⟩ := Ratio.log10_spec hpos
  obtain ⟨n, hround, heq⟩ := h.nearest
  refine ⟨r.log10, ?_, ?_, ?_⟩
  · rw [abs_signed, abs_of_nonneg r.value_nonneg]
    exact hlow
  · rw [abs_signed, abs_of_nonneg r.value_nonneg]
    exact hhigh
  · have hunit : r.log10 + 1 - ((places + 1 : Nat) : Int) = r.log10 - places := by omega
    rw [hunit, heq]
    refine roundedAt_of_rounds negative ?_
    rw [neg_sub]
    exact hround

/-- The exponent is the place of the first digit of what is written. -/
theorem top_spec (h : Significant r places digits top) :
    (10 : ℚ) ^ top ≤ digits * 10 ^ (top - places) ∧
      (digits : ℚ) * 10 ^ (top - places) < 10 ^ (top + 1) := by
  have hten : (10 : ℚ) ≠ 0 := by norm_num
  have hunit : (0 : ℚ) < 10 ^ (top - places) := by positivity
  have hlow : ((10 ^ places : Nat) : ℚ) ≤ digits := Nat.cast_le.mpr h.low
  have hhigh : (digits : ℚ) < ((10 ^ (places + 1) : Nat) : ℚ) := Nat.cast_lt.mpr h.high
  push_cast at hlow hhigh
  constructor
  · calc (10 : ℚ) ^ top
        = 10 ^ places * 10 ^ (top - places) := by
          rw [← zpow_natCast, ← zpow_add₀ hten, add_sub_cancel]
      _ ≤ digits * 10 ^ (top - places) := by gcongr
  · calc (digits : ℚ) * 10 ^ (top - places)
        < 10 ^ (places + 1) * 10 ^ (top - places) := by gcongr
      _ = 10 ^ (top + 1) := by
          rw [← zpow_natCast, ← zpow_add₀ hten]
          congr 1
          push_cast
          ring

/-- So it is with either sign. -/
theorem abs_top_spec (h : Significant r places digits top) (negative : Bool) :
    (10 : ℚ) ^ top ≤ |signed negative (digits * 10 ^ (top - places))| ∧
      |signed negative (digits * 10 ^ (top - places))| < 10 ^ (top + 1) := by
  have hnonneg : (0 : ℚ) ≤ digits * 10 ^ (top - places) := by positivity
  rw [abs_signed, abs_of_nonneg hnonneg]
  exact h.top_spec

/-- Writing the magnitude positionally, with as many places as the digits have, gives the same
digits. -/
theorem round_eq (h : Significant r places digits top) :
    (r.scale10 ((places : Int) - top)).round = digits := by
  have hround := (r.scale10 ((places : Int) - top)).rounds_round
  rw [Ratio.value_scale10] at hround
  exact hround.unique h.stable

end Significant

end SceneScript.Number
