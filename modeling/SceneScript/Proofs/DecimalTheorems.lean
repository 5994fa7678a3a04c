/-
SceneScript.Proofs.DecimalTheorems — decimals, and that the shortest one reads back.

A decimal is read as the double nearest to its value. The reader looks at the
highest place first and forms no power of ten for what is too large or too small
for any double; that gives the same double (`Decimal.bits_eq`), and so reading goes
by the value (`Decimal.bits_congr`) and not by the zeros at the end.

The shortest decimal of a double is one that was found to read back, or, were there
none, the exact one; either way it reads back (`bits_shortest`). From `10 ^ 16` on
it is a whole number (`exponent_shortest_nonneg`).
-/
import SceneScript.Number.Decimal
import SceneScript.Proofs.BinaryTheorems

namespace SceneScript.Number

/-! ## §1 Decimal places -/

/-- A positive number lies between two neighbouring powers of ten. -/
theorem log10_spec {n : Nat} (h : 0 < n) : 10 ^ log10 n ≤ n ∧ n < 10 ^ (log10 n + 1) := by
  have hpos : 0 < (digitsOf n).length := Nat.length_toDigits_pos
  have hle {k : Nat} (hk : 0 < k) : (digitsOf n).length ≤ k ↔ n < 10 ^ k :=
    Nat.length_toDigits_le_iff (by decide) hk
  unfold log10
  constructor
  · rcases Nat.eq_zero_or_pos ((digitsOf n).length - 1) with hzero | hmore
    · rw [hzero]
      exact h
    · refine not_lt.mp fun hlt => ?_
      have := (hle hmore).mpr hlt
      omega
  · rw [Nat.sub_add_cancel hpos]
    exact (hle hpos).mp le_rfl

/-- A number with so many digits has its highest place that high. -/
theorem le_log10 {n k : Nat} (h : 10 ^ k ≤ n) : k ≤ log10 n := by
  have hpos : 0 < n := (Nat.pow_pos (by decide)).trans_le h
  have hlt := (Nat.pow_lt_pow_iff_right (by decide)).mp (h.trans_lt (log10_spec hpos).2)
  omega

namespace Decimal

variable {d d' : Decimal}

@[simp] theorem value_ratio (d : Decimal) : d.ratio.value = d.digits * 10 ^ d.exponent := by
  simp [ratio]

/-- The highest place bounds the value from both sides. -/
theorem top_spec (h : 0 < d.digits) :
    (10 : ℚ) ^ d.top ≤ d.ratio.value ∧ d.ratio.value < 10 ^ (d.top + 1) := by
  obtain ⟨hlow, hhigh⟩ := log10_spec h
  have hlow' : (10 : ℚ) ^ (log10 d.digits : Int) ≤ d.digits := by
    rw [zpow_natCast]
    exact_mod_cast hlow
  have hhigh' : (d.digits : ℚ) < 10 ^ ((log10 d.digits : Int) + 1) := by
    exact_mod_cast hhigh
  have hten : (10 : ℚ) ≠ 0 := by norm_num
  rw [value_ratio, top, add_assoc, zpow_add₀ hten, zpow_add₀ hten d.exponent, mul_comm]
  constructor
  · gcongr
  · rw [mul_comm (10 ^ d.exponent)]
    gcongr

/-- Less than half of the smallest double. -/
theorem nearestBits_tiny : nearestBits ((Ratio.ofNat 1).scale10 (-324)) = 0 := by
  decide +kernel

/-- More than the largest double. -/
theorem nearestBits_huge : nearestBits ((Ratio.ofNat 1).scale10 309) = infinityBits := by
  decide +kernel

/-- **Reading is rounding.** What the reader does not compute would have come out the same. -/
theorem bits_eq (d : Decimal) : d.bits = nearestBits d.ratio := by
  unfold bits
  rcases Nat.eq_zero_or_pos d.digits with hzero | hpos
  · have hnum : d.ratio.num = 0 := by
      rw [← Ratio.value_eq_zero_iff, value_ratio, hzero]
      simp
    rw [if_pos (.inl hzero), nearestBits_of_zero hnum]
  · obtain ⟨hlow, hhigh⟩ := top_spec hpos
    split
    · next hsmall =>
      have htop : d.top + 1 ≤ -324 := by omega
      have hvalue : d.ratio.value ≤ ((Ratio.ofNat 1).scale10 (-324)).value := by
        rw [Ratio.value_scale10, Ratio.value_ofNat, Nat.cast_one, one_mul]
        exact hhigh.le.trans (zpow_le_zpow_right₀ (by norm_num) htop)
      have hbits := nearestBits_mono hvalue
      rw [nearestBits_tiny] at hbits
      omega
    · split
      · next hlarge =>
        have hvalue : ((Ratio.ofNat 1).scale10 309).value ≤ d.ratio.value := by
          rw [Ratio.value_scale10, Ratio.value_ofNat, Nat.cast_one, one_mul]
          exact (zpow_le_zpow_right₀ (by norm_num) hlarge).trans hlow
        have hbits := nearestBits_mono hvalue
        rw [nearestBits_huge] at hbits
        exact hbits.antisymm (nearestBits_le _)
      · rfl

theorem bits_congr (h : d.ratio.value = d'.ratio.value) : d.bits = d'.bits := by
  rw [bits_eq, bits_eq]
  exact nearestBits_congr h

/-! ## §2 Zeros at the end -/

theorem go_spec (zeros : Nat) (d : Decimal) :
    (strip.go zeros d).ratio.value = d.ratio.value ∧ d.exponent ≤ (strip.go zeros d).exponent := by
  induction zeros generalizing d with
  | zero => exact ⟨rfl, le_rfl⟩
  | succ zeros ih =>
    unfold strip.go
    split
    · next hzero =>
      obtain ⟨hvalue, hexponent⟩ := ih ⟨d.digits / 10, d.exponent + 1⟩
      dsimp only at hexponent
      refine ⟨hvalue.trans ?_, by omega⟩
      have hdigits : ((d.digits / 10 : Nat) : ℚ) * 10 = d.digits := by
        exact_mod_cast Nat.div_mul_cancel (Nat.dvd_of_mod_eq_zero hzero)
      rw [value_ratio, value_ratio, zpow_add_one₀ (by norm_num), ← hdigits]
      ring
    · exact ⟨rfl, le_rfl⟩

theorem value_strip (d : Decimal) : d.strip.ratio.value = d.ratio.value := (go_spec _ d).1

theorem exponent_le_strip (d : Decimal) : d.exponent ≤ d.strip.exponent := (go_spec _ d).2

end Decimal

/-! ## §3 The fewest digits -/

variable {r : Ratio} {bits count : Nat} {d : Decimal}

/-- What is found with a number of digits reads back, and its last place is that far below the
highest. -/
theorem withDigits?_spec (h : withDigits? r bits count = some d) :
    d.bits = bits ∧ d.exponent = r.log10 - ((count : Int) - 1) := by
  unfold withDigits? at h
  dsimp only at h
  generalize r.log10 - ((count : Int) - 1) = exponent at h ⊢
  have hbelow : (neighbours r exponent).1.exponent = exponent := rfl
  have habove : (neighbours r exponent).2.exponent = exponent := rfl
  generalize neighbours r exponent = pair at h hbelow habove
  obtain ⟨below, above⟩ := pair
  dsimp only at h hbelow habove
  split at h
  · next hboth =>
    cases h
    split
    · exact ⟨hboth.1, hbelow⟩
    · exact ⟨hboth.2, habove⟩
  · split at h
    · next hbits =>
      cases h
      exact ⟨hbits, hbelow⟩
    · split at h
      · next hbits =>
        cases h
        exact ⟨hbits, habove⟩
      · cases h

/-- A half is five tenths, as often as there are halves. -/
theorem value_exactDecimal (significand : Nat) (exponent : Int) :
    (exactDecimal significand exponent).ratio.value = (magnitude significand exponent).value := by
  rw [Decimal.value_ratio, value_magnitude]
  cases exponent with
  | ofNat k => simp [exactDecimal]
  | negSucc k =>
    have hhalf : (5 : ℚ) ^ (k + 1) * (10 ^ (k + 1))⁻¹ = (2 ^ (k + 1))⁻¹ := by
      rw [← div_eq_mul_inv, ← div_pow, ← inv_pow]
      norm_num
    simp only [exactDecimal, Nat.pow_eq, zpow_negSucc, Nat.cast_mul, Nat.cast_pow, Nat.cast_ofNat]
    rw [mul_assoc, hhalf]

/-- Every shortest decimal was found with at most seventeen digits or is the exact one. -/
theorem shortest_cases (significand : Nat) (exponent : Int) :
    (∃ count d, count ≤ 17 ∧
      withDigits? (magnitude significand exponent)
        (nearestBits (magnitude significand exponent)) count = some d ∧
      shortest significand exponent = d.strip) ∨
    shortest significand exponent = (exactDecimal significand exponent).strip := by
  unfold shortest
  dsimp only
  split
  · next d hfound =>
    obtain ⟨i, hi, hd⟩ := List.exists_of_findSome?_eq_some hfound
    have hlt : i < 17 := List.mem_range.mp hi
    exact .inl ⟨i + 1, d, by omega, hd, rfl⟩
  · exact .inr rfl

/-- **The shortest decimal reads back.** -/
theorem bits_shortest (significand : Nat) (exponent : Int) :
    (shortest significand exponent).bits = nearestBits (magnitude significand exponent) := by
  obtain ⟨count, d, -, hd, heq⟩ | heq := shortest_cases significand exponent
  · rw [heq, Decimal.bits_congr d.value_strip]
    exact (withDigits?_spec hd).1
  · rw [heq, Decimal.bits_congr (Decimal.value_strip _), Decimal.bits_eq]
    exact nearestBits_congr (value_exactDecimal significand exponent)

/-- Seventeen digits do not reach below the units of a number from `10 ^ 16` on. -/
theorem exponent_shortest_nonneg {significand : Nat} {exponent : Int} (hexponent : 0 ≤ exponent)
    (h : 10 ^ 16 ≤ (magnitude significand exponent).value) :
    0 ≤ (shortest significand exponent).exponent := by
  obtain ⟨count, d, hcount, hd, heq⟩ | heq := shortest_cases significand exponent
  · have hlog : 16 ≤ (magnitude significand exponent).log10 := by
      have hone : (1 : ℚ) ≤ (magnitude significand exponent).value := le_trans (by norm_num) h
      rw [Ratio.log10, if_pos (Ratio.one_le_value_iff.mp hone)]
      have hfloor : 10 ^ 16 ≤ (magnitude significand exponent).floor := by
        rw [Ratio.le_floor_iff]
        exact_mod_cast h
      exact_mod_cast le_log10 hfloor
    have hplace := (withDigits?_spec hd).2
    have hstrip := d.exponent_le_strip
    rw [heq]
    omega
  · rw [heq]
    refine le_trans ?_ (Decimal.exponent_le_strip _)
    obtain ⟨k, rfl⟩ := Int.eq_ofNat_of_zero_le hexponent
    exact le_rfl

end SceneScript.Number
