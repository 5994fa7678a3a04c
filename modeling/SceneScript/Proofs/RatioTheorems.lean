/-
SceneScript.Proofs.RatioTheorems — quotients by their value, and rounding by what it keeps.

A `Ratio` is kept as it comes, so two of them may be the same number. Everything
here goes by the number: `Ratio.value` is the quotient as a rational, scaling
multiplies it by a power (`value_scale`), the whole part is the floor of it
(`floor_eq`), and `Ratio.log2` places it between two powers of two (`log2_spec`).

Rounding is pinned down by `Rounds`: the natural number is at most a half away, and
even if it is exactly a half away. There is one such number for each value, and a
larger value never has a smaller one (`Rounds.mono`). No other natural number is nearer
(`Rounds.nearest`).
-/
import SceneScript.Number.Ratio
import Mathlib.Algebra.Order.Field.Power
import Mathlib.Algebra.Order.Floor.Semifield
import Mathlib.Data.Rat.Floor
import Mathlib.Tactic.FieldSimp
import Mathlib.Tactic.Linarith
import Mathlib.Tactic.Positivity
import Mathlib.Tactic.Ring

namespace SceneScript.Number

/-! ## §1 Values -/

namespace Ratio

variable {r r' : Ratio}

/-- The quotient as a rational number. -/
def value (r : Ratio) : ℚ := r.num / r.den

theorem den_cast_pos (r : Ratio) : (0 : ℚ) < r.den := Nat.cast_pos.mpr r.den_pos

theorem value_nonneg (r : Ratio) : 0 ≤ r.value := by
  unfold value
  positivity

theorem value_pos_iff : 0 < r.value ↔ 0 < r.num := by
  rw [value, div_pos_iff_of_pos_right r.den_cast_pos, Nat.cast_pos]

theorem value_eq_zero_iff : r.value = 0 ↔ r.num = 0 := by
  rw [value, div_eq_zero_iff, or_iff_left r.den_cast_pos.ne', Nat.cast_eq_zero]

theorem one_le_value_iff : 1 ≤ r.value ↔ r.den ≤ r.num := by
  rw [value, one_le_div r.den_cast_pos, Nat.cast_le]

@[simp] theorem value_ofNat (n : Nat) : (ofNat n).value = n := by
  simp [value, ofNat]

/-- Scaling multiplies by the power, whatever the sign of its exponent. -/
theorem value_scale (r : Ratio) {base : Nat} (base_pos : 0 < base) (k : Int) :
    (r.scale base base_pos k).value = r.value * (base : ℚ) ^ k := by
  cases k with
  | ofNat n =>
    simp only [scale, value, Nat.pow_eq, Int.ofNat_eq_natCast, zpow_natCast]
    push_cast
    ring
  | negSucc n =>
    have hbase : (base : ℚ) ≠ 0 := Nat.cast_ne_zero.mpr base_pos.ne'
    have hden : (r.den : ℚ) ≠ 0 := r.den_cast_pos.ne'
    simp only [scale, value, Nat.pow_eq, zpow_negSucc]
    push_cast
    field_simp

@[simp] theorem value_scale2 (r : Ratio) (k : Int) : (r.scale2 k).value = r.value * 2 ^ k := by
  have h := r.value_scale (by decide : 0 < 2) k
  exact_mod_cast h

@[simp] theorem value_scale10 (r : Ratio) (k : Int) : (r.scale10 k).value = r.value * 10 ^ k := by
  have h := r.value_scale (by decide : 0 < 10) k
  exact_mod_cast h

theorem floor_eq (r : Ratio) : r.floor = ⌊r.value⌋₊ := by
  rw [value, Nat.floor_div_eq_div]
  rfl

theorem le_floor_iff {n : Nat} : n ≤ r.floor ↔ (n : ℚ) ≤ r.value := by
  rw [floor_eq]
  exact Nat.le_floor_iff r.value_nonneg

/-! ## §2 Between two powers of two -/

/-- A positive quotient lies between two neighbouring powers of two. The bit lengths of numerator
and denominator leave two possible pairs, and one comparison decides. -/
theorem log2_spec (h : 0 < r.num) :
    (2 : ℚ) ^ r.log2 ≤ r.value ∧ r.value < 2 ^ (r.log2 + 1) := by
  have hnumLow : ((2 : ℚ) ^ (r.num.log2 : Int)) ≤ r.num := by
    rw [zpow_natCast]
    exact_mod_cast Nat.log2_self_le h.ne'
  have hnumHigh : (r.num : ℚ) < 2 ^ ((r.num.log2 : Int) + 1) := by
    have hlt : r.num < 2 ^ (r.num.log2 + 1) := Nat.lt_log2_self
    exact_mod_cast hlt
  have hdenLow : ((2 : ℚ) ^ (r.den.log2 : Int)) ≤ r.den := by
    rw [zpow_natCast]
    exact_mod_cast Nat.log2_self_le r.den_pos.ne'
  have hdenHigh : (r.den : ℚ) < 2 ^ ((r.den.log2 : Int) + 1) := by
    have hlt : r.den < 2 ^ (r.den.log2 + 1) := Nat.lt_log2_self
    exact_mod_cast hlt
  have hden := r.den_cast_pos
  unfold log2
  generalize hguess : (r.num.log2 : Int) - (r.den.log2 : Int) = guess
  have htwo : (0 : ℚ) < 2 ^ guess := by positivity
  have hscaled : (r.scale2 (-guess)).den ≤ (r.scale2 (-guess)).num ↔ 2 ^ guess ≤ r.value := by
    rw [← one_le_value_iff, value_scale2, zpow_neg, ← div_eq_mul_inv, one_le_div htwo]
  have hlow : (2 : ℚ) ^ (guess - 1) < r.value := by
    rw [value, lt_div_iff₀ hden]
    calc (2 : ℚ) ^ (guess - 1) * r.den
        < 2 ^ (guess - 1) * 2 ^ ((r.den.log2 : Int) + 1) := by gcongr
      _ = 2 ^ (r.num.log2 : Int) := by
          rw [← zpow_add₀ two_ne_zero, ← hguess]
          congr 1
          ring
      _ ≤ r.num := hnumLow
  have hhigh : r.value < 2 ^ (guess + 1) := by
    rw [value, div_lt_iff₀ hden]
    calc (r.num : ℚ)
        < 2 ^ ((r.num.log2 : Int) + 1) := hnumHigh
      _ = 2 ^ (guess + 1) * 2 ^ (r.den.log2 : Int) := by
          rw [← zpow_add₀ two_ne_zero, ← hguess]
          congr 1
          ring
      _ ≤ 2 ^ (guess + 1) * r.den := by gcongr
  simp only [hscaled]
  split
  · next hle => exact ⟨hle, hhigh⟩
  · next hlt =>
    rw [Int.sub_add_cancel]
    exact ⟨hlow.le, not_le.mp hlt⟩

theorem log2_mono (h : 0 < r.num) (hle : r.value ≤ r'.value) : r.log2 ≤ r'.log2 := by
  have h' : 0 < r'.num := value_pos_iff.1 ((value_pos_iff.2 h).trans_le hle)
  have hpowers : (2 : ℚ) ^ r.log2 < 2 ^ (r'.log2 + 1) :=
    ((log2_spec h).1.trans hle).trans_lt (log2_spec h').2
  have hlt : r.log2 < r'.log2 + 1 := (zpow_lt_zpow_iff_right₀ one_lt_two).mp hpowers
  omega

end Ratio

/-! ## §3 Rounding -/

/-- The number is nearest to the value, and even if there are two nearest ones. -/
def Rounds (q : ℚ) (n : Nat) : Prop := |q - n| ≤ 1 / 2 ∧ (|q - n| = 1 / 2 → Even n)

theorem Rounds.mono {q q' : ℚ} {n n' : Nat} (h : Rounds q n) (h' : Rounds q' n') (hle : q ≤ q') :
    n ≤ n' := by
  by_contra hlt
  have hstep : (n' : ℚ) + 1 ≤ n := by exact_mod_cast Nat.succ_le_of_lt (not_le.mp hlt)
  obtain ⟨hlow, -⟩ := abs_le.mp h.1
  obtain ⟨-, hhigh⟩ := abs_le.mp h'.1
  -- The values meet half-way between two neighbours, and then both of these are even.
  have hq : q - n = -(1 / 2) := by linarith
  have hq' : q' - n' = 1 / 2 := by linarith
  have hsucc : n = n' + 1 := by
    have : (n : ℚ) = n' + 1 := by linarith
    exact_mod_cast this
  have heven : Even n := h.2 (by rw [hq, abs_neg, abs_of_pos one_half_pos])
  have heven' : Even n' := h'.2 (by rw [hq', abs_of_pos one_half_pos])
  rw [hsucc] at heven
  exact Nat.even_add_one.mp heven heven'

theorem Rounds.unique {q : ℚ} {n n' : Nat} (h : Rounds q n) (h' : Rounds q n') : n = n' :=
  Nat.le_antisymm (h.mono h' le_rfl) (h'.mono h le_rfl)

/-- No natural number is nearer, and another that is as near leaves the even one. -/
theorem Rounds.nearest {q : ℚ} {n : Nat} (h : Rounds q n) (k : Nat) :
    |q - n| ≤ |q - k| ∧ (|q - k| = |q - n| → k ≠ n → Even n) := by
  by_cases hk : k = n
  · subst hk
    exact ⟨le_rfl, fun _ hne => absurd rfl hne⟩
  · have hapart : (1 : ℚ) ≤ |(q - n) - (q - k)| := by
      rw [sub_sub_sub_cancel_left]
      have hint : (1 : ℤ) ≤ |(k : ℤ) - n| := Int.one_le_abs (by omega)
      exact_mod_cast hint
    have htriangle := hapart.trans (abs_sub (q - n) (q - k))
    refine ⟨by linarith [h.1], fun htie _ => h.2 (le_antisymm h.1 ?_)⟩
    linarith

theorem rounds_natCast (n : Nat) : Rounds n n := by
  simp [Rounds]

section Neighbours

variable {q : ℚ} {n : Nat}

theorem rounds_of_lt_half (h : 0 ≤ q - n) (hhalf : q - n < 1 / 2) : Rounds q n := by
  rw [Rounds, abs_of_nonneg h]
  exact ⟨hhalf.le, fun heq => absurd heq hhalf.ne⟩

theorem rounds_of_half_lt (hhalf : 1 / 2 < q - n) (h : q - n ≤ 1) : Rounds q (n + 1) := by
  have hdiff : q - (n + 1 : Nat) = (q - n) - 1 := by
    push_cast
    ring
  rw [Rounds, hdiff, abs_of_nonpos (by linarith)]
  refine ⟨by linarith, fun heq => ?_⟩
  linarith

theorem rounds_of_half (hhalf : q - n = 1 / 2) : Rounds q (n + n % 2) := by
  rcases Nat.mod_two_eq_zero_or_one n with heven | hodd
  · rw [heven, Nat.add_zero, Rounds, hhalf, abs_of_pos one_half_pos]
    exact ⟨le_rfl, fun _ => Nat.even_iff.mpr heven⟩
  · have hdiff : q - (n + 1 : Nat) = -(1 / 2) := by
      push_cast
      linarith
    rw [hodd, Rounds, hdiff, abs_neg, abs_of_pos one_half_pos]
    exact ⟨le_rfl, fun _ => Nat.even_iff.mpr (by omega)⟩

end Neighbours

/-- What is left after the whole part decides which neighbour it is. -/
theorem rounds_roundDiv (n : Nat) {d : Nat} (hd : 0 < d) : Rounds ((n : ℚ) / d) (roundDiv n d) := by
  have hd' : (0 : ℚ) < d := Nat.cast_pos.mpr hd
  have hmod : n % d < d := Nat.mod_lt n hd
  have hsplit : (n : ℚ) / d - (n / d : Nat) = (n % d : Nat) / d := by
    have hn : (n : ℚ) = d * (n / d : Nat) + (n % d : Nat) := by
      exact_mod_cast (Nat.div_add_mod n d).symm
    rw [div_sub' hd'.ne', div_left_inj' hd'.ne']
    linarith
  unfold roundDiv
  dsimp only
  generalize n / d = whole at hsplit
  generalize n % d = rest at hmod hsplit
  split
  · next hsmall =>
    have hhalf : (rest : ℚ) / d < 1 / 2 := by
      rw [div_lt_div_iff₀ hd' two_pos]
      exact_mod_cast (by omega : rest * 2 < 1 * d)
    rw [← hsplit] at hhalf
    refine rounds_of_lt_half ?_ hhalf
    rw [hsplit]
    positivity
  · split
    · next hmore =>
      have hhalf : 1 / 2 < (rest : ℚ) / d := by
        rw [div_lt_div_iff₀ two_pos hd']
        exact_mod_cast (by omega : 1 * d < rest * 2)
      have hlt : (rest : ℚ) / d < 1 := (div_lt_one hd').mpr (Nat.cast_lt.mpr hmod)
      rw [← hsplit] at hhalf hlt
      exact rounds_of_half_lt hhalf hlt.le
    · next hsmall hmore =>
      have hhalf : (rest : ℚ) / d = 1 / 2 := by
        rw [div_eq_div_iff hd'.ne' two_ne_zero]
        exact_mod_cast (by omega : rest * 2 = 1 * d)
      exact rounds_of_half (hsplit.trans hhalf)

theorem Ratio.rounds_round (r : Ratio) : Rounds r.value r.round := rounds_roundDiv r.num r.den_pos

theorem Ratio.round_mono {r r' : Ratio} (h : r.value ≤ r'.value) : r.round ≤ r'.round :=
  r.rounds_round.mono r'.rounds_round h

theorem Ratio.round_eq_of_value {r : Ratio} {n : Nat} (h : r.value = n) : r.round = n := by
  have hround := r.rounds_round
  rw [h] at hround
  exact hround.unique (rounds_natCast n)

end SceneScript.Number
