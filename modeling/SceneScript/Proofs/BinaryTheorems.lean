/-
SceneScript.Proofs.BinaryTheorems — doubles in their order, and rounding to them.

The bits of a finite double without its sign are its place among the finite
magnitudes: `ofBits_finite` says that they count spacings from zero. Rounding to the
nearest double works on the same count, so that two facts about it are near at hand.
It is monotone (`nearestBits_mono`), and therefore goes by the value of a quotient
and not by how it is written; and what is a double already stays what it is
(`Canonical.nearestBits_magnitude`).
-/
import SceneScript.Number.Binary
import SceneScript.Proofs.RatioTheorems

namespace SceneScript.Number

/-! ## §1 Finite doubles -/

theorem exponentWeight_cast : ((exponentWeight : Nat) : ℚ) = 2 ^ (52 : Int) := by
  norm_num [exponentWeight]

theorem two_mul_exponentWeight_cast : ((2 * exponentWeight : Nat) : ℚ) = 2 ^ (53 : Int) := by
  norm_num [exponentWeight]

/-- The significands and exponents that doubles have: fifty-three bits, all of them used unless
the exponent is the smallest. -/
structure Canonical (significand : Nat) (exponent : Int) : Prop where
  low : -1074 ≤ exponent
  high : exponent ≤ 971
  lt : significand < 2 * exponentWeight
  full : exponent = -1074 ∨ exponentWeight ≤ significand

/-- The place of a double among the finite magnitudes. -/
def place (significand : Nat) (exponent : Int) : Nat :=
  (exponent + 1074).toNat * exponentWeight + significand

/-- Taking a finite double apart: the sign bit is apart, and the other bits are the place. -/
theorem ofBits_finite {bits significand : Nat} {negative : Bool} {exponent : Int}
    (h : Binary.ofBits bits = .finite negative significand exponent) (hbits : bits < 2 ^ 64) :
    Canonical significand exponent ∧
    bits = (if negative then signWeight else 0) + place significand exponent := by
  have hsign : (if decide (signWeight ≤ bits) = true then signWeight else 0) =
      bits / signWeight * signWeight := by
    rcases Nat.lt_or_ge bits signWeight with hlt | hge
    · rw [if_neg (by simpa using hlt), Nat.div_eq_of_lt hlt, Nat.zero_mul]
    · have hone : bits / signWeight = 1 := by
        simp only [signWeight] at hge ⊢
        omega
      rw [if_pos (by simpa using hge), hone, Nat.one_mul]
  have hsplit := Nat.div_add_mod bits exponentWeight
  have hfraction := Nat.mod_lt bits (by decide : 0 < exponentWeight)
  unfold Binary.ofBits at h
  dsimp only at h
  split at h
  · split at h <;> cases h
  · next hfield =>
    split at h
    · next hzero =>
      obtain ⟨rfl, rfl, rfl⟩ := Binary.finite.inj h
      refine ⟨⟨by decide, by decide, by omega, .inl rfl⟩, ?_⟩
      rw [hsign]
      simp only [place, exponentWeight, signWeight] at hsplit hfraction hzero ⊢
      omega
    · next hpositive =>
      obtain ⟨rfl, rfl, rfl⟩ := Binary.finite.inj h
      refine ⟨⟨by omega, by omega, by omega, .inr (by omega)⟩, ?_⟩
      rw [hsign]
      simp only [place, exponentWeight, signWeight] at hsplit hfraction hfield hpositive ⊢
      omega

namespace Canonical

variable {significand significand' : Nat} {exponent exponent' : Int}

theorem cast_lt (h : Canonical significand exponent) : (significand : ℚ) < 2 ^ (53 : Int) := by
  rw [← two_mul_exponentWeight_cast]
  exact_mod_cast h.lt

theorem place_lt (h : Canonical significand exponent) :
    place significand exponent < infinityBits := by
  obtain ⟨hlow, hhigh, hlt, -⟩ := h
  simp only [place, infinityBits, exponentWeight] at hlt ⊢
  omega

/-- Different doubles have different places. -/
theorem place_inj (h : Canonical significand exponent) (h' : Canonical significand' exponent')
    (heq : place significand exponent = place significand' exponent') :
    significand = significand' ∧ exponent = exponent' := by
  obtain ⟨hlow, -, hlt, hfull⟩ := h
  obtain ⟨hlow', -, hlt', hfull'⟩ := h'
  simp only [place, exponentWeight] at hlt hlt' hfull hfull' heq
  omega

end Canonical

@[simp] theorem value_magnitude (significand : Nat) (exponent : Int) :
    (magnitude significand exponent).value = significand * 2 ^ exponent := by
  simp [magnitude]

theorem num_magnitude_pos {significand : Nat} (h : 0 < significand) (exponent : Int) :
    0 < (magnitude significand exponent).num := by
  rw [← Ratio.value_pos_iff, value_magnitude]
  positivity

@[simp] theorem num_magnitude_zero (exponent : Int) : (magnitude 0 exponent).num = 0 := by
  rw [← Ratio.value_eq_zero_iff, value_magnitude]
  simp

/-! ## §2 The spacing of doubles -/

/-- The exponent of the distance between the doubles around a quotient. -/
def spacing (r : Ratio) : Int := max (r.log2 - 52) (-1074)

theorem nearestBits_of_zero {r : Ratio} (h : r.num = 0) : nearestBits r = 0 := by
  simp [nearestBits, h]

theorem nearestBits_of_pos {r : Ratio} (h : 0 < r.num) :
    nearestBits r = min infinityBits
      ((spacing r + 1074).toNat * exponentWeight + (r.scale2 (-spacing r)).round) := by
  simp only [nearestBits, if_neg h.ne', spacing]

theorem nearestBits_le (r : Ratio) : nearestBits r ≤ infinityBits := by
  unfold nearestBits
  split
  · exact Nat.zero_le _
  · exact Nat.min_le_left _ _

variable {r r' : Ratio}

/-- Measured in its spacing, a quotient is below the second power of two. -/
theorem round_spacing_le (h : 0 < r.num) :
    (r.scale2 (-spacing r)).round ≤ 2 * exponentWeight := by
  have hpower : (r.scale2 (-spacing r)).value ≤ (Ratio.ofNat (2 * exponentWeight)).value := by
    rw [Ratio.value_scale2, Ratio.value_ofNat]
    have hexponent : r.log2 + 1 + -spacing r ≤ 53 := by
      simp only [spacing]
      omega
    calc r.value * 2 ^ (-spacing r)
        ≤ 2 ^ (r.log2 + 1) * 2 ^ (-spacing r) := by
          gcongr
          exact (Ratio.log2_spec h).2.le
      _ = 2 ^ (r.log2 + 1 + -spacing r) := (zpow_add₀ two_ne_zero _ _).symm
      _ ≤ (2 : ℚ) ^ (53 : Int) := zpow_le_zpow_right₀ one_le_two hexponent
      _ = ((2 * exponentWeight : Nat) : ℚ) := two_mul_exponentWeight_cast.symm
  have hround := Ratio.round_mono hpower
  rwa [Ratio.round_eq_of_value (Ratio.value_ofNat _)] at hround

/-- Measured in its spacing, a quotient fills the bits of a significand unless the spacing is the
smallest. -/
theorem le_round_spacing (h : 0 < r.num) (hspacing : -1074 < spacing r) :
    exponentWeight ≤ (r.scale2 (-spacing r)).round := by
  have hpower : (Ratio.ofNat exponentWeight).value ≤ (r.scale2 (-spacing r)).value := by
    rw [Ratio.value_scale2, Ratio.value_ofNat]
    have hexponent : 52 = r.log2 + -spacing r := by
      simp only [spacing] at hspacing ⊢
      omega
    calc ((exponentWeight : Nat) : ℚ) = 2 ^ (52 : Int) := exponentWeight_cast
      _ = 2 ^ r.log2 * 2 ^ (-spacing r) := by rw [hexponent, zpow_add₀ two_ne_zero]
      _ ≤ r.value * 2 ^ (-spacing r) := by
          gcongr
          exact (Ratio.log2_spec h).1
  have hround := Ratio.round_mono hpower
  rwa [Ratio.round_eq_of_value (Ratio.value_ofNat _)] at hround

/-! ## §3 Rounding -/

/-- **Rounding is monotone.** Within one spacing it is rounding to natural numbers; from one
spacing to a larger one there is a power of two in between, which both sides keep to. -/
theorem nearestBits_mono (h : r.value ≤ r'.value) : nearestBits r ≤ nearestBits r' := by
  rcases Nat.eq_zero_or_pos r.num with hzero | hpos
  · rw [nearestBits_of_zero hzero]
    exact Nat.zero_le _
  · have hpos' : 0 < r'.num :=
      Ratio.value_pos_iff.mp ((Ratio.value_pos_iff.mpr hpos).trans_le h)
    have hlog := Ratio.log2_mono hpos h
    rw [nearestBits_of_pos hpos, nearestBits_of_pos hpos']
    refine min_le_min le_rfl ?_
    have hle : spacing r ≤ spacing r' := by
      simp only [spacing]
      omega
    rcases hle.eq_or_lt with heq | hlt
    · have hround : (r.scale2 (-spacing r)).round ≤ (r'.scale2 (-spacing r')).round := by
        refine Ratio.round_mono ?_
        rw [Ratio.value_scale2, Ratio.value_scale2, heq]
        gcongr
      rw [heq] at hround ⊢
      omega
    · have hlow : -1074 ≤ spacing r := le_max_right _ _
      have hbelow := round_spacing_le hpos
      have habove := le_round_spacing hpos' (hlow.trans_lt hlt)
      simp only [exponentWeight] at hbelow habove ⊢
      omega

/-- Rounding goes by the value. -/
theorem nearestBits_congr (h : r.value = r'.value) : nearestBits r = nearestBits r' :=
  Nat.le_antisymm (nearestBits_mono h.le) (nearestBits_mono h.ge)

namespace Canonical

variable {significand significand' : Nat} {exponent exponent' : Int}

/-- The doubles around a double are as far apart as its exponent says. -/
theorem spacing_magnitude (h : Canonical significand exponent) (hpos : 0 < significand) :
    spacing (magnitude significand exponent) = exponent := by
  have hnum := num_magnitude_pos hpos exponent
  have hlt := h.cast_lt
  have hlog : (magnitude significand exponent).log2 < exponent + 53 := by
    refine (zpow_lt_zpow_iff_right₀ (one_lt_two (α := ℚ))).mp
      ((Ratio.log2_spec hnum).1.trans_lt ?_)
    rw [value_magnitude, add_comm, zpow_add₀ two_ne_zero]
    gcongr
  rcases h.full with hsmallest | hfull
  · simp only [spacing]
    omega
  · have hlog' : exponent + 52 < (magnitude significand exponent).log2 + 1 := by
      refine (zpow_lt_zpow_iff_right₀ (one_lt_two (α := ℚ))).mp
        (lt_of_le_of_lt ?_ (Ratio.log2_spec hnum).2)
      have hweight : (2 : ℚ) ^ (52 : Int) ≤ significand := by
        rw [← exponentWeight_cast]
        exact_mod_cast hfull
      rw [value_magnitude, add_comm, zpow_add₀ two_ne_zero]
      gcongr
    have hlow := h.low
    simp only [spacing]
    omega

/-- **A double is nearest to itself.** -/
theorem nearestBits_magnitude (h : Canonical significand exponent) :
    nearestBits (magnitude significand exponent) = place significand exponent := by
  rcases Nat.eq_zero_or_pos significand with rfl | hpos
  · have hexponent : exponent = -1074 := by
      refine h.full.resolve_right ?_
      decide
    rw [nearestBits_of_zero (num_magnitude_zero exponent), hexponent]
    rfl
  · have hnum := num_magnitude_pos hpos exponent
    have hround : ((magnitude significand exponent).scale2 (-exponent)).round = significand := by
      refine Ratio.round_eq_of_value ?_
      rw [Ratio.value_scale2, value_magnitude, mul_assoc, ← zpow_add₀ two_ne_zero,
        add_neg_cancel, zpow_zero, mul_one]
    rw [nearestBits_of_pos hnum, h.spacing_magnitude hpos, hround]
    exact min_eq_right h.place_lt.le

/-- Places are in the order of the values. -/
theorem place_le_iff (h : Canonical significand exponent) (h' : Canonical significand' exponent') :
    place significand exponent ≤ place significand' exponent' ↔
      (significand : ℚ) * 2 ^ exponent ≤ significand' * 2 ^ exponent' := by
  rw [← value_magnitude, ← value_magnitude]
  constructor
  · intro hle
    by_contra hlt
    have hge := nearestBits_mono (not_le.mp hlt).le
    rw [h.nearestBits_magnitude, h'.nearestBits_magnitude] at hge
    obtain ⟨rfl, rfl⟩ := h.place_inj h' (hle.antisymm hge)
    exact hlt le_rfl
  · intro hle
    rw [← h.nearestBits_magnitude, ← h'.nearestBits_magnitude]
    exact nearestBits_mono hle

end Canonical

end SceneScript.Number
