/-
SceneScript.Proofs.NearestTheorems — the nearest double.

A number that is no double is read, or counted, as the nearest one. `Nearest` says
which that is without saying how it is found: a finite double that no other is nearer
than, with an even significand if another is as near, or an infinity from half-way
between the largest double and the next power of two on. There is only one
(`Nearest.unique`), and `nearest_ofSignedBits` says that `nearestBits` finds it, for
every quotient and either sign.

That the double can be looked at again once it is made, `ofFloat_ofSignedBits`, is
known of all bits but those of no number.
-/
import SceneScript.Proofs.PlainTheorems

namespace SceneScript.Number

variable {negative : Bool} {significand : Nat} {exponent : Int}

/-! ## §1 Doubles from their bits -/

open Float.Model Float.Model.UnpackedFloat in
/-- Bits that are a number are the bits of the double that is made of them. -/
theorem ofFloat_ofBits {bits : Nat} (hlt : bits < 2 ^ 64) (h : Binary.ofBits bits ≠ .nan) :
    Binary.ofFloat (Float.ofBits (UInt64.ofNat bits)) = Binary.ofBits bits := by
  have htoNat : (UInt64.ofNat bits).toBitVec.toNat = bits := by
    rw [UInt64.toBitVec_ofNat', BitVec.toNat_ofNat, Nat.mod_eq_of_lt hlt]
  have hnan : @isNaNBits Format.binary64 (UInt64.ofNat bits).toBitVec = false := by
    rw [isNaNBits, decide_eq_false_iff_not]
    rintro ⟨hfield, hfraction⟩
    have hfield' := congrArg BitVec.toNat hfield
    have hfraction' := fun hzero => hfraction (BitVec.eq_of_toNat_eq hzero)
    simp only [unpackExponent, unpackMantissa, BitVec.toNat_cast, BitVec.extractLsb_toNat, htoNat,
      Nat.shiftRight_eq_div_pow] at hfield' hfraction'
    refine h ?_
    have hones : bits / exponentWeight % 2048 = 2047 := hfield'
    have hnonzero : bits % exponentWeight ≠ 0 := fun hzero => by
      rw [pow_zero, Nat.div_one] at hfraction'
      exact hfraction' hzero
    unfold Binary.ofBits
    dsimp only
    rw [if_pos hones, if_neg hnonzero]
  have hpack := @pack_unpack Format.binary64 (UInt64.ofNat bits).toBitVec (by decide)
  rw [hnan, if_neg Bool.false_ne_true] at hpack
  have hbits : (Float.ofBits (UInt64.ofNat bits)).toBits.toBitVec =
      (UInt64.ofNat bits).toBitVec := hpack
  rw [Binary.ofFloat, UInt64.toNat, hbits, htoNat]

/-- What is put together from a sign and a place is taken apart again. -/
theorem Canonical.ofBits_place (h : Canonical significand exponent) (negative : Bool) :
    Binary.ofBits ((if negative then signWeight else 0) + place significand exponent) =
      .finite negative significand exponent := by
  have hplace := h.place_lt
  obtain ⟨hlow, hhigh, hlt, hfull⟩ := h
  have hsign : decide (signWeight ≤ (if negative then signWeight else 0) +
      place significand exponent) = negative := by
    simp only [infinityBits, exponentWeight] at hplace
    cases negative with
    | true => exact decide_eq_true (Nat.le_add_right _ _)
    | false =>
      refine decide_eq_false ?_
      simp only [Bool.false_eq_true, if_false, signWeight]
      omega
  have hmod : ((if negative then signWeight else 0) + place significand exponent) % signWeight =
      place significand exponent := by
    simp only [infinityBits, exponentWeight] at hplace
    cases negative <;> simp only [Bool.false_eq_true, if_false, if_true, signWeight] <;> omega
  generalize (if negative then signWeight else 0) + place significand exponent = bits at hsign hmod
  unfold Binary.ofBits
  dsimp only
  rw [hsign]
  simp only [place, infinityBits, signWeight, exponentWeight] at hplace hlt hfull hmod
  rcases Nat.lt_or_ge significand exponentWeight with hsmall | hlarge
  · simp only [exponentWeight] at hsmall
    obtain rfl := hfull.resolve_right (by omega)
    have hfield : bits / exponentWeight % 2048 = 0 := by
      simp only [exponentWeight]
      omega
    have hfraction : bits % exponentWeight = significand := by
      simp only [exponentWeight]
      omega
    rw [hfield, hfraction, if_neg (by decide), if_pos rfl]
  · simp only [exponentWeight] at hlarge
    have hfield : ((bits / exponentWeight % 2048 : Nat) : Int) = exponent + 1075 := by
      simp only [exponentWeight]
      omega
    have hfraction : exponentWeight + bits % exponentWeight = significand := by
      simp only [exponentWeight]
      omega
    rw [if_neg (by omega), if_neg (by omega), hfraction, hfield, Int.add_sub_cancel]

theorem Canonical.ofFloat_ofSignedBits (h : Canonical significand exponent) (negative : Bool) :
    Binary.ofFloat (ofSignedBits negative (place significand exponent)) =
      .finite negative significand exponent := by
  have hbits := h.ofBits_place negative
  have hlt := h.place_lt
  have hsum : (if negative then signWeight + place significand exponent
      else place significand exponent) =
      (if negative then signWeight else 0) + place significand exponent := by
    cases negative <;> simp
  rw [ofSignedBits, hsum, ofFloat_ofBits, hbits]
  · simp only [infinityBits, exponentWeight, signWeight] at hlt ⊢
    split <;> omega
  · rw [hbits]
    simp

theorem ofFloat_infinity (negative : Bool) :
    Binary.ofFloat (ofSignedBits negative infinityBits) = .infinite negative := by
  cases negative <;> decide

/-- Each infinity is one double. -/
theorem ofSignedBits_infinity {x : Float} (h : Binary.ofFloat x = .infinite negative) :
    ofSignedBits negative infinityBits = x := by
  have hlt := x.toBits.toNat_lt
  have hbits : (if negative then signWeight + infinityBits else infinityBits) =
      x.toBits.toNat := by
    rw [Binary.ofFloat] at h
    generalize x.toBits.toNat = bits at h hlt
    unfold Binary.ofBits at h
    dsimp only at h
    split at h
    · next hfield =>
      split at h
      · next hfraction =>
        have hsign := Binary.infinite.inj h
        simp only [infinityBits, signWeight, exponentWeight] at hsign hfield hfraction ⊢
        cases negative with
        | true =>
          have hge := of_decide_eq_true hsign
          rw [if_pos rfl]
          omega
        | false =>
          have hlt' := of_decide_eq_false hsign
          rw [if_neg Bool.false_ne_true]
          omega
      · cases h
    · split at h <;> cases h
  rw [ofSignedBits, hbits, UInt64.ofNat_toNat, Float.ofBits_toBits]

/-! ## §2 The nearest magnitude -/

/-- Half-way between the largest double and the next power of two. -/
def overflow : ℚ := (2 ^ (54 : Int) - 1) * 2 ^ (970 : Int)

/-- The double of a significand and an exponent is the nearest to a magnitude that is not too large
for doubles. -/
structure NearestMagnitude (q : ℚ) (significand : Nat) (exponent : Int) : Prop where
  canonical : Canonical significand exponent
  inRange : q < overflow
  nearest : ∀ s e, Canonical s e →
    |(significand : ℚ) * 2 ^ exponent - q| ≤ |(s : ℚ) * 2 ^ e - q|
  even : ∀ s e, Canonical s e →
    |(s : ℚ) * 2 ^ e - q| = |(significand : ℚ) * 2 ^ exponent - q| →
    (s : ℚ) * 2 ^ e ≠ significand * 2 ^ exponent → Even significand

/-- Every place below infinity is that of a double. -/
theorem exists_canonical_of_place {bits : Nat} (h : bits < infinityBits) :
    ∃ s e, Canonical s e ∧ place s e = bits := by
  simp only [infinityBits, exponentWeight] at h
  rcases Nat.lt_or_ge bits exponentWeight with hsmall | hlarge
  · refine ⟨bits, -1074, ⟨by decide, by decide, by omega, .inl rfl⟩, ?_⟩
    simp [place]
  · have hmod := Nat.mod_lt bits (by decide : 0 < exponentWeight)
    refine ⟨exponentWeight + bits % exponentWeight, (bits / exponentWeight : Nat) - 1075,
      ⟨?_, ?_, by omega, .inr (Nat.le_add_right _ _)⟩, ?_⟩ <;>
    · simp only [place, exponentWeight] at hlarge ⊢
      omega

/-- Larger places are larger magnitudes. -/
theorem Canonical.place_lt_iff {s : Nat} {e : Int} (h : Canonical significand exponent)
    (h' : Canonical s e) : place significand exponent < place s e ↔
      (significand : ℚ) * 2 ^ exponent < s * 2 ^ e := by
  rw [← not_le, ← not_le, h'.place_le_iff h]

/-- A double has an even place if it has an even significand. -/
theorem even_place (h : Even significand) (exponent : Int) : Even (place significand exponent) :=
  ((by decide : Even exponentWeight).mul_left _).add h

/-- Of two magnitudes that are both nearest, none is the larger: they would be neighbours, with
even places. -/
theorem NearestMagnitude.place_le {q : ℚ} {s : Nat} {e : Int}
    (h : NearestMagnitude q significand exponent) (h' : NearestMagnitude q s e) :
    place s e ≤ place significand exponent := by
  by_contra hnot
  have hplace := not_le.mp hnot
  have hlt := (h.canonical.place_lt_iff h'.canonical).mp hplace
  have htie := le_antisymm (h'.nearest _ _ h.canonical) (h.nearest _ _ h'.canonical)
  have heven := even_place (h.even _ _ h'.canonical htie hlt.ne') exponent
  have heven' := even_place (h'.even _ _ h.canonical htie.symm hlt.ne) e
  obtain ⟨s'', e'', hcanonical, hnext⟩ := exists_canonical_of_place
    (lt_of_le_of_lt (Nat.succ_le_of_lt hplace) h'.canonical.place_lt)
  have hlow := (h.canonical.place_lt_iff hcanonical).mp (by omega)
  rcases (Nat.succ_le_of_lt hplace).lt_or_eq with hbetween | hsucc
  · -- What lies between the two is nearer than both.
    have hhigh := (hcanonical.place_lt_iff h'.canonical).mp (by omega)
    have hnearest := h.nearest _ _ hcanonical
    have hmiddle : q - significand * 2 ^ exponent = s * 2 ^ e - q := by
      rcases abs_eq_abs.mp htie with heq | heq
      · exact absurd hlt (by linarith)
      · linarith
    rw [abs_of_nonpos (by linarith), le_abs] at hnearest
    rcases hnearest with hnearest | hnearest <;> linarith
  · rw [← hsucc] at heven'
    exact Nat.even_add_one.mp heven' heven

theorem NearestMagnitude.unique {q : ℚ} {s : Nat} {e : Int}
    (h : NearestMagnitude q significand exponent) (h' : NearestMagnitude q s e) :
    significand = s ∧ exponent = e :=
  h.canonical.place_inj h'.canonical
    (Nat.le_antisymm (h'.place_le h) (h.place_le h'))

variable {r : Ratio}

/-- Infinity begins half-way. -/
theorem nearestBits_of_overflow (h : overflow ≤ r.value) : nearestBits r = infinityBits := by
  refine le_antisymm (nearestBits_le r) ?_
  have hlimit : nearestBits (magnitude (2 ^ 54 - 1) 970) = infinityBits := by
    decide +kernel
  have hvalue : (magnitude (2 ^ 54 - 1) 970).value = overflow := by
    rw [value_magnitude, overflow]
    norm_num
  rw [← hlimit]
  exact nearestBits_mono (hvalue.trans_le h)

/-- The doubles that lie closer together than those around a quotient are below it, and so is the
smallest significand that these have. -/
theorem below_of_lt_spacing (h : 0 < r.num) (hcanonical : Canonical significand exponent)
    (hlt : exponent < spacing r) :
    (significand : ℚ) * 2 ^ exponent < exponentWeight * 2 ^ spacing r ∧
      (exponentWeight : ℚ) * 2 ^ spacing r ≤ r.value := by
  have hlow := hcanonical.low
  constructor
  · calc (significand : ℚ) * 2 ^ exponent < 2 ^ (53 : Int) * 2 ^ exponent := by
          gcongr
          exact hcanonical.cast_lt
      _ ≤ 2 ^ (53 : Int) * 2 ^ (spacing r - 1) := by
          gcongr
          · norm_num
          · omega
      _ = exponentWeight * 2 ^ spacing r := by
          rw [exponentWeight_cast, ← zpow_add₀ two_ne_zero, ← zpow_add₀ two_ne_zero]
          congr 1
          omega
  · have hlog : 52 + spacing r = r.log2 := by
      simp only [spacing] at hlt ⊢
      omega
    rw [exponentWeight_cast, ← zpow_add₀ two_ne_zero, hlog]
    exact (Ratio.log2_spec h).1

/-- **Rounding in the spacing around a quotient** is rounding among all doubles: those that lie
further apart are whole numbers of spacings, and those that lie closer together are too far
below. -/
theorem nearest_round (h : 0 < r.num) (hcanonical : Canonical significand exponent) :
    |((r.scale2 (-spacing r)).round : ℚ) * 2 ^ spacing r - r.value| ≤
        |(significand : ℚ) * 2 ^ exponent - r.value| ∧
      (|(significand : ℚ) * 2 ^ exponent - r.value| =
          |((r.scale2 (-spacing r)).round : ℚ) * 2 ^ spacing r - r.value| →
        (significand : ℚ) * 2 ^ exponent ≠ (r.scale2 (-spacing r)).round * 2 ^ spacing r →
        Even (r.scale2 (-spacing r)).round) := by
  have hrounds := (r.scale2 (-spacing r)).rounds_round
  rw [Ratio.value_scale2] at hrounds
  have hpos : (0 : ℚ) < 2 ^ spacing r := by positivity
  -- Distances are as many spacings as they are when measured in spacings.
  have hscaled (k : ℚ) :
      |k * 2 ^ spacing r - r.value| = |r.value * 2 ^ (-spacing r) - k| * 2 ^ spacing r := by
    have hvalue : r.value = r.value * 2 ^ (-spacing r) * 2 ^ spacing r := by
      rw [mul_assoc, ← zpow_add₀ two_ne_zero, neg_add_cancel, zpow_zero, mul_one]
    conv_lhs => rw [hvalue, ← sub_mul, abs_mul, abs_sub_comm, abs_of_pos hpos]
  generalize (r.scale2 (-spacing r)).round = n at hrounds
  rcases le_or_gt (spacing r) exponent with hle | hlt
  · obtain ⟨steps, hsteps⟩ := Int.eq_ofNat_of_zero_le (by omega : 0 ≤ exponent - spacing r)
    have hwhole : (significand : ℚ) * 2 ^ exponent =
        ((significand * 2 ^ steps : Nat) : ℚ) * 2 ^ spacing r := by
      have hexponent : exponent = (steps : Int) + spacing r := by
        omega
      rw [hexponent, zpow_add₀ two_ne_zero, zpow_natCast]
      push_cast
      ring
    obtain ⟨hnearest, heven⟩ := hrounds.nearest (significand * 2 ^ steps)
    rw [hwhole, hscaled, hscaled]
    refine ⟨mul_le_mul_of_nonneg_right hnearest hpos.le, fun htie hne => heven (mul_right_cancel₀ hpos.ne' htie) ?_⟩
    rintro rfl
    exact hne rfl
  · obtain ⟨hbelow, hvalue⟩ := below_of_lt_spacing h hcanonical hlt
    have hweight : |(n : ℚ) * 2 ^ spacing r - r.value| ≤
        |(exponentWeight : ℚ) * 2 ^ spacing r - r.value| := by
      rw [hscaled, hscaled]
      exact mul_le_mul_of_nonneg_right (hrounds.nearest exponentWeight).1 hpos.le
    have hnearer : |(exponentWeight : ℚ) * 2 ^ spacing r - r.value| <
        |(significand : ℚ) * 2 ^ exponent - r.value| := by
      rw [abs_of_nonpos (by linarith), abs_of_nonpos (by linarith)]
      linarith
    exact ⟨(hweight.trans_lt hnearer).le, fun htie => absurd htie (hweight.trans_lt hnearer).ne'⟩

/-- So many spacings are a double, one with the next exponent if there are twice as many as the
smallest significand. -/
theorem exists_canonical_of_spacing {n : Nat} (hlow : -1074 ≤ exponent) (hhigh : exponent ≤ 971)
    (hle : n ≤ 2 * exponentWeight) (hfull : exponent = -1074 ∨ exponentWeight ≤ n)
    (hlast : exponent = 971 → n ≠ 2 * exponentWeight) :
    ∃ s e, Canonical s e ∧ place s e = (exponent + 1074).toNat * exponentWeight + n ∧
      (s : ℚ) * 2 ^ e = n * 2 ^ exponent ∧ (Even n → Even s) := by
  rcases hle.lt_or_eq with hlt | rfl
  · exact ⟨n, exponent, ⟨hlow, hhigh, hlt, hfull⟩, rfl, rfl, id⟩
  · have hlast' : exponent ≠ 971 := fun h => hlast h rfl
    refine ⟨exponentWeight, exponent + 1, ⟨by omega, by omega, by decide, .inr le_rfl⟩, ?_, ?_, ?_⟩
    · simp only [place, exponentWeight]
      omega
    · rw [zpow_add₀ two_ne_zero, zpow_one]
      push_cast
      ring
    · exact fun _ => by decide

/-- Twice the smallest significand, in the largest spacing, is rounded up from half-way. -/
theorem overflow_le_of_round (h : (r.scale2 (-971)).round = 2 * exponentWeight) :
    overflow ≤ r.value := by
  have hrounds := (r.scale2 (-971)).rounds_round
  rw [h, Ratio.value_scale2, Rounds, two_mul_exponentWeight_cast] at hrounds
  obtain ⟨hlow, -⟩ := abs_le.mp hrounds.1
  have hhalf : (2 : ℚ) ^ (53 : Int) - 1 / 2 ≤ r.value * 2 ^ (-971 : Int) := by linarith
  have hspacing : (2 : ℚ) ^ (971 : Int) = 2 ^ (970 : Int) * 2 := zpow_add_one₀ two_ne_zero 970
  calc overflow = ((2 : ℚ) ^ (53 : Int) - 1 / 2) * 2 ^ (971 : Int) := by
        rw [overflow, hspacing]
        ring
    _ ≤ r.value * 2 ^ (-971 : Int) * 2 ^ (971 : Int) :=
        mul_le_mul_of_nonneg_right hhalf (by positivity)
    _ = r.value := by
        rw [mul_assoc, ← zpow_add₀ two_ne_zero, neg_add_cancel, zpow_zero, mul_one]

/-- Below the limit doubles are no further apart than the largest ones. -/
theorem spacing_le_of_lt_overflow (h : 0 < r.num) (hrange : r.value < overflow) :
    spacing r ≤ 971 := by
  have hlimit : overflow < (2 : ℚ) ^ (1024 : Int) := by
    calc overflow < 2 ^ (54 : Int) * 2 ^ (970 : Int) := by
          unfold overflow
          gcongr
          exact sub_one_lt _
      _ = (2 : ℚ) ^ (1024 : Int) := (zpow_add₀ two_ne_zero _ _).symm
  have hlog : r.log2 < 1024 :=
    (zpow_lt_zpow_iff_right₀ (one_lt_two (α := ℚ))).mp
      ((Ratio.log2_spec h).1.trans_lt (hrange.trans hlimit))
  simp only [spacing]
  omega

/-- **The nearest magnitude** is the one whose bits are found. -/
theorem nearestMagnitude_nearestBits (hrange : r.value < overflow) :
    ∃ s e, NearestMagnitude r.value s e ∧ nearestBits r = place s e := by
  rcases Nat.eq_zero_or_pos r.num with hzero | hpos
  · have hvalue : r.value = 0 := Ratio.value_eq_zero_iff.mpr hzero
    refine ⟨0, -1074, ⟨⟨by decide, by decide, by decide, .inl rfl⟩, hrange, ?_, ?_⟩,
      nearestBits_of_zero hzero⟩
    · intro s e _
      rw [hvalue, Nat.cast_zero, zero_mul, sub_zero, abs_zero]
      exact abs_nonneg _
    · exact fun _ _ _ _ _ => by decide
  · have hlow : -1074 ≤ spacing r := le_max_right _ _
    have hround := round_spacing_le hpos
    have hfull : spacing r = -1074 ∨ exponentWeight ≤ (r.scale2 (-spacing r)).round :=
      hlow.eq_or_lt.imp Eq.symm (le_round_spacing hpos)
    have hlast : spacing r = 971 → (r.scale2 (-spacing r)).round ≠ 2 * exponentWeight := by
      intro hspacing hround
      rw [hspacing] at hround
      exact absurd (overflow_le_of_round hround) (not_le.mpr hrange)
    obtain ⟨s, e, hcanonical, hplace, hvalue, heven⟩ :=
      exists_canonical_of_spacing hlow (spacing_le_of_lt_overflow hpos hrange) hround hfull hlast
    refine ⟨s, e, ⟨hcanonical, hrange, ?_, ?_⟩, ?_⟩
    · intro s' e' h'
      rw [hvalue]
      exact (nearest_round hpos h').1
    · intro s' e' h' htie hne
      rw [hvalue] at htie hne
      exact heven ((nearest_round hpos h').2 htie hne)
    · rw [nearestBits_of_pos hpos, ← hplace]
      exact min_eq_right hcanonical.place_lt.le

/-! ## §3 The nearest double -/

/-- A double is what a magnitude with a sign is rounded to. -/
inductive Nearest (negative : Bool) (q : ℚ) (x : Float) : Prop
  | finite {significand : Nat} {exponent : Int}
      (hx : Binary.ofFloat x = .finite negative significand exponent)
      (h : NearestMagnitude q significand exponent)
  | infinite (hx : Binary.ofFloat x = .infinite negative) (h : overflow ≤ q)

theorem Nearest.ne_nan {q : ℚ} {x : Float} (h : Nearest negative q x) :
    Binary.ofFloat x ≠ .nan := by
  cases h with
  | finite hx _ => simp [hx]
  | infinite hx _ => simp [hx]

/-- No two doubles are nearest. -/
theorem Nearest.unique {q : ℚ} {x y : Float} (hx : Nearest negative q x)
    (hy : Nearest negative q y) : x = y := by
  cases hx with
  | finite hx h =>
    cases hy with
    | finite hy h' =>
      obtain ⟨rfl, rfl⟩ := h.unique h'
      rw [← ofSignedBits_place hx, ← ofSignedBits_place hy]
    | infinite _ h' => exact absurd h.inRange (not_lt.mpr h')
  | infinite hx h =>
    cases hy with
    | finite _ h' => exact absurd h'.inRange (not_lt.mpr h)
    | infinite hy _ => rw [← ofSignedBits_infinity hx, ← ofSignedBits_infinity hy]

/-- **The nearest double** is the one whose bits are found. -/
theorem nearest_ofSignedBits (negative : Bool) (r : Ratio) :
    Nearest negative r.value (ofSignedBits negative (nearestBits r)) := by
  rcases lt_or_ge r.value overflow with hrange | hrange
  · obtain ⟨s, e, hnearest, hbits⟩ := nearestMagnitude_nearestBits hrange
    rw [hbits]
    exact .finite (hnearest.canonical.ofFloat_ofSignedBits negative) hnearest
  · rw [nearestBits_of_overflow hrange]
    exact .infinite (ofFloat_infinity negative) hrange

/-- A decimal is read as the nearest double. -/
theorem eq_toFloat_iff {d : Decimal} {x : Float} :
    x = d.toFloat negative ↔ Nearest negative (d.digits * 10 ^ d.exponent) x := by
  have hnearest : Nearest negative (d.digits * 10 ^ d.exponent) (d.toFloat negative) := by
    rw [← Decimal.value_ratio, Decimal.toFloat, Decimal.bits_eq]
    exact nearest_ofSignedBits negative d.ratio
  constructor
  · rintro rfl
    exact hnearest
  · exact fun h => h.unique hnearest

end SceneScript.Number
