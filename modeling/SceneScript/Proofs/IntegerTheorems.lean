/-
SceneScript.Proofs.IntegerTheorems — integers that are written as whole numbers.

The formats `%d` and `%i` write a whole number, and they ask for a number first. So an
integer of sixty-four bits is the nearest double before it is written, and what is
written is that double without its fraction, or the end of the range if it lies beyond.
The integer itself is written exactly if it is a double (`toInt64_ofInt_iff`), which
takes fifty-three bits and a power of two, or if it is the largest, which is rounded up
and cut off again.

`integer_writing` says so of every engine on which `init1` has succeeded. The text of
an integer, on the other hand, is always read as that integer.
-/
import SceneScript.Proofs.ReadingTheorems
import SceneScript.Proofs.RenderTheorems

namespace SceneScript

namespace Number

variable {negative : Bool} {significand : Nat} {exponent : Int} {x : Float} {n : Int64}

/-! ## §1 Integers that are doubles -/

/-- So few bits, times a power of two that is not too large, are a double. -/
theorem exists_canonical_of_shift {s k : Nat} (hs : s < 2 ^ 53) (hk : k ≤ 971) :
    ∃ significand exponent, Canonical significand exponent ∧
      (significand : ℚ) * 2 ^ exponent = ((s * 2 ^ k : Nat) : ℚ) := by
  rcases Nat.eq_zero_or_pos s with rfl | hpos
  · exact ⟨0, -1074, ⟨by decide, by decide, by decide, .inl rfl⟩, by simp⟩
  · have hlog : s.log2 ≤ 52 := by
      have hlt := (Nat.log2_lt hpos.ne').mpr hs
      omega
    have hlow := Nat.log2_self_le hpos.ne'
    have hhigh : s < 2 ^ (s.log2 + 1) := Nat.lt_log2_self
    -- The significand is moved up until it fills its bits.
    obtain ⟨shift, hshift⟩ := Nat.exists_eq_add_of_le hlog
    refine ⟨s * 2 ^ shift, k - shift, ⟨by omega, by omega, ?_, .inr ?_⟩, ?_⟩
    · calc s * 2 ^ shift < 2 ^ (s.log2 + 1) * 2 ^ shift := by gcongr
        _ = 2 * exponentWeight := by
          rw [← Nat.pow_add, Nat.add_right_comm, ← hshift]
          decide
    · calc exponentWeight = 2 ^ s.log2 * 2 ^ shift := by
            rw [← Nat.pow_add, ← hshift]
            decide
        _ ≤ s * 2 ^ shift := by gcongr
    · rw [Nat.cast_mul, Nat.cast_mul, Nat.cast_pow, Nat.cast_pow, mul_assoc, Nat.cast_ofNat,
        ← zpow_natCast, ← zpow_natCast, ← zpow_add₀ two_ne_zero]
      congr 2
      omega

/-- A double of a sign and an exponent that is a whole number. -/
theorem whole_of_finite (h : Canonical significand exponent) {a : Nat}
    (ha : (magnitude significand exponent).floor = a) : ∃ s k, a = s * 2 ^ k ∧ s < 2 ^ 53 := by
  have hlt : significand < 2 ^ 53 := h.lt
  rcases le_or_gt 0 exponent with hnonneg | hneg
  · obtain ⟨k, rfl⟩ := Int.eq_ofNat_of_zero_le hnonneg
    refine ⟨significand, k, ?_, hlt⟩
    have hvalue : (magnitude significand k).value = ((significand * 2 ^ k : Nat) : ℚ) := by
      rw [value_magnitude, zpow_natCast]
      push_cast
      rfl
    rw [← ha, Ratio.floor_eq, hvalue, Nat.floor_natCast]
  · refine ⟨a, 0, by simp, ?_⟩
    have hle : (magnitude significand exponent).value ≤ significand := by
      rw [value_magnitude]
      exact mul_le_of_le_one_right (Nat.cast_nonneg _)
        (zpow_le_one_of_nonpos₀ one_le_two hneg.le)
    have hfloor : a ≤ significand := by
      rw [← ha, Ratio.floor_eq]
      exact Nat.floor_le_of_le hle
    omega

theorem toInt64_of_finite (h : Binary.ofFloat x = .finite negative significand exponent) :
    toInt64 x = Int64.ofInt (max Int64.minValue.toInt (min Int64.maxValue.toInt
      (if negative then -((magnitude significand exponent).floor : Int)
        else (magnitude significand exponent).floor))) := by
  rw [toInt64, h]

/-- The double nearest to an integer of sixty-four bits. -/
theorem nearest_ofInt (n : Int) :
    Nearest (decide (n < 0)) n.natAbs (ofInt n) := by
  have hnearest := nearest_ofSignedBits (decide (n < 0)) (Ratio.ofNat n.natAbs)
  rwa [Ratio.value_ofNat] at hnearest

theorem natAbs_toInt_le (n : Int64) : n.toInt.natAbs ≤ 2 ^ 63 := by
  have hlow := n.minValue_le_toInt
  have hhigh := n.toInt_lt
  have hmin : Int64.minValue.toInt = -2 ^ 63 := rfl
  omega

/-- It is finite. -/
theorem exists_finite_ofInt (n : Int64) : ∃ significand exponent,
    Canonical significand exponent ∧
    Binary.ofFloat (ofInt n.toInt) = .finite (decide (n.toInt < 0)) significand exponent := by
  cases nearest_ofInt n.toInt with
  | finite hx h => exact ⟨_, _, h.canonical, hx⟩
  | infinite _ h =>
    have hle : (n.toInt.natAbs : ℚ) ≤ 2 ^ (63 : Int) := by exact_mod_cast natAbs_toInt_le n
    have hlt : (2 : ℚ) ^ (63 : Int) < overflow := by
      calc (2 : ℚ) ^ (63 : Int) < 1 * 2 ^ (970 : Int) := by
            rw [one_mul]
            exact zpow_lt_zpow_right₀ one_lt_two (by decide)
        _ ≤ overflow := by
            unfold overflow
            gcongr
            norm_num
    exact absurd (h.trans hle) (not_le.mpr hlt)

/-- What is clipped to the range of the integers and is not at its ends has not been clipped. -/
theorem eq_of_clip {v : Int} (h : Int64.ofInt (max Int64.minValue.toInt
    (min Int64.maxValue.toInt v)) = n) (hmin : n ≠ Int64.minValue) (hmax : n ≠ Int64.maxValue) :
    v = n.toInt := by
  have hlow : Int64.minValue.toInt ≤ Int64.maxValue.toInt := by decide
  have hclip : max Int64.minValue.toInt (min Int64.maxValue.toInt v) = n.toInt := by
    have hhigh := Int.lt_add_one_of_le (max_le hlow (min_le_left Int64.maxValue.toInt v))
    rw [← h]
    exact (Int64.toInt_ofInt_of_le (le_max_left _ _) hhigh).symm
  have hmin' : n.toInt ≠ Int64.minValue.toInt := fun heq => hmin (Int64.toInt_inj.mp heq)
  have hmax' : n.toInt ≠ Int64.maxValue.toInt := fun heq => hmax (Int64.toInt_inj.mp heq)
  omega

/-- An integer is its magnitude with its sign. -/
theorem signed_natAbs (n : Int) :
    (if decide (n < 0) = true then -(n.natAbs : Int) else n.natAbs) = n := by
  simp only [decide_eq_true_eq]
  split <;> omega

/-- An integer of few enough bits comes back from the double that is made of it. -/
theorem toInt64_ofInt_of_shift {s k : Nat} (ha : n.toInt.natAbs = s * 2 ^ k) (hs : s < 2 ^ 53) :
    toInt64 (ofInt n.toInt) = n := by
  obtain ⟨k', hk', ha'⟩ : ∃ k' ≤ 971, n.toInt.natAbs = s * 2 ^ k' := by
    rcases Nat.eq_zero_or_pos s with rfl | hpos
    · exact ⟨0, by decide, by rw [ha, Nat.zero_mul, Nat.zero_mul]⟩
    · have hle : 2 ^ k ≤ 2 ^ 63 :=
        (Nat.le_mul_of_pos_left _ hpos).trans (ha ▸ natAbs_toInt_le n)
      have hk := (Nat.pow_le_pow_iff_right (by decide)).mp hle
      exact ⟨k, by omega, ha⟩
  obtain ⟨significand, exponent, hcanonical, hvalue⟩ := exists_canonical_of_shift hs hk'
  rw [← ha', ← value_magnitude] at hvalue
  have hbits : nearestBits (Ratio.ofNat n.toInt.natAbs) = place significand exponent := by
    rw [← hcanonical.nearestBits_magnitude]
    exact nearestBits_congr ((Ratio.value_ofNat _).trans hvalue.symm)
  have hfinite : Binary.ofFloat (ofInt n.toInt) =
      .finite (decide (n.toInt < 0)) significand exponent := by
    rw [ofInt, hbits]
    exact hcanonical.ofFloat_ofSignedBits _
  have hfloor : (magnitude significand exponent).floor = n.toInt.natAbs := by
    rw [Ratio.floor_eq, hvalue, Nat.floor_natCast]
  have hlow := n.minValue_le_toInt
  have hhigh : n.toInt ≤ Int64.maxValue.toInt := Int.le_of_lt_add_one n.toInt_lt
  rw [toInt64_of_finite hfinite, hfloor, signed_natAbs, min_eq_right hhigh, max_eq_right hlow,
    Int64.ofInt_toInt]

/-- **An integer that has been a double is itself** if it takes few enough bits, or if it is the
largest. -/
theorem toInt64_ofInt_iff : toInt64 (ofInt n.toInt) = n ↔
    n = Int64.maxValue ∨ ∃ s k, n.toInt.natAbs = s * 2 ^ k ∧ s < 2 ^ 53 := by
  constructor
  · intro h
    by_cases hmax : n = Int64.maxValue
    · exact .inl hmax
    by_cases hmin : n = Int64.minValue
    · subst hmin
      exact .inr ⟨1, 63, by decide, by decide⟩
    obtain ⟨significand, exponent, hcanonical, hfinite⟩ := exists_finite_ofInt n
    rw [toInt64_of_finite hfinite] at h
    have hfloor := eq_of_clip h hmin hmax
    refine .inr (whole_of_finite hcanonical ?_)
    simp only [decide_eq_true_eq] at hfloor
    split at hfloor <;> omega
  · rintro (rfl | ⟨s, k, ha, hs⟩)
    · decide
    · exact toInt64_ofInt_of_shift ha hs

end Number

namespace Format

open Number

/-! ## §2 The two formats -/

/-- A whole number is written as its text. -/
theorem apply_wholeFormat {p : Payload} {x : Float} (hnumber : p.toNumber? = some x)
    {format : String} (hformat : format ∈ ["%d", "%i"]) (caller : String) :
    Format.apply caller format p = .ok (String.ofList (intText (toInt64 x).toInt)) := by
  have hdefault : (none : Option Nat).getD defaultPrecision ≤ maxSize := by decide
  simp only [List.mem_cons, List.not_mem_nil, or_false] at hformat
  rcases hformat with rfl | rfl
  · show Format.apply caller (numberFormat none .d) p = _
    exact apply_numberFormat_of_body hnumber (by decide) hdefault rfl caller
  · show Format.apply caller (numberFormat none .i) p = _
    exact apply_numberFormat_of_body hnumber (by decide) hdefault rfl caller

end Format

namespace Engine

open Number Standard

/-! ## §3 Calls -/

/-- The text of an integer, as the answer of a call. -/
def textAnswer (n : Int64) : Except Failure Value :=
  .ok (.owned (.text (String.ofList (intText n.toInt))))

/-- Different integers have different texts. -/
theorem textAnswer_inj {m n : Int64} (h : textAnswer m = textAnswer n) : m = n := by
  have htext : String.ofList (intText m.toInt) = String.ofList (intText n.toInt) := by
    have hvalue := Except.ok.inj h
    exact Payload.text.inj (congrArg Value.payload hvalue)
  have hread := numberIn_intText m
  rw [htext, numberIn_intText n] at hread
  exact (Payload.integer.inj (Except.ok.inj hread)).symm

/-- What is written for an integer as a whole number. -/
structure WritesWhole (engine : Engine) (clock : Float) (memory : Memory) (files : Tree)
    (n : Int64) : Prop where
  /-- It is the nearest double that is written, cut off and brought into the range. -/
  nearest : ∃ x, Nearest (decide (n.toInt < 0)) n.toInt.natAbs x ∧
    ∀ format ∈ ["%d", "%i"],
      WritesTo engine clock memory files format (.integer n) (textAnswer (toInt64 x))
  /-- So it is the integer only if that is a double or the largest. -/
  exact_iff : ∀ format ∈ ["%d", "%i"],
    WritesTo engine clock memory files format (.integer n) (textAnswer n) ↔
      n = Int64.maxValue ∨ ∃ s k, n.toInt.natAbs = s * 2 ^ k ∧ s < 2 ^ 53
  /-- The text of the integer is read as the integer. -/
  read : ReadsTo engine clock memory files (String.ofList (intText n.toInt))
    (.ok (.owned (.integer n)))

variable {config : Config} {events : List Event}

theorem writesTo_wholeFormat (hinit : (run { config := config } events).initialized = true)
    (clock : Float) (memory : Memory) (files : Tree) (n : Int64) {format : String}
    (hformat : format ∈ ["%d", "%i"]) :
    WritesTo (run { config := config } events) clock memory files format (.integer n)
      (textAnswer (toInt64 (ofInt n.toInt))) := by
  intro args frame form value p hargs hp htext hvalue
  rw [call_createString hinit hargs hp htext hvalue, Format.apply_wholeFormat rfl hformat]
  rfl

/-- **Integers are written through doubles** by `%d` and `%i`, on every engine on which `init1` has
succeeded, and read without. -/
theorem integer_writing (config : Config) (events : List Event)
    (hinit : (run { config := config } events).initialized = true) (clock : Float)
    (memory : Memory) (files : Tree) (n : Int64) :
    WritesWhole (run { config := config } events) clock memory files n where
  nearest := ⟨ofInt n.toInt, nearest_ofInt n.toInt,
    fun _ hformat => writesTo_wholeFormat hinit clock memory files n hformat⟩
  exact_iff format hformat := by
    have hwritten := writesTo_wholeFormat hinit clock memory files n hformat
    rw [← toInt64_ofInt_iff]
    constructor
    · exact fun h => textAnswer_inj (hwritten.unique h)
    · intro h
      rwa [h] at hwritten
  read := by
    rw [← readAnswer_eq_ok_iff.mpr ⟨_, numberIn_intText n, rfl⟩]
    exact readsTo_readAnswer hinit clock memory files _

/-- The smallest integer, on an engine on which nothing but `init1` has happened. -/
theorem integer_writing_min :
    (run {} [.signal .init1]).initialized = true ∧
      WritesWhole (run {} [.signal .init1]) 0 .usual {} Int64.minValue :=
  ⟨initialized_run_init1,
    integer_writing {} [.signal .init1] initialized_run_init1 0 .usual {} Int64.minValue⟩

/-- `2 ^ 53 + 1` takes fifty-four bits, and its neighbour is written. -/
theorem integer_text_rounded :
    let answer := ((run {} [.signal .init1]).call 0 .usual "create_string_fa" (.positional 2)
      ⟨[.ready (.text "%d"), .ready (.integer 9007199254740993)]⟩ {}).1
    answer = .ok (.owned (.text "9007199254740992")) ∧
      answer ≠ .ok (.owned (.text "9007199254740993")) := by
  intro answer
  have hrounded : toInt64 (ofInt (Int64.toInt 9007199254740993)) = 9007199254740992 := by
    decide +kernel
  have htext : answer = textAnswer (toInt64 (ofInt (Int64.toInt 9007199254740993))) :=
    writesTo_wholeFormat initialized_run_init1 0 .usual {} 9007199254740993 (by simp)
      (.positional 2) _ ⟨0, none⟩ ⟨1, none⟩ (.text "%d") rfl rfl rfl rfl
  rw [hrounded] at htext
  have hwritten : answer = .ok (.owned (.text "9007199254740992")) := htext
  refine ⟨hwritten, fun h => ?_⟩
  rw [hwritten] at h
  have hsame := Payload.text.inj (congrArg Value.payload (Except.ok.inj h))
  exact absurd hsame (by decide)

end Engine

end SceneScript
