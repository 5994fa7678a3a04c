/-
SceneScript.Proofs.NumeralTheorems — what is written positionally is read back.

A decimal is written with its digits, and with zeros after them or a point among
or before them, as its exponent says (`positional`). Each of the two readers takes
one of these forms apart again: a whole number is its digits (`readNat?_digits`),
and a real number with a point is the same decimal, digit for digit and place for
place, whatever zeros stand in front (`readDecimal?_positional`).

`numberIn_whole` and `numberIn_real` are the reading of a whole text, with its sign:
a text without a point has to fit in sixty-four bits, a text with a point does not.
-/
import SceneScript.Proofs.DecimalTheorems
import SceneScript.Standard.Strings
import Mathlib.Data.List.TakeWhile

namespace SceneScript.Number

/-! ## §1 Runs of digits -/

/-- A run of digits, at least one. -/
structure Digits (cs : List Char) : Prop where
  ne_nil : cs ≠ []
  isDigit : ∀ c ∈ cs, c.isDigit

theorem digits_digitsOf (n : Nat) : Digits (digitsOf n) where
  ne_nil := Nat.toDigits_ne_nil
  isDigit _ hc := Nat.isDigit_of_mem_toDigits (by decide) (by decide) hc

theorem isDigit_of_mem_replicate {count : Nat} {c : Char} (hc : c ∈ List.replicate count '0') :
    c.isDigit := by
  rw [List.eq_of_mem_replicate hc]
  decide

theorem Digits.append_zeros {cs : List Char} (h : Digits cs) (zeros : Nat) :
    Digits (cs ++ List.replicate zeros '0') where
  ne_nil := List.append_ne_nil_of_left_ne_nil h.ne_nil _
  isDigit c hc := (List.mem_append.mp hc).elim (h.isDigit c) isDigit_of_mem_replicate

/-- Zeros in front do not count. -/
theorem ofDigitChars_zeros_append (zeros : Nat) (cs : List Char) :
    Nat.ofDigitChars 10 (List.replicate zeros '0' ++ cs) 0 = Nat.ofDigitChars 10 cs 0 := by
  rw [Nat.ofDigitChars_append, Nat.ofDigitChars_replicate_zero, Nat.mul_zero]

/-- A run ends where something else comes. -/
theorem takeWhile_run_append {p : Char → Bool} {run rest : List Char} (h : ∀ c ∈ run, p c)
    (hrest : ∀ c ∈ rest.head?, ¬ p c) : (run ++ rest).takeWhile p = run := by
  rw [List.takeWhile_append_of_pos h]
  cases rest with
  | nil => simp
  | cons c rest => rw [List.takeWhile_cons_of_neg (hrest c rfl), List.append_nil]

theorem dropWhile_run_append {p : Char → Bool} {run rest : List Char} (h : ∀ c ∈ run, p c)
    (hrest : ∀ c ∈ rest.head?, ¬ p c) : (run ++ rest).dropWhile p = rest := by
  rw [List.dropWhile_append_of_pos h]
  cases rest with
  | nil => simp
  | cons c rest => rw [List.dropWhile_cons_of_neg (hrest c rfl)]

/-- And something else does come, if anything. -/
theorem not_of_head?_dropWhile (p : Char → Bool) (cs : List Char) :
    ∀ c ∈ (cs.dropWhile p).head?, ¬ p c := by
  intro c hc
  have hhead := List.head?_dropWhile_not p cs
  rw [Option.mem_def.mp hc] at hhead
  simpa using hhead

theorem readNat?_eq_some_iff {cs : List Char} {n : Nat} :
    readNat? cs = some n ↔ Digits cs ∧ n = Nat.ofDigitChars 10 cs 0 := by
  unfold readNat?
  split
  · next h =>
    have hdigits : Digits cs := by
      refine ⟨fun hnil => ?_, fun c hc => List.all_eq_true.mp h.2 c hc⟩
      subst hnil
      cases h.1
    simp [hdigits, eq_comm]
  · next h =>
    have hnot : ¬ Digits cs := by
      refine fun hdigits => h ⟨?_, List.all_eq_true.mpr hdigits.isDigit⟩
      rw [List.isEmpty_eq_false_iff]
      exact hdigits.ne_nil
    simp [hnot]

/-- Digits and zeros after them. -/
theorem readNat?_digits (n zeros : Nat) :
    readNat? (digitsOf n ++ List.replicate zeros '0') = some (n * 10 ^ zeros) := by
  refine readNat?_eq_some_iff.mpr ⟨(digits_digitsOf n).append_zeros zeros, ?_⟩
  rw [Nat.ofDigitChars_append, ofDigitChars_digitsOf, Nat.ofDigitChars_replicate_zero,
    Nat.mul_comm]

/-! ## §2 Digits with a point -/

variable {whole point fraction tail : List Char} {e : Int}

/-- An exponent is told from the digits before it by its letter. -/
theorem tail_cases (h : readExponent? tail = some e) :
    tail = [] ∨ ∃ rest, tail = 'e' :: rest ∨ tail = 'E' :: rest := by
  cases tail with
  | nil => exact .inl rfl
  | cons c rest =>
    rw [readExponent?] at h
    split at h
    · next hletter =>
      rcases hletter with rfl | rfl
      · exact .inr ⟨rest, .inl rfl⟩
      · exact .inr ⟨rest, .inr rfl⟩
    · cases h

theorem tail_head (h : readExponent? tail = some e) : ∀ c ∈ tail.head?, ¬ c.isDigit := by
  obtain rfl | ⟨rest, rfl | rfl⟩ := tail_cases h <;> simp

/-- A real number is read from its parts: digits, a point and digits, or no point, and an exponent
or none. -/
theorem readDecimal?_of_parts (hwhole : ∀ c ∈ whole, c.isDigit)
    (hfraction : ∀ c ∈ fraction, c.isDigit) (hdigits : whole ++ fraction ≠ [])
    (hpoint : point = '.' :: fraction ∨ point = [] ∧ fraction = [])
    (htail : readExponent? tail = some e) :
    readDecimal? (whole ++ (point ++ tail)) =
      some ⟨Nat.ofDigitChars 10 (whole ++ fraction) 0, e - fraction.length⟩ := by
  have hnonempty : ¬ (whole.isEmpty ∧ fraction.isEmpty) := fun h =>
    hdigits (by rw [List.isEmpty_iff.mp h.1, List.isEmpty_iff.mp h.2, List.append_nil])
  have hhead := tail_head htail
  unfold readDecimal?
  rcases hpoint with rfl | ⟨rfl, rfl⟩
  · have hnext : ∀ c ∈ ('.' :: (fraction ++ tail)).head?, ¬ c.isDigit := by simp
    rw [List.cons_append, takeWhile_run_append hwhole hnext, dropWhile_run_append hwhole hnext]
    simp only [takeWhile_run_append hfraction hhead, dropWhile_run_append hfraction hhead,
      if_neg hnonempty, htail, Option.map_some]
  · rw [List.nil_append, takeWhile_run_append hwhole hhead, dropWhile_run_append hwhole hhead]
    obtain rfl | ⟨rest, rfl | rfl⟩ := tail_cases htail
    all_goals exact (if_neg hnonempty).trans (congrArg (Option.map _) htail)

/-- A point with digits before and after it. -/
theorem readDecimal?_point (hwhole : Digits whole) (hfraction : ∀ c ∈ fraction, c.isDigit) :
    readDecimal? (whole ++ '.' :: fraction) =
      some ⟨Nat.ofDigitChars 10 (whole ++ fraction) 0, -fraction.length⟩ := by
  have hdigits : whole ++ fraction ≠ [] := List.append_ne_nil_of_left_ne_nil hwhole.ne_nil _
  have hnone : readExponent? [] = some 0 := rfl
  have hread := readDecimal?_of_parts hwhole.isDigit hfraction hdigits (.inl rfl) hnone
  rwa [List.append_nil, Int.zero_sub] at hread

/-- Digits with more places than there are before the point are written with zeros between. -/
theorem positional_negSucc {digits : List Char} (h : Digits digits) (k : Nat) :
    ∃ whole fraction, positional digits (.negSucc k) = whole ++ '.' :: fraction ∧
      Digits whole ∧ (∀ c ∈ fraction, c.isDigit) ∧ fraction.length = k + 1 ∧
      Nat.ofDigitChars 10 (whole ++ fraction) 0 = Nat.ofDigitChars 10 digits 0 := by
  unfold positional
  dsimp only
  split
  · next hlt =>
    refine ⟨_, _, rfl, ⟨?_, fun c hc => h.isDigit c (List.mem_of_mem_take hc)⟩,
      fun c hc => h.isDigit c (List.mem_of_mem_drop hc), ?_, ?_⟩
    · refine List.ne_nil_of_length_pos ?_
      rw [List.length_take]
      omega
    · rw [List.length_drop]
      omega
    · rw [List.take_append_drop]
  · next hge =>
    refine ⟨['0'], List.replicate (k + 1 - digits.length) '0' ++ digits, rfl,
      ⟨List.cons_ne_nil _ _, by simp⟩, fun c hc => ?_, ?_, ?_⟩
    · exact (List.mem_append.mp hc).elim isDigit_of_mem_replicate (h.isDigit c)
    · rw [List.length_append, List.length_replicate]
      omega
    · exact ofDigitChars_zeros_append (k + 1 - digits.length + 1) digits

/-- **A decimal with a point is read back** as it was. -/
theorem readDecimal?_positional (n k : Nat) :
    readDecimal? (positional (digitsOf n) (.negSucc k)) = some ⟨n, .negSucc k⟩ := by
  obtain ⟨whole, fraction, htext, hwhole, hfraction, hlength, hdigits⟩ :=
    positional_negSucc (digits_digitsOf n) k
  rw [htext, readDecimal?_point hwhole hfraction, hdigits, ofDigitChars_digitsOf, hlength]
  rfl

/-! ## §3 Signs -/

/-- How a sign is written, if it is: none is a plus sign. -/
inductive SpellsSign : Bool → List Char → Prop
  | missing : SpellsSign false []
  | plus : SpellsSign false ['+']
  | minus : SpellsSign true ['-']

theorem spellsSign_signText (negative : Bool) : SpellsSign negative (signText negative) := by
  cases negative with
  | true => exact .minus
  | false => exact .missing

/-- A sign is told from what follows it, which is no sign. -/
theorem takeSign_append {negative : Bool} {sign body : List Char}
    (hsign : SpellsSign negative sign) (hbody : ∀ c ∈ body.head?, c ≠ '+' ∧ c ≠ '-') :
    takeSign (sign ++ body) = (negative, body) := by
  cases hsign with
  | plus => rfl
  | minus => rfl
  | missing =>
    rw [List.nil_append]
    unfold takeSign
    split
    · exact absurd rfl (hbody '-' rfl).2
    · exact absurd rfl (hbody '+' rfl).1
    · rfl

theorem ne_sign_of_isDigit {c : Char} (h : c.isDigit) : c ≠ '+' ∧ c ≠ '-' := by
  constructor
  · rintro rfl
    cases h
  · rintro rfl
    cases h

theorem takeSign_signText (negative : Bool) {body : List Char}
    (hbody : ∀ c ∈ body.head?, c.isDigit) :
    takeSign (signText negative ++ body) = (negative, body) :=
  takeSign_append (spellsSign_signText negative) fun c hc => ne_sign_of_isDigit (hbody c hc)

theorem Digits.head {cs : List Char} (h : Digits cs) (rest : List Char) :
    ∀ c ∈ (cs ++ rest).head?, c.isDigit := by
  intro c hc
  obtain ⟨first, tail, rfl⟩ := List.exists_cons_of_ne_nil h.ne_nil
  obtain rfl : first = c := by simpa using hc
  exact h.isDigit _ List.mem_cons_self

end SceneScript.Number

namespace SceneScript.Standard

open Number

/-! ## §4 Texts -/

/-- A text of characters that numbers are written with is the run that is read. -/
theorem numberSpan_eq {text : List Char} (h : ∀ c ∈ text, isNumberChar c) :
    numberSpan text = text := by
  have hblank : ∀ c, isNumberChar c → isNumberBlank c = false := by
    intro c hc
    by_contra hc'
    rw [Bool.not_eq_false, isNumberBlank, Bool.or_eq_true, Bool.or_eq_true] at hc'
    rcases hc' with (hc' | hc') | hc' <;> rw [eq_of_beq hc'] at hc <;> cases hc
  have hdrop : text.dropWhile isNumberBlank = text := by
    cases text with
    | nil => rfl
    | cons c rest =>
      rw [List.dropWhile_cons_of_neg]
      rw [hblank c (h c List.mem_cons_self)]
      exact Bool.false_ne_true
  rw [numberSpan, hdrop]
  exact List.takeWhile_eq_self_iff.mpr h

/-- Such a text is read as a whole, by the one reader or the other. -/
theorem numberIn_eq {cs : List Char} (hne : cs ≠ []) (h : ∀ c ∈ cs, isNumberChar c) :
    numberIn (String.ofList cs) =
      if cs.any isRealMark then
        match readFloat? cs with
        | some x => .ok (.number x)
        | none => .error (.badReal (String.ofList cs))
      else
        match readInt64? cs with
        | some n => .ok (.integer n)
        | none => .error (.badWhole (String.ofList cs)) := by
  have hnonempty : ¬ cs.isEmpty = true := fun hempty => hne (List.isEmpty_iff.mp hempty)
  unfold numberIn
  dsimp only
  rw [String.toList_ofList, numberSpan_eq h]
  exact if_neg hnonempty

theorem isNumberChar_of_isDigit {c : Char} (h : c.isDigit) : isNumberChar c := by
  simp [isNumberChar, h]

theorem isNumberChar_of_mem_signText {negative : Bool} {c : Char} (h : c ∈ signText negative) :
    isNumberChar c := by
  cases negative with
  | true =>
    obtain rfl := List.mem_singleton.mp h
    rfl
  | false => cases h

theorem isRealMark_of_isDigit {c : Char} (h : c.isDigit) : isRealMark c = false := by
  by_contra hmark
  rw [Bool.not_eq_false, isRealMark, Bool.or_eq_true, Bool.or_eq_true] at hmark
  rcases hmark with (hmark | hmark) | hmark <;> rw [eq_of_beq hmark] at h <;> cases h

theorem isRealMark_of_mem_signText {negative : Bool} {c : Char} (h : c ∈ signText negative) :
    isRealMark c = false := by
  cases negative with
  | true =>
    obtain rfl := List.mem_singleton.mp h
    rfl
  | false => cases h

/-- **A text without a point** is a whole number, and has to fit in sixty-four bits. -/
theorem numberIn_whole (negative : Bool) (n zeros : Nat) :
    let text := String.ofList (signText negative ++ positional (digitsOf n) (.ofNat zeros))
    let whole : Int := if negative then -((n * 10 ^ zeros : Nat) : Int) else (n * 10 ^ zeros : Nat)
    numberIn text =
      if Int64.minValue.toInt ≤ whole ∧ whole ≤ Int64.maxValue.toInt then
        .ok (.integer (Int64.ofInt whole))
      else .error (.badWhole text) := by
  intro text whole
  have hdigits := (digits_digitsOf n).append_zeros zeros
  have hread : readInt? (signText negative ++ (digitsOf n ++ List.replicate zeros '0')) =
      some whole := by
    have hsign := takeSign_signText negative (hdigits.head [])
    rw [List.append_nil] at hsign
    rw [readInt?, hsign]
    dsimp only
    rw [readNat?_digits]
    rfl
  show numberIn (String.ofList (signText negative ++ (digitsOf n ++ List.replicate zeros '0'))) = _
  rw [numberIn_eq (List.append_ne_nil_of_right_ne_nil _ hdigits.ne_nil), if_neg, readInt64?, hread]
  · dsimp only
    by_cases hrange : Int64.minValue.toInt ≤ whole ∧ whole ≤ Int64.maxValue.toInt
    · rw [if_pos hrange, if_pos hrange]
    · rw [if_neg hrange, if_neg hrange]
      rfl
  · rw [List.any_append, List.any_eq_false.mpr, List.any_eq_false.mpr, Bool.or_self]
    · exact Bool.false_ne_true
    · intro c hc
      rw [isRealMark_of_isDigit (hdigits.isDigit c hc)]
      exact Bool.false_ne_true
    · intro c hc
      rw [isRealMark_of_mem_signText hc]
      exact Bool.false_ne_true
  · intro c hc
    rcases List.mem_append.mp hc with hc | hc
    · exact isNumberChar_of_mem_signText hc
    · exact isNumberChar_of_isDigit (hdigits.isDigit c hc)

/-- **The text of an integer** is read as that integer. -/
theorem numberIn_intText (n : Int64) :
    numberIn (String.ofList (intText n.toInt)) = .ok (.integer n) := by
  have hwhole := numberIn_whole (decide (n.toInt < 0)) n.toInt.natAbs 0
  have htext : signText (decide (n.toInt < 0)) ++ positional (digitsOf n.toInt.natAbs) (.ofNat 0) =
      intText n.toInt :=
    congrArg _ (List.append_nil _)
  have hvalue : (if decide (n.toInt < 0) = true then -((n.toInt.natAbs * 10 ^ 0 : Nat) : Int)
      else (n.toInt.natAbs * 10 ^ 0 : Nat)) = n.toInt := by
    simp only [decide_eq_true_eq, Nat.pow_zero, Nat.mul_one]
    split <;> omega
  have hrange : Int64.minValue.toInt ≤ n.toInt ∧ n.toInt ≤ Int64.maxValue.toInt :=
    ⟨n.minValue_le_toInt, Int.le_of_lt_add_one n.toInt_lt⟩
  rw [htext, hvalue] at hwhole
  exact (hwhole.trans (if_pos hrange)).trans (by rw [Int64.ofInt_toInt])

/-- **A text with a point** is a real number, the nearest double to what is written. -/
theorem numberIn_real (negative : Bool) (n k : Nat) :
    numberIn (String.ofList (signText negative ++ positional (digitsOf n) (.negSucc k))) =
      .ok (.number (Decimal.toFloat negative ⟨n, .negSucc k⟩)) := by
  obtain ⟨whole, fraction, htext, hwhole, hfraction, -, -⟩ :=
    positional_negSucc (digits_digitsOf n) k
  have hread := readDecimal?_positional n k
  rw [htext] at hread ⊢
  have hfloat : readFloat? (signText negative ++ (whole ++ '.' :: fraction)) =
      some (Decimal.toFloat negative ⟨n, .negSucc k⟩) := by
    rw [readFloat?, takeSign_signText negative (hwhole.head _)]
    dsimp only
    rw [hread]
  rw [numberIn_eq (by simp), if_pos, hfloat]
  · exact List.any_eq_true.mpr ⟨'.', by simp, rfl⟩
  · intro c hc
    rcases List.mem_append.mp hc with hc | hc
    · exact isNumberChar_of_mem_signText hc
    rcases List.mem_append.mp hc with hc | hc
    · exact isNumberChar_of_isDigit (hwhole.isDigit c hc)
    rcases List.mem_cons.mp hc with rfl | hc
    · rfl
    · exact isNumberChar_of_isDigit (hfraction c hc)

end SceneScript.Standard
