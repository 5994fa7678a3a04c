/-
SceneScript.Proofs.KeyTheorems — the text form of keys.

A key is shown as `#` and sixteen hexadecimal digits. `Denotes` says which number such
digits stand for, in the library's own terms, and `Key.Displays` says from that which text
shows a key. Reading digits onto a number is the usual arithmetic (`readHex?_of_isHexDigit`), and
the digits that are written denote the word (`exists_denotes_hexDigits`). So the text that
`Key.render` writes is the only one that displays the key (`displays_iff`), and it is read
back as the key that it displays (`parse?_render`).

More texts are read than are written: `Notes` has digits of either case, and a plus sign in place
of the first. `text_form` says that these are all, and that the number which they write always fits
a word.
-/
import Mathlib.Data.List.Forall2
import Mathlib.Data.Nat.Digits.Lemmas
import SceneScript.Key

namespace SceneScript.Key

/-! ## §1 Digits and numbers -/

/-- The character is a hexadecimal digit, in lower or upper case, of the given value. -/
def IsHexDigit (c : Char) (d : Nat) : Prop :=
  d < 16 ∧ (c = Nat.digitChar d ∨ c = (Nat.digitChar d).toUpper)

theorem hexValue?_of_isHexDigit {c : Char} {d : Nat} (h : IsHexDigit c d) :
    hexValue? c = some d := by
  have hall : ∀ d < 16, hexValue? (Nat.digitChar d) = some d ∧
      hexValue? (Nat.digitChar d).toUpper = some d := by decide
  obtain ⟨hd, rfl | rfl⟩ := h
  · exact (hall d hd).1
  · exact (hall d hd).2

/-- Hexadecimal digits, the highest first, and the number that they denote. -/
structure Denotes (digits : List Nat) (n : Nat) : Prop where
  lt : ∀ d ∈ digits, d < 16
  value : Nat.ofDigits 16 digits.reverse = n

variable {digits digits' : List Nat} {n : Nat}

/-- One more digit at the end. -/
theorem Denotes.snoc (h : Denotes digits n) {d : Nat} (hd : d < 16) :
    Denotes (digits ++ [d]) (16 * n + d) := by
  constructor
  case lt =>
    intro x hx
    rcases List.mem_append.mp hx with hx | hx
    · exact h.lt x hx
    · rw [List.mem_singleton.mp hx]
      exact hd
  case value =>
    rw [List.reverse_append, List.reverse_singleton, List.singleton_append, Nat.ofDigits_cons,
      h.value]
    exact Nat.add_comm d (16 * n)

/-- Zeros in front do not count. -/
theorem Denotes.padded (h : Denotes digits n) (count : Nat) :
    Denotes (List.replicate count 0 ++ digits) n := by
  constructor
  case lt =>
    intro x hx
    rcases List.mem_append.mp hx with hx | hx
    · rw [List.eq_of_mem_replicate hx]
      exact Nat.zero_lt_succ 15
    · exact h.lt x hx
  case value =>
    rw [List.reverse_append, List.reverse_replicate, Nat.ofDigits_append_replicate_zero, h.value]

/-- So many digits denote a number in one way only. -/
theorem Denotes.unique (h : Denotes digits n) (h' : Denotes digits' n)
    (hlength : digits.length = digits'.length) : digits = digits' := by
  have hlt : ∀ {l : List Nat}, (∀ d ∈ l, d < 16) → ∀ d ∈ l.reverse, d < 16 :=
    fun hl d hd => hl d (List.mem_reverse.mp hd)
  refine List.reverse_injective (Nat.ofDigits_inj_of_len_eq (Nat.one_lt_succ_succ 14) ?_
    (hlt h.lt) (hlt h'.lt) (h.value.trans h'.value.symm))
  rw [List.length_reverse, List.length_reverse, hlength]

/-- The digits that are written for a number denote it. -/
theorem exists_denotes_toDigits (n : Nat) :
    ∃ digits, Denotes digits n ∧ Nat.toDigits 16 n = digits.map Nat.digitChar := by
  induction n using Nat.strong_induction_on with
  | _ n ih =>
    rw [Nat.toDigits_eq_if (Nat.one_lt_succ_succ 14)]
    split
    · next hsmall =>
      refine ⟨[n], ⟨fun d hd => ?_, Nat.ofDigits_singleton⟩, rfl⟩
      rw [List.mem_singleton.mp hd]
      exact hsmall
    · next hlarge =>
      have hless : n / 16 < n := by omega
      obtain ⟨digits, hdigits, hwritten⟩ := ih (n / 16) hless
      have hsnoc := hdigits.snoc (Nat.mod_lt n (Nat.zero_lt_succ 15))
      rw [Nat.div_add_mod] at hsnoc
      refine ⟨digits ++ [n % 16], hsnoc, ?_⟩
      rw [hwritten, List.map_append, List.map_singleton]

/-- The digits of a word are sixteen, and denote it. -/
theorem exists_denotes_hexDigits (word : UInt64) : ∃ digits, digits.length = 16 ∧
    Denotes digits word.toNat ∧ hexDigits word = digits.map Nat.digitChar := by
  obtain ⟨digits, hdigits, hwritten⟩ := exists_denotes_toDigits word.toNat
  have hlength : digits.length ≤ 16 := by
    have hshort := (Nat.length_toDigits_le_iff (Nat.one_lt_succ_succ 14)
      (Nat.zero_lt_succ 15)).mpr word.toNat_lt
    rwa [hwritten, List.length_map] at hshort
  refine ⟨List.replicate (16 - digits.length) 0 ++ digits, ?_, hdigits.padded _, ?_⟩
  · rw [List.length_append, List.length_replicate, Nat.sub_add_cancel hlength]
  · rw [List.map_append, List.map_replicate]
    simp only [hexDigits, hwritten, List.length_map]
    rfl

/-- Digits are read onto the number before them. -/
theorem readHex?_of_isHexDigit {chars : List Char} (h : List.Forall₂ IsHexDigit chars digits)
    (start : Nat) : readHex? start chars =
      some (start * 16 ^ digits.length + Nat.ofDigits 16 digits.reverse) := by
  induction h generalizing start with
  | nil => simp [readHex?]
  | @cons c d chars digits hc hrest ih =>
    rw [readHex?, hexValue?_of_isHexDigit hc]
    show readHex? (16 * start + d) chars = _
    rw [ih, List.reverse_cons, Nat.ofDigits_append, Nat.ofDigits_singleton,
      List.length_reverse, List.length_cons]
    refine congrArg some ?_
    ring

theorem isHexDigit_digitChar (hlt : ∀ d ∈ digits, d < 16) :
    List.Forall₂ IsHexDigit (digits.map Nat.digitChar) digits :=
  List.forall₂_map_left_iff.mpr (List.forall₂_same.mpr fun d hd => ⟨hlt d hd, .inl rfl⟩)

theorem Denotes.readHex? (h : Denotes digits n) :
    readHex? 0 (digits.map Nat.digitChar) = some n := by
  rw [readHex?_of_isHexDigit (isHexDigit_digitChar h.lt), h.value, Nat.zero_mul, Nat.zero_add]

/-! ## §2 Texts and keys -/

/-- The text is `#` and sixteen hexadecimal digits without capitals, which denote the key. -/
def Displays (key : Key) (text : String) : Prop :=
  ∃ digits, digits.length = 16 ∧ Denotes digits key.word.toNat ∧
    text = String.ofList ('#' :: digits.map Nat.digitChar)

variable {key : Key} {text : String}

/-- The text of a key, and no other, displays it. -/
theorem displays_iff : key.Displays text ↔ text = key.render := by
  obtain ⟨digits, hlength, hdigits, hwritten⟩ := exists_denotes_hexDigits key.word
  rw [render, hwritten]
  constructor
  · intro ⟨digits', hlength', hdigits', htext⟩
    rw [htext, hdigits.unique hdigits' (hlength.trans hlength'.symm)]
  · intro htext
    exact ⟨digits, hlength, hdigits, htext⟩

/-- Sixteen digits are read as the word that they denote: the first of them is no sign. -/
theorem readWord?_digits (h : Denotes digits n) (hlength : digits.length = 16) :
    readWord? (digits.map Nat.digitChar) = some n := by
  have hread := h.readHex?
  rw [readWord?]
  · rw [List.length_map, if_pos hlength, hread]
  · intro rest hplus
    rw [hplus] at hread
    cases hread

/-- A text is read back as the key that it displays. -/
theorem Displays.parse? (h : key.Displays text) : Key.parse? text = some key := by
  obtain ⟨digits, hlength, hdigits, rfl⟩ := h
  rw [Key.parse?, String.toList_ofList]
  show (readWord? (digits.map Nat.digitChar)).map _ = some key
  rw [readWord?_digits hdigits hlength, Option.map_some, UInt64.ofNat_toNat]

/-- **The round trip**: what is written for a key is read back as that key. -/
theorem parse?_render (key : Key) : Key.parse? key.render = some key :=
  (displays_iff.mpr rfl).parse?

/-! ## §3 All texts that are read -/

/-- The characters are hexadecimal digits, each in either case, and write the number. -/
def Writes (chars : List Char) (n : Nat) : Prop :=
  ∃ digits, List.Forall₂ IsHexDigit chars digits ∧ Denotes digits n

/-- A number in hexadecimal digits, with or without a plus sign. -/
inductive Notes : List Char → Nat → Prop
  | digits {chars : List Char} {n : Nat} (h : Writes chars n) : Notes chars n
  | plus {chars : List Char} {n : Nat} (h : Writes chars n) : Notes ('+' :: chars) n

variable {c : Char} {chars : List Char} {d : Nat}

theorem isHexDigit_of_hexValue? (h : hexValue? c = some d) : IsHexDigit c d := by
  have hlower : ∀ d < 6, (Nat.digitChar (d + 10)).toNat = 97 + d := by decide
  have hupper : ∀ d < 6, (Nat.digitChar (d + 10)).toUpper.toNat = 65 + d := by decide
  unfold hexValue? at h
  split at h
  · next hrange =>
    have hc : 48 ≤ c.toNat ∧ c.toNat ≤ 57 := hrange
    obtain rfl : c.toNat - 48 = d := Option.some.inj h
    refine ⟨by omega, .inl (Char.toNat_inj.mp ?_)⟩
    rw [Nat.toNat_digitChar_of_lt_ten (by omega)]
    omega
  · split at h
    · next hrange =>
      have hc : 97 ≤ c.toNat ∧ c.toNat ≤ 102 := hrange
      obtain rfl : c.toNat - 97 + 10 = d := Option.some.inj h
      refine ⟨by omega, .inl (Char.toNat_inj.mp ?_)⟩
      rw [hlower _ (by omega)]
      omega
    · split at h
      · next hrange =>
        have hc : 65 ≤ c.toNat ∧ c.toNat ≤ 70 := hrange
        obtain rfl : c.toNat - 65 + 10 = d := Option.some.inj h
        refine ⟨by omega, .inr (Char.toNat_inj.mp ?_)⟩
        rw [hupper _ (by omega)]
        omega
      · cases h

theorem exists_of_readHex? {start : Nat} (h : Key.readHex? start chars = some n) :
    ∃ digits, List.Forall₂ IsHexDigit chars digits := by
  induction chars generalizing start with
  | nil => exact ⟨[], .nil⟩
  | cons c chars ih =>
    rw [Key.readHex?] at h
    split at h
    · next d hvalue =>
      obtain ⟨digits, hdigits⟩ := ih h
      exact ⟨d :: digits, .cons (isHexDigit_of_hexValue? hvalue) hdigits⟩
    · cases h

theorem lt_of_isHexDigit (h : List.Forall₂ IsHexDigit chars digits) : ∀ d ∈ digits, d < 16 := by
  induction h with
  | nil => exact List.forall_mem_nil _
  | cons hc _ ih => exact List.forall_mem_cons.mpr ⟨hc.1, ih⟩

theorem readHex?_eq_some_iff : Key.readHex? 0 chars = some n ↔ Writes chars n := by
  have hread {digits : List Nat} (hdigits : List.Forall₂ IsHexDigit chars digits) :
      Key.readHex? 0 chars = some (Nat.ofDigits 16 digits.reverse) := by
    rw [readHex?_of_isHexDigit hdigits, Nat.zero_mul, Nat.zero_add]
  constructor
  · intro h
    obtain ⟨digits, hdigits⟩ := exists_of_readHex? h
    exact ⟨digits, hdigits, lt_of_isHexDigit hdigits,
      Option.some.inj ((hread hdigits).symm.trans h)⟩
  · rintro ⟨digits, hdigits, hdenotes⟩
    rw [hread hdigits, hdenotes.value]

/-- A plus sign is no digit. -/
theorem not_writes_plus : ¬ Writes ('+' :: chars) n := by
  rintro ⟨digits, hdigits, -⟩
  cases hdigits with
  | cons hplus _ =>
    have hvalue := hexValue?_of_isHexDigit hplus
    cases hvalue

theorem readWord?_eq_some_iff :
    readWord? chars = some n ↔ chars.length = 16 ∧ Notes chars n := by
  by_cases hplus : ∃ rest, chars = '+' :: rest
  · obtain ⟨rest, rfl⟩ := hplus
    rw [readWord?, Option.ite_none_right_eq_some, readHex?_eq_some_iff, List.length_cons,
      Nat.succ_inj]
    refine and_congr_right fun _ => ⟨.plus, fun h => ?_⟩
    cases h with
    | digits h => exact absurd h not_writes_plus
    | plus h => exact h
  · rw [readWord?, Option.ite_none_right_eq_some, readHex?_eq_some_iff]
    · refine and_congr_right fun _ => ⟨.digits, fun h => ?_⟩
      cases h with
      | digits h => exact h
      | plus _ => exact absurd ⟨_, rfl⟩ hplus
    · exact fun rest h => hplus ⟨rest, h⟩

/-- So many digits write a number of so many digits. -/
theorem Writes.lt (h : Writes chars n) : n < 16 ^ chars.length := by
  obtain ⟨digits, hdigits, hdenotes⟩ := h
  have hbound := Nat.ofDigits_lt_base_pow_length (Nat.one_lt_succ_succ 14)
    fun d hd => hdenotes.lt d (List.mem_reverse.mp hd)
  rwa [hdenotes.value, List.length_reverse, ← hdigits.length_eq] at hbound

/-- Sixteen places never overflow a word. -/
theorem Notes.lt (h : Notes chars n) (hlength : chars.length = 16) : n < 2 ^ 64 := by
  cases h with
  | digits h =>
    have hlt := h.lt
    rwa [hlength] at hlt
  | plus h =>
    rw [List.length_cons, Nat.succ_inj] at hlength
    have hlt := h.lt
    rw [hlength] at hlt
    exact hlt.trans (by decide)

theorem utf8Size_of_isHexDigit (h : IsHexDigit c d) : c.utf8Size = 1 := by
  have hall : ∀ d < 16, (Nat.digitChar d).utf8Size = 1 ∧
      (Nat.digitChar d).toUpper.utf8Size = 1 := by decide
  obtain ⟨hd, rfl | rfl⟩ := h
  · exact (hall d hd).1
  · exact (hall d hd).2

theorem Writes.utf8Size (h : Writes chars n) : ∀ c ∈ chars, c.utf8Size = 1 := by
  obtain ⟨digits, hdigits, -⟩ := h
  induction hdigits with
  | nil => exact List.forall_mem_nil _
  | cons hc _ ih => exact List.forall_mem_cons.mpr ⟨utf8Size_of_isHexDigit hc, ih⟩

/-- What is noted has one byte for each character. -/
theorem Notes.utf8Size (h : Notes chars n) : ∀ c ∈ chars, c.utf8Size = 1 := by
  cases h with
  | digits h => exact h.utf8Size
  | plus h => exact List.forall_mem_cons.mpr ⟨rfl, h.utf8Size⟩

theorem utf8ByteSize_ofList (h : ∀ c ∈ chars, c.utf8Size = 1) :
    (String.ofList chars).utf8ByteSize = chars.length := by
  induction chars with
  | nil => rfl
  | cons c rest ih =>
    obtain ⟨hc, hrest⟩ := List.forall_mem_cons.mp h
    rw [String.ofList_cons, String.utf8ByteSize_append, String.utf8ByteSize_singleton, hc,
      ih hrest, List.length_cons, Nat.add_comm]

/-- The text is `#` and sixteen bytes which note the number. -/
def Shows (text : String) (n : Nat) : Prop :=
  ∃ places : String, text = "#" ++ places ∧ places.utf8ByteSize = 16 ∧ Notes places.toList n

/-- What is shown in sixteen bytes is shown in sixteen characters. -/
theorem shows_iff : Shows text n ↔
    ∃ chars, text.toList = '#' :: chars ∧ chars.length = 16 ∧ Notes chars n := by
  have hsize {places : String} (h : Notes places.toList n) :
      places.utf8ByteSize = places.toList.length := by
    rw [← utf8ByteSize_ofList h.utf8Size, String.ofList_toList]
  constructor
  · rintro ⟨places, rfl, hbytes, hnotes⟩
    refine ⟨places.toList, by simp, ?_, hnotes⟩
    rw [← hsize hnotes, hbytes]
  · rintro ⟨chars, htext, hlength, hnotes⟩
    refine ⟨String.ofList chars, String.toList_injective ?_, ?_, ?_⟩
    · simp [htext]
    · rw [utf8ByteSize_ofList hnotes.utf8Size, hlength]
    · rwa [String.toList_ofList]

theorem parse?_eq_some_iff : Key.parse? text = some key ↔ Shows text key.word.toNat := by
  rw [shows_iff, Key.parse?]
  constructor
  · intro h
    split at h
    · next chars hchars =>
      obtain ⟨n, hread, rfl⟩ := Option.map_eq_some_iff.mp h
      obtain ⟨hlength, hnotes⟩ := readWord?_eq_some_iff.mp hread
      refine ⟨chars, hchars, hlength, ?_⟩
      rwa [UInt64.toNat_ofNat_of_lt' (hnotes.lt hlength)]
    · cases h
  · rintro ⟨chars, hchars, hread⟩
    rw [hchars]
    show (readWord? chars).map _ = some key
    rw [readWord?_eq_some_iff.mpr hread, Option.map_some, UInt64.ofNat_toNat]

/-- What is shown always fits a key. -/
theorem parse?_eq_none_iff : Key.parse? text = none ↔ ¬ ∃ n, Shows text n := by
  constructor
  · rintro h ⟨n, hshows⟩
    obtain ⟨chars, -, hlength, hnotes⟩ := shows_iff.mp hshows
    have hn : (UInt64.ofNat n).toNat = n := UInt64.toNat_ofNat_of_lt' (hnotes.lt hlength)
    rw [← hn] at hshows
    have hread : Key.parse? text = some ⟨UInt64.ofNat n⟩ := parse?_eq_some_iff.mpr hshows
    rw [h] at hread
    cases hread
  · intro h
    refine Option.eq_none_iff_forall_ne_some.mpr fun key hkey => h ⟨_, parse?_eq_some_iff.mp hkey⟩

/-- **The text form of keys**: what is written for a key is the one text that displays it, it is
read back as that key, so that different keys are written differently, and just those texts are read
that show a number of at most sixty-four bits, as that number. -/
theorem text_form :
    (∀ (key : Key) text, key.Displays text ↔ text = key.render) ∧
    (∀ key : Key, Key.parse? key.render = some key) ∧
    Function.Injective render ∧
    (∀ text key, Key.parse? text = some key ↔ Shows text key.word.toNat) ∧
    ∀ text, Key.parse? text = none ↔ ¬ ∃ n, Shows text n := by
  refine ⟨fun _ _ => displays_iff, parse?_render, fun key key' h => ?_,
    fun _ _ => parse?_eq_some_iff, fun _ => parse?_eq_none_iff⟩
  have hread := parse?_render key
  rw [h, parse?_render key'] at hread
  exact (Option.some.inj hread).symm

example : Key.parse? "#+00000000000000F" = some ⟨15⟩ := by decide

end SceneScript.Key
