/-
SceneScript.Proofs.TemplateTheorems — how a format splits into pieces.

What a directive has before its letter is an `Opening`: flags, a width, a point and a
precision, each of them possibly missing. A text begins with exactly one opening that
does not go on in what follows it, and reading a directive is finding that opening
and looking at the next character (`Opening.read_append`). So a text begins with a
directive, or is ill-formed, just as the grammar says (`Directive.read_eq_ok_iff`,
`Directive.read_eq_error_iff`).

`Splits` is the grammar of whole formats, and `splits_iff` is its main statement: each
format splits in one way, which is the way it is read.
-/
import SceneScript.Proofs.NumeralTheorems

namespace SceneScript.Format

open Number

/-! ## §1 Openings -/

/-- A run of digits writes its number, or the largest size if that is larger. -/
theorem readSize_eq (digits : List Char) :
    readSize digits = min maxSize (Nat.ofDigitChars 10 digits 0) := by
  have hpush (n digit : Nat) :
      pushDigit (min maxSize n) digit = min maxSize (10 * n + digit) := by
    unfold pushDigit
    omega
  have hfold (start : Nat) : digits.foldl (fun n c => pushDigit n (c.toNat - '0'.toNat))
      (min maxSize start) = min maxSize (Nat.ofDigitChars 10 digits start) := by
    induction digits generalizing start with
    | nil => rfl
    | cons c digits ih => rw [List.foldl_cons, hpush, ih, Nat.ofDigitChars_cons]
  exact hfold 0

/-- The only digit that is a flag is zero. -/
theorem not_isFlag_of_isDigit {c : Char} (hdigit : c.isDigit) (hzero : c ≠ '0') : ¬ isFlag c := by
  intro hflag
  simp only [isFlag, Bool.or_eq_true, beq_iff_eq] at hflag
  obtain ((rfl | rfl) | rfl) | rfl := hflag
  · cases hdigit
  · exact hzero rfl
  · cases hdigit
  · cases hdigit

/-- What stands between a percent sign and the letter of a directive. A zero before the width is a
flag, so that no width begins with one, and a point need not have digits after it. -/
structure Opening where
  flags : List Char
  width : List Char
  precision : Option (List Char)
  isFlag_of_mem : ∀ c ∈ flags, isFlag c
  isDigit_of_mem : ∀ c ∈ width, c.isDigit
  head_ne_zero : ∀ c ∈ width.head?, c ≠ '0'
  isDigit_of_mem_precision : ∀ digits ∈ precision, ∀ c ∈ digits, c.isDigit

/-- How a precision is written. -/
def placesText : Option (List Char) → List Char
  | none => []
  | some digits => '.' :: digits

namespace Opening

/-- How an opening is written. -/
def text (o : Opening) : List Char := o.flags ++ (o.width ++ placesText o.precision)

/-- The directive of an opening and a letter. Sizes beyond the largest are the largest. -/
def directive (o : Opening) (conversion : Conversion) : Directive where
  left := o.flags.contains '-'
  zero := o.flags.contains '0'
  plus := o.flags.contains '+'
  space := o.flags.contains ' '
  width := min maxSize (Nat.ofDigitChars 10 o.width 0)
  precision := o.precision.map fun digits => min maxSize (Nat.ofDigitChars 10 digits 0)
  conversion := conversion

/-- The characters that an opening takes in as more of itself: digits always, a point while there
is none, and a flag while there is nothing but flags. -/
def Takes (o : Opening) (c : Char) : Prop :=
  c.isDigit ∨ (o.precision = none ∧ (c = '.' ∨ (o.width = [] ∧ isFlag c)))

/-- An opening does not go on in what follows it. -/
def Stops (o : Opening) (rest : List Char) : Prop := ∀ c ∈ rest.head?, ¬ o.Takes c

/-- What is made of an opening and what follows it. -/
def conclude (o : Opening) : List Char → Except Fault (Directive × List Char)
  | [] => .error .unfinished
  | c :: rest =>
    match Conversion.ofLetter? c with
    | none => .error (.unknownLetter c)
    | some conversion => .ok (o.directive conversion, rest)

variable {o : Opening} {rest : List Char}

theorem not_isFlag_head (h : o.Stops rest) :
    ∀ c ∈ (o.width ++ placesText o.precision ++ rest).head?, ¬ isFlag c := by
  intro c hc
  cases hwidth : o.width with
  | cons first tail =>
    obtain rfl : first = c := by simpa [hwidth] using hc
    exact not_isFlag_of_isDigit (o.isDigit_of_mem _ (by simp [hwidth]))
      (o.head_ne_zero _ (by simp [hwidth]))
  | nil =>
    cases hprecision : o.precision with
    | some digits =>
      obtain rfl : '.' = c := by simpa [hwidth, hprecision, placesText] using hc
      decide
    | none =>
      have hrest : c ∈ rest.head? := by simpa [hwidth, hprecision, placesText] using hc
      exact fun hflag => h c hrest (.inr ⟨hprecision, .inr ⟨hwidth, hflag⟩⟩)

theorem not_isDigit_head (h : o.Stops rest) :
    ∀ c ∈ (placesText o.precision ++ rest).head?, ¬ c.isDigit := by
  intro c hc
  cases hprecision : o.precision with
  | some digits =>
    obtain rfl : '.' = c := by simpa [hprecision, placesText] using hc
    decide
  | none =>
    have hrest : c ∈ rest.head? := by simpa [hprecision, placesText] using hc
    exact fun hdigit => h c hrest (.inl hdigit)

theorem readPrecision_append (h : o.Stops rest) :
    readPrecision (placesText o.precision ++ rest) =
      (o.precision.map fun digits => min maxSize (Nat.ofDigitChars 10 digits 0), rest) := by
  cases hprecision : o.precision with
  | some digits =>
    have hdigits := o.isDigit_of_mem_precision digits (by simp [hprecision])
    have hrest : ∀ c ∈ rest.head?, ¬ c.isDigit := fun c hc hdigit => h c hc (.inl hdigit)
    rw [placesText, List.cons_append, readPrecision, takeWhile_run_append hdigits hrest,
      dropWhile_run_append hdigits hrest, readSize_eq]
    rfl
  | none =>
    rw [placesText, List.nil_append]
    unfold readPrecision
    split
    · next tail => exact absurd (.inr ⟨hprecision, .inl rfl⟩) (h '.' rfl)
    · rfl

/-- **Reading a directive** is finding its opening and looking at what follows. -/
theorem read_append (h : o.Stops rest) : Directive.read (o.text ++ rest) = o.conclude rest := by
  have hflag := not_isFlag_head h
  have hdigit := not_isDigit_head h
  rw [List.append_assoc] at hflag
  have htext : o.text ++ rest = o.flags ++ (o.width ++ (placesText o.precision ++ rest)) := by
    simp only [text, List.append_assoc]
  rw [htext, Directive.read]
  simp only [takeWhile_run_append o.isFlag_of_mem hflag, dropWhile_run_append o.isFlag_of_mem hflag,
    takeWhile_run_append o.isDigit_of_mem hdigit, dropWhile_run_append o.isDigit_of_mem hdigit,
    readPrecision_append h, readSize_eq]
  cases rest with
  | nil => rfl
  | cons c rest =>
    unfold conclude
    dsimp only
    cases Conversion.ofLetter? c <;> rfl

end Opening

/-- Every text begins with an opening that does not go on. -/
theorem exists_opening (cs : List Char) :
    ∃ (o : Opening) (rest : List Char), cs = o.text ++ rest ∧ o.Stops rest := by
  have hflags := List.takeWhile_append_dropWhile (p := isFlag) (l := cs)
  have hafter := not_of_head?_dropWhile isFlag cs
  generalize cs.dropWhile isFlag = tail at hflags hafter
  have hwidth := List.takeWhile_append_dropWhile (p := Char.isDigit) (l := tail)
  have hnext := not_of_head?_dropWhile Char.isDigit tail
  have hfirst : ∀ c ∈ (tail.takeWhile Char.isDigit).head?, c ≠ '0' := by
    rintro c hc rfl
    refine hafter '0' ?_ rfl
    cases hdigits : tail.takeWhile Char.isDigit with
    | nil => simp [hdigits] at hc
    | cons first digits =>
      rw [← hwidth, hdigits]
      simpa [hdigits] using hc
  by_cases hpoint : ∃ rest, tail.dropWhile Char.isDigit = '.' :: rest
  · obtain ⟨rest, hrest⟩ := hpoint
    refine ⟨⟨cs.takeWhile isFlag, tail.takeWhile Char.isDigit,
      some (rest.takeWhile Char.isDigit), fun _ => List.mem_takeWhile_imp,
      fun _ => List.mem_takeWhile_imp, hfirst, ?_⟩, rest.dropWhile Char.isDigit, ?_, ?_⟩
    · rintro digits ⟨⟩ c hc
      exact List.mem_takeWhile_imp hc
    · simp only [Opening.text, placesText, List.append_assoc, List.cons_append,
        List.takeWhile_append_dropWhile]
      rw [← hrest, hwidth, hflags]
    · rintro c hc (hdigit | ⟨⟨⟩, -⟩)
      exact not_of_head?_dropWhile Char.isDigit rest c hc hdigit
  · refine ⟨⟨cs.takeWhile isFlag, tail.takeWhile Char.isDigit, none,
      fun _ => List.mem_takeWhile_imp, fun _ => List.mem_takeWhile_imp, hfirst, ?_⟩,
      tail.dropWhile Char.isDigit, ?_, ?_⟩
    · rintro digits ⟨⟩
    · simp only [Opening.text, placesText, List.append_nil, List.append_assoc]
      rw [hwidth, hflags]
    · rintro c hc (hdigit | ⟨-, rfl | ⟨hnone, hflag⟩⟩)
      · exact hnext c hc hdigit
      · refine hpoint ⟨_, (List.eq_cons_of_mem_head? hc)⟩
      · dsimp only at hnone
        rw [hnone, List.nil_append] at hwidth
        rw [hwidth] at hc
        exact hafter c hc hflag

/-! ## §2 Directives -/

theorem Conversion.ofLetter?_eq_some_iff {c : Char} {conversion : Conversion} :
    ofLetter? c = some conversion ↔ c = conversion.letter := by
  constructor
  · intro h
    unfold ofLetter? at h
    split at h <;> cases h <;> rfl
  · rintro rfl
    exact ofLetter?_letter conversion

theorem Conversion.ofLetter?_eq_none_iff {c : Char} :
    ofLetter? c = none ↔ ∀ conversion : Conversion, c ≠ conversion.letter := by
  simp only [Option.eq_none_iff_forall_ne_some, ne_eq, ofLetter?_eq_some_iff]

/-- No opening goes on in a letter. -/
theorem Opening.stops_letter (o : Opening) (conversion : Conversion) (rest : List Char) :
    o.Stops (conversion.letter :: rest) := by
  rintro c ⟨⟩ (hdigit | ⟨-, hpoint | ⟨-, hflag⟩⟩)
  · cases conversion <;> cases hdigit
  · cases conversion <;> cases hpoint
  · cases conversion <;> cases hflag

/-- What is wrong with a text that does not begin with a directive: it is over before the letter
comes, or something else comes in place of the letter. -/
inductive IllFormed : List Char → Fault → Prop
  | unfinished (o : Opening) : IllFormed o.text .unfinished
  | unknownLetter (o : Opening) {c : Char} {rest : List Char} (hstops : ¬ o.Takes c)
      (hletter : ∀ conversion : Conversion, c ≠ conversion.letter) :
      IllFormed (o.text ++ c :: rest) (.unknownLetter c)

namespace Directive

variable {cs rest : List Char} {d : Directive} {fault : Fault}

theorem read_opening (o : Opening) (conversion : Conversion) (rest : List Char) :
    read (o.text ++ conversion.letter :: rest) = .ok (o.directive conversion, rest) := by
  rw [Opening.read_append (o.stops_letter conversion rest), Opening.conclude,
    Conversion.ofLetter?_letter]

/-- **Where a directive is read there is one.** -/
theorem read_eq_ok_iff : read cs = .ok (d, rest) ↔
    ∃ (o : Opening) (conversion : Conversion),
      d = o.directive conversion ∧ cs = o.text ++ conversion.letter :: rest := by
  constructor
  · intro h
    obtain ⟨o, tail, rfl, hstops⟩ := exists_opening cs
    rw [Opening.read_append hstops] at h
    cases tail with
    | nil => cases h
    | cons c tail =>
      unfold Opening.conclude at h
      dsimp only at h
      split at h
      · cases h
      · next conversion hletter =>
        cases h
        exact ⟨o, conversion, rfl, by rw [Conversion.ofLetter?_eq_some_iff.mp hletter]⟩
  · rintro ⟨o, conversion, rfl, rfl⟩
    exact read_opening o conversion rest

/-- **Where none is read there is none**, and the fault says why. -/
theorem read_eq_error_iff : read cs = .error fault ↔ IllFormed cs fault := by
  constructor
  · intro h
    obtain ⟨o, tail, rfl, hstops⟩ := exists_opening cs
    rw [Opening.read_append hstops] at h
    cases tail with
    | nil =>
      cases h
      rw [List.append_nil]
      exact .unfinished o
    | cons c tail =>
      unfold Opening.conclude at h
      dsimp only at h
      split at h
      · next hletter =>
        cases h
        exact .unknownLetter o (hstops c rfl) (Conversion.ofLetter?_eq_none_iff.mp hletter)
      · cases h
  · intro h
    cases h with
    | unfinished o =>
      have hstops : o.Stops [] := by rintro c ⟨⟩
      have hread := Opening.read_append hstops
      rwa [List.append_nil] at hread
    | unknownLetter o hstops hletter =>
      rw [Opening.read_append (by rintro c ⟨⟩; exact hstops), Opening.conclude,
        Conversion.ofLetter?_eq_none_iff.mpr hletter]

/-- A percent sign is no part of a directive. -/
theorem read_percent (rest : List Char) :
    read ('%' :: rest) = .error (.unknownLetter '%') := rfl

end Directive

/-! ## §3 Formats -/

/-- How a format splits from left to right, up to the first percent sign that neither belongs to a
pair nor begins a directive. -/
inductive Splits : List Char → List Piece → Option Fault → Prop
  | nil : Splits [] [] none
  | literal {c : Char} {cs : List Char} {pieces : List Piece} {fault : Option Fault}
      (hc : c ≠ '%') (h : Splits cs pieces fault) :
      Splits (c :: cs) (.literal c :: pieces) fault
  | percent {cs : List Char} {pieces : List Piece} {fault : Option Fault}
      (h : Splits cs pieces fault) : Splits ('%' :: '%' :: cs) (.percent :: pieces) fault
  | directive (o : Opening) (conversion : Conversion) {cs : List Char} {pieces : List Piece}
      {fault : Option Fault} (h : Splits cs pieces fault) :
      Splits ('%' :: (o.text ++ conversion.letter :: cs))
        (.directive (o.directive conversion) :: pieces) fault
  | illFormed {cs : List Char} {fault : Fault} (hpair : cs.head? ≠ some '%')
      (h : IllFormed cs fault) : Splits ('%' :: cs) [] (some fault)

variable {cs text after : List Char} {pieces : List Piece} {d : Directive} {fault : Option Fault}

namespace Template

theorem read_nil : read [] = ⟨[], none⟩ := by
  rw [read]

theorem read_literal {c : Char} (hc : c ≠ '%') (cs : List Char) :
    read (c :: cs) = push (.literal c) (read cs) := by
  conv_lhs => unfold read
  split
  · next heq => cases heq
  · next heq => cases heq; exact absurd rfl hc
  · next heq => cases heq; exact absurd rfl hc
  · next heq => cases heq; rfl

theorem read_pair (cs : List Char) : read ('%' :: '%' :: cs) = push .percent (read cs) := by
  rw [read]

/-- A percent sign begins a directive if one can be read after it. -/
theorem read_directive (h : Directive.read text = .ok (d, after)) :
    read ('%' :: text) = push (.directive d) (read after) := by
  conv_lhs => unfold read
  split
  · next heq => cases heq
  · next rest heq =>
    cases heq
    rw [Directive.read_percent] at h
    cases h
  · next heq =>
    cases heq
    split
    · next hfound =>
      rw [hfound] at h
      cases h
      rfl
    · next hfault =>
      rw [hfault] at h
      cases h
  · next hpercent heq =>
    cases heq
    exact absurd rfl hpercent

theorem read_illFormed {fault : Fault} (hpair : text.head? ≠ some '%')
    (h : Directive.read text = .error fault) : read ('%' :: text) = ⟨[], some fault⟩ := by
  unfold read
  split
  · next heq => cases heq
  · next heq =>
    cases heq
    exact absurd rfl hpair
  · next heq =>
    cases heq
    split
    · next hfound =>
      rw [hfound] at h
      cases h
    · next hfault =>
      rw [hfault] at h
      cases h
      rfl
  · next hpercent heq =>
    cases heq
    exact absurd rfl hpercent

end Template

/-- A format splits as it is read. -/
theorem splits_read (cs : List Char) :
    Splits cs (Template.read cs).pieces (Template.read cs).fault := by
  induction hlength : cs.length using Nat.strong_induction_on generalizing cs with
  | _ length ih =>
    subst hlength
    cases cs with
    | nil =>
      rw [Template.read_nil]
      exact .nil
    | cons c cs =>
      by_cases hc : c = '%'
      · subst hc
        by_cases hpair : ∃ rest, cs = '%' :: rest
        · obtain ⟨rest, rfl⟩ := hpair
          rw [Template.read_pair]
          have hlt : rest.length < ('%' :: '%' :: rest).length := by
            simp only [List.length_cons]
            omega
          exact .percent (ih rest.length hlt rest rfl)
        · cases hread : Directive.read cs with
          | ok result =>
            obtain ⟨d, after⟩ := result
            have hlt := Directive.length_lt_of_read hread
            rw [Template.read_directive hread]
            obtain ⟨o, conversion, rfl, rfl⟩ := Directive.read_eq_ok_iff.mp hread
            exact .directive o conversion (ih after.length (hlt.trans (by simp)) after rfl)
          | error fault =>
            have hhead : cs.head? ≠ some '%' := fun h =>
              hpair ⟨_, List.eq_cons_of_mem_head? h⟩
            rw [Template.read_illFormed hhead hread]
            exact .illFormed hhead (Directive.read_eq_error_iff.mp hread)
      · rw [Template.read_literal hc]
        exact .literal hc (ih cs.length (by simp) cs rfl)

/-- **Every format splits in one way**, and that is how it is read. -/
theorem splits_iff : Splits cs pieces fault ↔ Template.read cs = ⟨pieces, fault⟩ := by
  constructor
  · intro h
    induction h with
    | nil => exact Template.read_nil
    | literal hc _ ih => rw [Template.read_literal hc, ih, Template.push]
    | percent _ ih => rw [Template.read_pair, ih, Template.push]
    | directive o conversion _ ih =>
      rw [Template.read_directive (Directive.read_opening o conversion _), ih, Template.push]
    | illFormed hpair h => exact Template.read_illFormed hpair (Directive.read_eq_error_iff.mpr h)
  · intro h
    have hsplits := splits_read cs
    rwa [h] at hsplits

/-- Two percent signs are a pair wherever they are met, and the third begins what it can. -/
example : Template.read "%%%5%%".toList = ⟨[.percent], some (.unknownLetter '%')⟩ := by
  decide +kernel

/-! ## §4 Texts as formats -/

/-- The format of a text: its percent signs are doubled. -/
def doubled (text : List Char) : List Char :=
  text.flatMap fun c => if c = '%' then ['%', '%'] else [c]

/-- The piece that gives a character. -/
def Piece.ofChar (c : Char) : Piece := if c = '%' then .percent else .literal c

/-- A doubled text in front splits into its characters. -/
theorem Splits.doubled_append (text : List Char) (h : Splits cs pieces fault) :
    Splits (doubled text ++ cs) (text.map Piece.ofChar ++ pieces) fault := by
  induction text with
  | nil => exact h
  | cons c text ih =>
    rw [doubled, List.flatMap_cons, ← doubled, List.append_assoc, List.map_cons, List.cons_append,
      Piece.ofChar]
    split
    · exact .percent ih
    · next hc => exact .literal hc ih

end SceneScript.Format
