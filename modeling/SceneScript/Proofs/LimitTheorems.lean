/-
SceneScript.Proofs.LimitTheorems — what a format asks for and cannot be laid out.

A directive is beyond what can be laid out in one of three cases (`Overlong`): too many
places after the point of a finite number, with an exponent or without; too many places on
the way to the shorter of these two forms; and too much padding. The second case is the
delicate one. Places are needed to find the exponent, and then, if the number is written
without it, the more of them the smaller the number is. `render_eq_beyondLayout_iff` says
that there are no others.

`layout_frontier` says so of every call of the formatting builtin on every engine on which
`init1` has succeeded, and that `safePrecision` is the largest bound on precisions that keeps
every number within what can be laid out. One more, and a number whose first digit is in the
fourth place after the point no longer is.
-/
import SceneScript.Proofs.FormatTheorems

namespace SceneScript

namespace Number

/-! ## §1 The first digit of a rounded number -/

/-- Rounded to so many digits, a number has its first digit in the given place. -/
def FirstDigit (digits : Nat) (q : ℚ) (top : Int) : Prop :=
  ∃ r, RoundedTo digits q r ∧ 10 ^ top ≤ |r| ∧ |r| < 10 ^ (top + 1)

theorem FirstDigit.unique {digits : Nat} {q : ℚ} {top top' : Int} (h : FirstDigit digits q top)
    (h' : FirstDigit digits q top') : top = top' := by
  obtain ⟨r, hround, hlow, hhigh⟩ := h
  obtain ⟨r', hround', hlow', hhigh'⟩ := h'
  obtain rfl := hround.unique hround'
  exact decade_unique hlow hhigh hlow' hhigh'

theorem firstDigit_significant {r : Ratio} (h : 0 < r.num) (places : Nat) (negative : Bool) :
    FirstDigit (places + 1) (signed negative r.value) (significant r places).2 := by
  have hspec := significant_spec h places
  exact ⟨_, hspec.roundedTo h negative, hspec.abs_top_spec negative⟩

/-- A multiple of a unit is rounded to itself. -/
theorem roundedAt_multiple (unit n : Int) : RoundedAt unit (n * 10 ^ unit) (n * 10 ^ unit) := by
  have hunit : (0 : ℚ) < 10 ^ unit / 2 := by positivity
  refine ⟨n, rfl, ?_, fun htie => ?_⟩
  · rw [sub_self, abs_zero]
    exact hunit.le
  · rw [sub_self, abs_zero] at htie
    exact absurd htie hunit.ne

/-- The number `2 ^ (-13)` has ten digits, the first of them in the fourth place after the point, and
is not changed by rounding to more. -/
theorem firstDigit_small (extra : Nat) : FirstDigit (extra + 10) (2 ^ (-13 : Int)) (-4) := by
  have hvalue : (2 : ℚ) ^ (-13 : Int) =
      ((5 ^ 13 * 10 ^ extra : Int) : ℚ) * 10 ^ (-4 + 1 - ((extra + 10 : Nat) : Int)) := by
    have hunit : -4 + 1 - ((extra + 10 : Nat) : Int) = -13 - extra := by omega
    rw [hunit, zpow_sub₀ (by norm_num), zpow_natCast]
    push_cast
    field_simp
    norm_num
  have hlow : (10 : ℚ) ^ (-4 : Int) ≤ |(2 : ℚ) ^ (-13 : Int)| := by norm_num
  have hhigh : |(2 : ℚ) ^ (-13 : Int)| < 10 ^ (-4 + 1 : Int) := by norm_num
  refine ⟨_, ⟨-4, hlow, hhigh, ?_⟩, hlow, hhigh⟩
  rw [hvalue]
  exact roundedAt_multiple _ _

end Number

namespace Format

open Number

variable {d : Directive} {arg : Payload} {x : Float} {q : ℚ} {digits : Nat} {top : Int}

/-! ## §2 Too many places -/

/-- A number asks for too many places on the way to a text in so many digits: already to find its
exponent, or to be written without one. -/
def TooFine (digits : Nat) (q : ℚ) : Prop :=
  placesLimit < digits - 1 ∨
  ∃ top, FirstDigit digits q top ∧ -4 ≤ top ∧ top < digits ∧ (placesLimit : Int) < digits - 1 - top

theorem tooFine_iff (h : FirstDigit digits q top) : TooFine digits q ↔
    placesLimit < digits - 1 ∨
    -4 ≤ top ∧ top < digits ∧ (placesLimit : Int) < digits - 1 - top := by
  refine or_congr Iff.rfl ⟨?_, fun hplaces => ⟨top, h, hplaces⟩⟩
  rintro ⟨top', h', hplaces⟩
  rwa [h.unique h']

/-- Zero, infinities and what is no number ask for no places. -/
theorem lt_generalPlaces_iff (x : Float) (precision : Nat) :
    placesLimit < generalPlaces x precision ↔
      ∃ q, exactValue? x = some q ∧ q ≠ 0 ∧ TooFine (max precision 1) q := by
  cases hx : Binary.ofFloat x with
  | nan => simp [generalPlaces, exactValue?, hx]
  | infinite negative => simp [generalPlaces, exactValue?, hx]
  | finite negative significand exponent =>
    have hzero : signed negative (magnitude significand exponent).value = 0 ↔ significand = 0 :=
      exact_eq_zero_iff
    rw [exactValue?_of_finite hx]
    simp only [Option.some.injEq, exists_eq_left', ne_eq, hzero]
    unfold generalPlaces
    rw [hx]
    dsimp only
    split
    · next hsignificand => simp [hsignificand]
    · next hsignificand =>
      have hpos := num_magnitude_pos (Nat.pos_of_ne_zero hsignificand) exponent
      have hfirst := firstDigit_significant hpos (max precision 1 - 1) negative
      rw [Nat.sub_add_cancel (le_max_right _ _)] at hfirst
      rw [tooFine_iff hfirst]
      generalize (significant (magnitude significand exponent) (max precision 1 - 1)).2 = top
      split
      · omega
      · split <;> omega

theorem numberBody_eq_beyondLayout_iff : numberBody d x = .error .beyondLayout ↔
    ((d.conversion = .f ∨ d.conversion = .e) ∧ isFinite x = true ∧
      placesLimit < d.precision.getD defaultPrecision) ∨
    (d.conversion = .g ∧ ∃ q, exactValue? x = some q ∧ q ≠ 0 ∧
      TooFine (max (d.precision.getD defaultPrecision) 1) q) := by
  rw [← lt_generalPlaces_iff]
  unfold numberBody
  cases d.conversion <;> simp [fixedText, scientificText, generalText]

/-! ## §3 Too much padding -/

theorem pad_eq_beyondLayout_iff (numeric : Bool) (body : List Char) :
    pad d numeric body = .error .beyondLayout ↔ body.length + paddingLimit < d.width := by
  have hlimit : 0 < paddingLimit := by decide
  unfold pad
  dsimp only
  split
  · next hfits =>
    have hnot : ¬ body.length + paddingLimit < d.width := by omega
    simp [hnot]
  · split
    · next hbeyond =>
      have hwide : body.length + paddingLimit < d.width := by omega
      simp [hwide]
    · next hwithin =>
      have hnot : ¬ body.length + paddingLimit < d.width := by omega
      split
      · simp [hnot]
      · split <;> simp [hnot]

/-- The directive without its width. -/
def Directive.unpadded (d : Directive) : Directive := { d with width := 0 }

theorem render_unpadded (d : Directive) (arg : Payload) :
    d.unpadded.render arg =
      if d.conversion = .s then (textOf arg).map (cutTo d.precision)
      else (numberOf arg).bind fun x => (numberBody d x).map (withSign d) := by
  have hpad (numeric : Bool) (body : List Char) : pad d.unpadded numeric body = .ok body := by
    simp [pad, Directive.unpadded]
  unfold Directive.render
  simp only [hpad]
  refine if_congr Iff.rfl ?_ ?_
  · cases textOf arg <;> rfl
  · cases numberOf arg with
    | error failure => rfl
    | ok x =>
      have hbody : numberBody d.unpadded x = numberBody d x := rfl
      dsimp only
      rw [hbody]
      cases h : numberBody d x with
      | error failure => simp only [Except.bind, Except.map, h]
      | ok body =>
        simp only [Except.bind, Except.map, h]
        rfl

/-- Padding comes last. -/
theorem render_eq_pad (d : Directive) (arg : Payload) :
    d.render arg = (d.unpadded.render arg).bind (pad d (d.conversion != .s)) := by
  rw [render_unpadded]
  unfold Directive.render
  split
  · next hconversion =>
    rw [hconversion]
    cases textOf arg <;> rfl
  · next hconversion =>
    rw [bne_iff_ne.mpr hconversion]
    cases numberOf arg with
    | error failure => rfl
    | ok x => cases hbody : numberBody d x <;> simp [Except.bind, Except.map, hbody]

/-! ## §4 Directives -/

/-- What a directive asks for is more than can be laid out. -/
inductive Overlong (d : Directive) (arg : Payload) : Prop
  /-- Too many places after the point of a finite number. -/
  | places {x : Float} (hconversion : d.conversion = .f ∨ d.conversion = .e)
      (hnumber : arg.toNumber? = some x) (hfinite : isFinite x = true)
      (hmany : placesLimit < d.precision.getD defaultPrecision)
  /-- Too many places on the way to a number in so many digits. -/
  | digits {x : Float} {q : ℚ} (hconversion : d.conversion = .g)
      (hnumber : arg.toNumber? = some x) (hvalue : exactValue? x = some q) (hne : q ≠ 0)
      (hfine : TooFine (max (d.precision.getD defaultPrecision) 1) q)
  /-- Too much padding around what is written without it. -/
  | padding {body : List Char} (hbody : d.unpadded.render arg = .ok body)
      (hwide : body.length + paddingLimit < d.width)

theorem render_unpadded_eq_beyondLayout_iff : d.unpadded.render arg = .error .beyondLayout ↔
    d.conversion ≠ .s ∧ ∃ x, arg.toNumber? = some x ∧ numberBody d x = .error .beyondLayout := by
  rw [render_unpadded, textOf, numberOf]
  split
  · next hconversion => cases arg.toText? <;> simp [hconversion, Except.map]
  · next hconversion =>
    cases arg.toNumber? with
    | none => simp [Except.bind]
    | some x => cases hbody : numberBody d x <;> simp [hconversion, Except.bind, Except.map, hbody]

/-- **A directive is beyond what can be laid out** in these cases and in no others. -/
theorem render_eq_beyondLayout_iff : d.render arg = .error .beyondLayout ↔ Overlong d arg := by
  rw [render_eq_pad]
  constructor
  · intro hbeyond
    cases hbody : d.unpadded.render arg with
    | ok body =>
      rw [hbody] at hbeyond
      exact .padding hbody ((pad_eq_beyondLayout_iff _ body).mp hbeyond)
    | error failure =>
      rw [hbody] at hbeyond
      cases hbeyond
      obtain ⟨-, x, hnumber, hx⟩ := render_unpadded_eq_beyondLayout_iff.mp hbody
      obtain ⟨hconversion, hfinite, hmany⟩ | ⟨hconversion, q, hvalue, hne, hfine⟩ :=
        numberBody_eq_beyondLayout_iff.mp hx
      · exact .places hconversion hnumber hfinite hmany
      · exact .digits hconversion hnumber hvalue hne hfine
  · intro hoverlong
    cases hoverlong with
    | @places x hconversion hnumber hfinite hmany =>
      have hbody : numberBody d x = .error .beyondLayout :=
        numberBody_eq_beyondLayout_iff.mpr (.inl ⟨hconversion, hfinite, hmany⟩)
      have htext : d.conversion ≠ .s := by
        obtain hletter | hletter := hconversion <;> simp [hletter]
      rw [render_unpadded_eq_beyondLayout_iff.mpr ⟨htext, x, hnumber, hbody⟩]
      rfl
    | @digits x q hconversion hnumber hvalue hne hfine =>
      have hbody : numberBody d x = .error .beyondLayout :=
        numberBody_eq_beyondLayout_iff.mpr (.inr ⟨hconversion, q, hvalue, hne, hfine⟩)
      have htext : d.conversion ≠ .s := by simp [hconversion]
      rw [render_unpadded_eq_beyondLayout_iff.mpr ⟨htext, x, hnumber, hbody⟩]
      rfl
    | @padding body hbody hwide =>
      rw [hbody]
      exact (pad_eq_beyondLayout_iff _ body).mpr hwide

/-- No directive has a width from `2 ^ 63` on, or a precision above the bound. -/
def Modest (bound : Nat) (pieces : List Piece) : Prop :=
  ∀ d ∈ directives pieces, d.width < 2 ^ 63 ∧ ∀ n ∈ d.precision, n ≤ bound

/-- What asks for little can be laid out. -/
theorem render_ne_beyondLayout_of_modest {bound : Nat} {pieces : List Piece}
    (hbound : bound ≤ safePrecision) (h : Modest bound pieces) (hd : d ∈ directives pieces) :
    d.render arg ≠ .error .beyondLayout := by
  obtain ⟨hwidth, hprecision⟩ := h d hd
  exact render_ne_beyondLayout (Nat.le_of_lt_succ hwidth)
    (getD_le_safePrecision fun n hn => (hprecision n hn).trans hbound) arg

/-- Its value is `2 ^ (-13)`. -/
def small : Float := .ofBits 0x3f20000000000000

theorem exactValue?_small : exactValue? small = some (2 ^ (-13 : Int)) := by
  have hbinary : Binary.ofFloat small = .finite false (2 ^ 52) (-65) := by decide
  rw [exactValue?_of_finite hbinary, value_magnitude]
  norm_num [signed]

/-- One place above the bound. -/
def oneTooMany : Directive := ⟨false, false, false, false, 0, some (safePrecision + 1), .g⟩

/-- There, a number can be beyond what can be laid out. -/
theorem overlong_small : Overlong oneTooMany (.number small) := by
  refine .digits rfl rfl exactValue?_small (by norm_num) (.inr ⟨-4, ?_, ?_⟩)
  · exact firstDigit_small (safePrecision - 9)
  · decide

theorem splits_oneTooMany :
    Splits (numberFormat (some (safePrecision + 1)) .g).toList [.directive oneTooMany] none :=
  splits_iff.mpr (read_numberFormat (by decide) .g)

theorem modest_oneTooMany {bound : Nat} (hbound : safePrecision < bound) :
    Modest bound [.directive oneTooMany] := by
  intro d hd
  obtain rfl : d = oneTooMany := by simpa [directives, Piece.directive?] using hd
  refine ⟨by decide, fun n hn => ?_⟩
  cases hn
  exact hbound

end Format

namespace Engine

open Number Format Standard

/-! ## §5 Calls -/

variable {config : Config} {events : List Event} {args : Arguments} {frame : Frame}
  {format : String} {arg : Payload} {pieces : List Piece} {fault : Option Fault}

/-- The arguments of a call come to a format and to what is to be written by it. -/
def Gives (args : Arguments) (frame : Frame) (format : String) (arg : Payload) : Prop :=
  ∃ form value p, args.items = [form, value] ∧ form.outcome frame = .ok p ∧
    p.toText? = some format ∧ value.outcome frame = .ok arg

/-- No error is told in place of another end of a call. -/
theorem nameTypes_error_ne (types : Registry) (e : Error) :
    nameTypes types (.error e) ≠ .beyondLayout := by
  unfold nameTypes
  split
  · split <;> simp
  · simp

/-- There is nothing that could not be laid out unless there are two arguments and the first of them
is text. -/
theorem gives_of_beyondLayout (hinit : (run { config := config } events).initialized = true)
    (clock : Float) (memory : Memory) (files : Tree)
    (h : ((run { config := config } events).call clock memory "create_string_fa" args frame files).1 =
      .error .beyondLayout) : ∃ format arg, Gives args frame format arg := by
  have hspec : ⟨"string create_string_fa( string format, root arg )", createString⟩ ∈ specs := by
    simp [specs, stringSpecs]
  have hconforms : Conforms ((run { config := config } events).host clock memory)
      ⟨some "string", "create_string_fa", [⟨"string", "format"⟩, ⟨"root", "arg"⟩]⟩ createString :=
    createString_conforms ⟨rfl, rfl, rfl⟩
  rw [call_standard hinit hspec parse_createString] at h
  by_cases hsize : args.size = 2
  · obtain ⟨form, value, hargs⟩ := List.length_eq_two.mp hsize
    obtain hclean | ⟨front, a, reading, back, e, hzip, hfront, hfault⟩ :=
      Argument.fault?_cases frame (args.items.zip [.text, .anything])
    · rw [hargs] at hclean
      obtain ⟨p, hp, hread⟩ := Argument.outcome_of_fault?_eq_none (hclean (form, .text) (by simp))
      obtain ⟨arg, harg, -⟩ :=
        Argument.outcome_of_fault?_eq_none (hclean (value, .anything) (by simp))
      obtain ⟨format, hformat⟩ := Reading.fault?_text_eq_none_iff.mp hread
      exact ⟨format, arg, form, value, p, hargs, hp, hformat, harg⟩
    · rw [hconforms.run_of_fault hsize hzip hfront hfault] at h
      exact absurd (Except.error.inj h) (nameTypes_error_ne _ e)
  · rw [hconforms.run_of_count hsize] at h
    cases h

theorem call_eq_beyondLayout_iff (hinit : (run { config := config } events).initialized = true)
    (hgives : Gives args frame format arg) (hsplits : Splits format.toList pieces fault)
    (clock : Float) (memory : Memory) (files : Tree) :
    ((run { config := config } events).call clock memory "create_string_fa" args frame files).1 =
      .error .beyondLayout ↔
    ∃ d later, directives pieces = d :: later ∧ d.render arg = .error .beyondLayout := by
  obtain ⟨form, value, p, hargs, hp, htext, hvalue⟩ := hgives
  rw [call_createString hinit hargs hp htext hvalue, Format.apply, splits_iff.mp hsplits,
    ← (outcome_fill formatName arg pieces fault).beyond_iff]
  cases fill formatName arg fault false pieces <;> simp [Except.map]

/-- Where calls of the formatting builtin are beyond what can be laid out. -/
structure Frontier (engine : Engine) (clock : Float) (memory : Memory) (files : Tree) : Prop where
  /-- It is the first directive that decides, if what comes before it is well formed. -/
  beyond : ∀ args frame,
    (engine.call clock memory "create_string_fa" args frame files).1 = .error .beyondLayout ↔
      ∃ format arg pieces fault d later, Gives args frame format arg ∧
        Splits format.toList pieces fault ∧ directives pieces = d :: later ∧ Overlong d arg
  /-- The largest bound on precisions under which there are no such calls. -/
  largest : ∀ bound, (∀ args frame format arg pieces fault, Gives args frame format arg →
    Splits format.toList pieces fault → Modest bound pieces →
    (engine.call clock memory "create_string_fa" args frame files).1 ≠ .error .beyondLayout) ↔
      bound ≤ safePrecision

/-- **What can be laid out** has an exact limit, and a precision up to `safePrecision` is within it
for all numbers. -/
theorem layout_frontier (config : Config) (events : List Event)
    (hinit : (run { config := config } events).initialized = true) (clock : Float)
    (memory : Memory) (files : Tree) :
    Frontier (run { config := config } events) clock memory files := by
  constructor
  case beyond =>
    intro args frame
    constructor
    · intro h
      obtain ⟨format, arg, hgives⟩ := gives_of_beyondLayout hinit clock memory files h
      have hsplits := splits_read format.toList
      obtain ⟨d, later, hfirst, hrender⟩ :=
        (call_eq_beyondLayout_iff hinit hgives hsplits clock memory files).mp h
      exact ⟨format, arg, _, _, d, later, hgives, hsplits, hfirst,
        render_eq_beyondLayout_iff.mp hrender⟩
    · intro ⟨format, arg, pieces, fault, d, later, hgives, hsplits, hfirst, hoverlong⟩
      exact (call_eq_beyondLayout_iff hinit hgives hsplits clock memory files).mpr
        ⟨d, later, hfirst, render_eq_beyondLayout_iff.mpr hoverlong⟩
  case largest =>
    intro bound
    constructor
    · intro hnever
      by_contra hbound
      have hgives : Gives (.positional 2)
          ⟨[.ready (.text (numberFormat (some (safePrecision + 1)) .g)), .ready (.number small)]⟩
          (numberFormat (some (safePrecision + 1)) .g) (.number small) :=
        ⟨⟨0, none⟩, ⟨1, none⟩, _, rfl, rfl, rfl, rfl⟩
      exact hnever _ _ _ _ _ _ hgives splits_oneTooMany (modest_oneTooMany (Nat.lt_of_not_le hbound))
        ((call_eq_beyondLayout_iff hinit hgives splits_oneTooMany clock memory files).mpr
          ⟨oneTooMany, [], rfl, render_eq_beyondLayout_iff.mpr overlong_small⟩)
    · intro hbound args frame format arg pieces fault hgives hsplits hmodest hbeyond
      obtain ⟨d, later, hfirst, hrender⟩ :=
        (call_eq_beyondLayout_iff hinit hgives hsplits clock memory files).mp hbeyond
      exact render_ne_beyondLayout_of_modest hbound hmodest (by simp [hfirst]) hrender

/-- An engine on which nothing but `init1` has happened. -/
theorem layout_frontier_init1 : (run {} [.signal .init1]).initialized = true ∧
    Frontier (run {} [.signal .init1]) 0 .usual {} :=
  ⟨initialized_run_init1, layout_frontier {} [.signal .init1] initialized_run_init1 0 .usual {}⟩

end Engine

end SceneScript
