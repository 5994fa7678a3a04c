/-
SceneScript.Proofs.FormatTheorems — what a format makes of its argument.

Writing an argument by a format goes through the pieces that the format splits into.
Pieces without a directive are only text, so that what comes of the rest is decided at
the first directive, at the second, and at the end (`fill_append`): `Outcome` lists
the ways in which it can be decided, and `outcome_fill` says that there are no others.

`format_decomposition` says so of every engine on which `init1` has succeeded: which
formats are written, what the text is, and which of several objections is made. Texts
with doubled percent signs come out as they were, around an argument or alone.
-/
import SceneScript.Proofs.RenderTheorems

namespace SceneScript

namespace Format

/-! ## §1 Pieces -/

/-- The directive of a piece. -/
def Piece.directive? : Piece → Option Directive
  | .directive d => some d
  | _ => none

/-- The directives among pieces. -/
def directives (pieces : List Piece) : List Directive := pieces.filterMap Piece.directive?

/-- What a piece gives without an argument. -/
def Piece.plain : Piece → List Char
  | .literal c => [c]
  | .percent => ['%']
  | .directive _ => []

/-- What a piece writes when it is given an argument. -/
inductive Piece.Writes (arg : Payload) : Piece → List Char → Prop
  | literal (c : Char) : Writes arg (.literal c) [c]
  | percent : Writes arg .percent ['%']
  | directive {d : Directive} {text : List Char} (h : d.render arg = .ok text) :
      Writes arg (.directive d) text

variable {caller : String} {arg : Payload} {pieces front back : List Piece} {fault : Option Fault}
  {used : Bool} {d : Directive} {later : List Directive}

/-- The first directive is somewhere among the pieces, and none is before it. -/
theorem exists_of_directives_eq_cons (h : directives pieces = d :: later) :
    ∃ front back, pieces = front ++ .directive d :: back ∧ directives front = [] ∧
      directives back = later := by
  obtain ⟨front, piece, back, rfl, hfront, hpiece, hback⟩ := List.filterMap_eq_cons_iff.mp h
  obtain rfl : piece = .directive d := by
    cases piece <;> simp_all [Piece.directive?]
  exact ⟨front, back, rfl, List.filterMap_eq_nil_iff.mpr hfront, hback⟩

/-- Without directives every piece writes what it gives anyway. -/
theorem writes_plain (h : directives pieces = []) :
    List.Forall₂ (Piece.Writes arg) pieces (pieces.map Piece.plain) := by
  induction pieces with
  | nil => exact .nil
  | cons piece rest ih =>
    cases piece with
    | literal c => exact .cons (.literal c) (ih h)
    | percent => exact .cons .percent (ih h)
    | directive d => cases h

/-! ## §2 Filling -/

/-- Pieces without a directive come before what is made of the others. -/
theorem fill_append (h : directives front = []) : fill caller arg fault used (front ++ back) =
    (fill caller arg fault used back).map ((front.map Piece.plain).flatten ++ ·) := by
  have hmap (outcome : Except Failure (List Char)) (c : Char) (text : List Char) :
      (outcome.map (text ++ ·)).map (c :: ·) = outcome.map (c :: text ++ ·) := by
    cases outcome <;> rfl
  induction front with
  | nil =>
    rw [List.nil_append]
    cases fill caller arg fault used back <;> rfl
  | cons piece rest ih =>
    cases piece with
    | literal c =>
      rw [List.cons_append, fill, ih h, hmap]
      rfl
    | percent =>
      rw [List.cons_append, fill, ih h, hmap]
      rfl
    | directive d => cases h

/-- What is decided where the pieces end. -/
theorem fill_of_directives_nil (h : directives pieces = []) : fill caller arg fault used pieces =
    match fault with
    | none => .ok (pieces.map Piece.plain).flatten
    | some fault => .error (.error (.invalidArgument caller fault.objection)) := by
  have hfill : fill caller arg fault used (pieces ++ []) = _ := fill_append h
  rw [List.append_nil] at hfill
  rw [hfill]
  cases fault with
  | none => exact congrArg Except.ok (List.append_nil _)
  | some fault => rfl

/-- What is decided at a directive. -/
theorem fill_of_directives_cons (hfront : directives front = []) :
    fill caller arg fault used (front ++ .directive d :: back) =
      if used then .error (.error (.invalidArgument caller .secondConversion))
      else
        match d.render arg with
        | .error failure => .error failure
        | .ok text =>
          (fill caller arg fault true back).map ((front.map Piece.plain).flatten ++ text ++ ·) := by
  rw [fill_append hfront, fill]
  split
  · rfl
  · cases d.render arg with
    | error failure => rfl
    | ok text => cases fill caller arg fault true back <;> simp [Except.map]

/-- How it is decided what comes of pieces and what is wrong after them, from left to right. -/
inductive Outcome (caller : String) (arg : Payload) (pieces : List Piece) (fault : Option Fault) :
    Except Failure (List Char) → Prop
  | written {texts : List (List Char)} (hfault : fault = none)
      (hcount : (directives pieces).length ≤ 1)
      (htexts : List.Forall₂ (Piece.Writes arg) pieces texts) :
      Outcome caller arg pieces fault (.ok texts.flatten)
  /-- The first directive does not get the argument written. -/
  | unrendered {d : Directive} {later : List Directive} {failure : Failure}
      (hfirst : directives pieces = d :: later) (hrender : d.render arg = .error failure) :
      Outcome caller arg pieces fault (.error failure)
  /-- It does, and there is a second. -/
  | second {d d' : Directive} {later : List Directive} {text : List Char}
      (hfirst : directives pieces = d :: d' :: later) (hrender : d.render arg = .ok text) :
      Outcome caller arg pieces fault (.error (.error (.invalidArgument caller .secondConversion)))
  /-- There is no second, but something is wrong at the end. -/
  | illFormed {f : Fault} (hfault : fault = some f) (hcount : (directives pieces).length ≤ 1)
      (hrender : ∀ d ∈ directives pieces, ∃ text, d.render arg = .ok text) :
      Outcome caller arg pieces fault (.error (.error (.invalidArgument caller f.objection)))

/-- **Every format is decided** at its first directive, its second, or its end. -/
theorem outcome_fill (caller : String) (arg : Payload) (pieces : List Piece)
    (fault : Option Fault) :
    Outcome caller arg pieces fault (fill caller arg fault false pieces) := by
  cases hfirst : directives pieces with
  | nil =>
    have hcount : (directives pieces).length ≤ 1 := by simp [hfirst]
    rw [fill_of_directives_nil hfirst]
    cases fault with
    | none => exact .written rfl hcount (writes_plain hfirst)
    | some f => exact .illFormed rfl hcount (by simp [hfirst])
  | cons d later =>
    obtain ⟨front, back, rfl, hfront, rfl⟩ := exists_of_directives_eq_cons hfirst
    rw [fill_of_directives_cons hfront, if_neg Bool.false_ne_true]
    cases hrender : d.render arg with
    | error failure => exact .unrendered hfirst hrender
    | ok text =>
      cases hsecond : directives back with
      | nil =>
        rw [hsecond] at hfirst
        have hcount : (directives (front ++ .directive d :: back)).length ≤ 1 := by simp [hfirst]
        dsimp only
        rw [fill_of_directives_nil hsecond]
        cases fault with
        | none =>
          have htexts : List.Forall₂ (Piece.Writes arg) (front ++ .directive d :: back)
              (front.map Piece.plain ++ text :: back.map Piece.plain) :=
            List.rel_append (writes_plain hfront)
              (.cons (.directive hrender) (writes_plain hsecond))
          have hwritten : Outcome caller arg _ none _ := .written rfl hcount htexts
          simpa [Except.map] using hwritten
        | some f =>
          refine .illFormed rfl hcount fun d' hd' => ?_
          rw [hfirst, List.mem_singleton] at hd'
          exact ⟨text, hd' ▸ hrender⟩
      | cons d' later =>
        rw [hsecond] at hfirst
        obtain ⟨front', back', rfl, hfront', -⟩ := exists_of_directives_eq_cons hsecond
        dsimp only
        rw [fill_of_directives_cons hfront', if_pos rfl]
        exact .second hfirst hrender

/-! ## §3 What can be laid out -/

theorem pad_ne_beyondLayout (h : d.width ≤ paddingLimit) (numeric : Bool) (body : List Char) :
    pad d numeric body ≠ .error .beyondLayout := by
  unfold pad
  dsimp only
  split
  · simp
  · rw [if_neg (by omega)]
    split
    · simp
    · split <;> simp

/-- Only with a huge width or precision is an argument beyond what can be laid out. -/
theorem render_ne_beyondLayout (hwidth : d.width ≤ paddingLimit)
    (hprecision : d.precision.getD defaultPrecision ≤ safePrecision) (arg : Payload) :
    d.render arg ≠ .error .beyondLayout := by
  unfold Directive.render
  split
  · unfold textOf
    cases arg.toText? with
    | none => simp
    | some s => exact pad_ne_beyondLayout hwidth _ _
  · unfold numberOf
    cases arg.toNumber? with
    | none => simp
    | some x =>
      dsimp only
      obtain ⟨body, hbody⟩ : ∃ body, numberBody d x = .ok body := by
        by_cases hconversion : d.conversion ∈ [.f, .e, .g]
        · exact ⟨_, numberBody_eq hconversion hprecision x⟩
        · unfold numberBody
          cases hletter : d.conversion with
          | f | e | g => simp [hletter] at hconversion
          | s | d | i => exact ⟨_, rfl⟩
      rw [hbody]
      exact pad_ne_beyondLayout hwidth _ _

/-! ## §4 Answers -/

/-- What comes of writing an argument by a format with the given pieces and with the given fault
after them. -/
structure Formatted (arg : Payload) (pieces : List Piece) (fault : Option Fault)
    (answer : Except Failure Value) : Prop where
  /-- What cannot be laid out is the first directive. -/
  beyond : answer = .error .beyondLayout ↔
    ∃ d later, directives pieces = d :: later ∧ d.render arg = .error .beyondLayout
  laidOut : (∀ d ∈ directives pieces, d.width ≤ paddingLimit ∧
    d.precision.getD defaultPrecision ≤ safePrecision) → answer ≠ .error .beyondLayout
  /-- Apart from that, what is written is exactly what has no fault, no second directive and an
  argument that its directive can read. -/
  succeeds : answer ≠ .error .beyondLayout → ((∃ v, answer = .ok v) ↔
    fault = none ∧ (directives pieces).length ≤ 1 ∧
      ∀ d ∈ directives pieces, d.reading.fault? arg = none)
  written : ∀ v, answer = .ok v → ∃ texts, List.Forall₂ (Piece.Writes arg) pieces texts ∧
    v = .owned (.text (String.ofList texts.flatten))
  /-- An argument that the first directive cannot read comes before any other objection. -/
  unreadable : ∀ d later e, directives pieces = d :: later → d.reading.fault? arg = some e →
    answer = .error (.error e)
  /-- Next comes a second directive. -/
  second : answer ≠ .error .beyondLayout → ∀ d d' later, directives pieces = d :: d' :: later →
    d.reading.fault? arg = none →
    answer = .error (.error (.invalidArgument Standard.formatName .secondConversion))
  /-- The fault comes last. -/
  illFormed : answer ≠ .error .beyondLayout → ∀ f, fault = some f →
    (directives pieces).length ≤ 1 → (∀ d ∈ directives pieces, d.reading.fault? arg = none) →
    answer = .error (.error (.invalidArgument Standard.formatName f.objection))

/-- A directive is written only if its argument can be read. -/
theorem readable_of_render {text : List Char} (h : d.render arg = .ok text) :
    d.reading.fault? arg = none := by
  cases hfault : d.reading.fault? arg with
  | none => rfl
  | some e =>
    rw [render_of_fault hfault] at h
    cases h

theorem render_of_writes {texts : List (List Char)}
    (h : List.Forall₂ (Piece.Writes arg) pieces texts) :
    ∀ d ∈ directives pieces, ∃ text, d.render arg = .ok text := by
  intro d hd
  obtain ⟨piece, hpiece, hdirective⟩ := List.mem_filterMap.mp hd
  obtain ⟨text, -, hwrites⟩ := exists_mem_of_forall₂ h piece hpiece
  cases hwrites with
  | literal c => cases hdirective
  | percent => cases hdirective
  | directive hrender =>
    cases hdirective
    exact ⟨text, hrender⟩

namespace Outcome

variable {outcome : Except Failure (List Char)} {failure : Failure}

/-- The three ways to go on from the first directive exclude each other. -/
theorem of_unrendered (h : Outcome caller arg pieces fault outcome)
    (hfirst : directives pieces = d :: later) (hfails : d.render arg = .error failure) :
    outcome = .error failure := by
  have hnot : ∀ {text}, d.render arg ≠ .ok text := by simp [hfails]
  cases h with
  | written _ _ htexts =>
    obtain ⟨text, hrender⟩ := render_of_writes htexts d (by simp [hfirst])
    exact absurd hrender hnot
  | unrendered hfirst' hrender =>
    rw [hfirst] at hfirst'
    cases hfirst'
    rw [← hrender, hfails]
  | second hfirst' hrender =>
    rw [hfirst] at hfirst'
    cases hfirst'
    exact absurd hrender hnot
  | illFormed _ _ hrender =>
    obtain ⟨text, hrender⟩ := hrender d (by simp [hfirst])
    exact absurd hrender hnot

theorem of_second {d' : Directive} {text : List Char}
    (h : Outcome caller arg pieces fault outcome)
    (hfirst : directives pieces = d :: d' :: later) (hok : d.render arg = .ok text) :
    outcome = .error (.error (.invalidArgument caller .secondConversion)) := by
  have hmany : ¬ (directives pieces).length ≤ 1 := by simp [hfirst]
  cases h with
  | written _ hcount _ => exact absurd hcount hmany
  | unrendered hfirst' hrender =>
    rw [hfirst] at hfirst'
    cases hfirst'
    rw [hok] at hrender
    cases hrender
  | second => rfl
  | illFormed _ hcount _ => exact absurd hcount hmany

theorem of_single (h : Outcome caller arg pieces fault outcome)
    (hcount : (directives pieces).length ≤ 1)
    (hok : ∀ d ∈ directives pieces, ∃ text, d.render arg = .ok text) :
    (fault = none ∧ ∃ out, outcome = .ok out) ∨
    ∃ f, fault = some f ∧
      outcome = .error (.error (.invalidArgument caller f.objection)) := by
  cases h with
  | written hfault _ _ => exact .inl ⟨hfault, _, rfl⟩
  | unrendered hfirst hrender =>
    rw [hfirst] at hok
    obtain ⟨text, htext⟩ := hok _ List.mem_cons_self
    rw [htext] at hrender
    cases hrender
  | second hfirst _ => simp [hfirst] at hcount
  | illFormed hfault _ _ => exact .inr ⟨_, hfault, rfl⟩

theorem beyond_iff (h : Outcome caller arg pieces fault outcome) :
    outcome = .error .beyondLayout ↔
      ∃ d later, directives pieces = d :: later ∧ d.render arg = .error .beyondLayout := by
  constructor
  · intro hbeyond
    cases h with
    | written => cases hbeyond
    | unrendered hfirst hrender =>
      cases hbeyond
      exact ⟨_, _, hfirst, hrender⟩
    | second => cases hbeyond
    | illFormed => cases hbeyond
  · rintro ⟨d, later, hfirst, hrender⟩
    exact h.of_unrendered hfirst hrender

/-- The first directive writes what it can read, unless that is beyond what can be laid out. -/
theorem render_first (h : Outcome caller arg pieces fault outcome)
    (hne : outcome ≠ .error .beyondLayout) (hfirst : directives pieces = d :: later)
    (hread : d.reading.fault? arg = none) : ∃ text, d.render arg = .ok text :=
  (render_of_readable hread).resolve_right fun hbeyond =>
    hne (h.beyond_iff.mpr ⟨d, later, hfirst, hbeyond⟩)

/-- So does a directive that is the only one. -/
theorem render_only (h : Outcome caller arg pieces fault outcome)
    (hne : outcome ≠ .error .beyondLayout) (hcount : (directives pieces).length ≤ 1)
    (hread : ∀ d ∈ directives pieces, d.reading.fault? arg = none) :
    ∀ d ∈ directives pieces, ∃ text, d.render arg = .ok text := by
  intro d hd
  obtain ⟨d', hd'⟩ | hnil : (∃ d', directives pieces = [d']) ∨ directives pieces = [] := by
    cases hfirst : directives pieces with
    | nil => exact .inr rfl
    | cons d' later => simp_all
  · obtain rfl : d = d' := by simpa [hd'] using hd
    exact h.render_first hne hd' (hread d hd)
  · simp [hnil] at hd

theorem readable_iff (h : Outcome caller arg pieces fault outcome)
    (hne : outcome ≠ .error .beyondLayout) : (∃ out, outcome = .ok out) ↔
      fault = none ∧ (directives pieces).length ≤ 1 ∧
        ∀ d ∈ directives pieces, d.reading.fault? arg = none := by
  constructor
  · rintro ⟨out, rfl⟩
    cases h with
    | written hfault hcount htexts =>
      refine ⟨hfault, hcount, fun d hd => ?_⟩
      obtain ⟨text, hrender⟩ := render_of_writes htexts d hd
      exact readable_of_render hrender
  · rintro ⟨hfault, hcount, hread⟩
    obtain ⟨-, hout⟩ | ⟨f, hsome, -⟩ := h.of_single hcount (h.render_only hne hcount hread)
    · exact hout
    · rw [hfault] at hsome
      cases hsome

/-- What has been decided is the answer of a call. -/
theorem formatted (h : Outcome Standard.formatName arg pieces fault outcome) :
    Formatted arg pieces fault
      (outcome.map fun out => Value.owned (.text (String.ofList out))) := by
  have hfails {failure : Failure} :
      (outcome.map fun out => Value.owned (.text (String.ofList out))) = .error failure ↔
        outcome = .error failure := by
    cases outcome <;> simp [Except.map]
  have hok : (∃ v, (outcome.map fun out => Value.owned (.text (String.ofList out))) = .ok v) ↔
      ∃ out, outcome = .ok out := by
    cases outcome <;> simp [Except.map]
  constructor
  case beyond => exact hfails.trans h.beyond_iff
  case laidOut =>
    intro hlimits hbeyond
    obtain ⟨d, later, hfirst, hrender⟩ := h.beyond_iff.mp (hfails.mp hbeyond)
    obtain ⟨hwidth, hprecision⟩ := hlimits d (by simp [hfirst])
    exact render_ne_beyondLayout hwidth hprecision arg hrender
  case succeeds => exact fun hne => hok.trans (h.readable_iff (mt hfails.mpr hne))
  case written =>
    intro v hv
    cases h with
    | written _ _ htexts =>
      cases hv
      exact ⟨_, htexts, rfl⟩
    | unrendered | second | illFormed => cases hv
  case unreadable =>
    exact fun d later e hfirst hfault => hfails.mpr (h.of_unrendered hfirst (render_of_fault hfault))
  case second =>
    intro hne d d' later hfirst hread
    obtain ⟨text, hrender⟩ := h.render_first (mt hfails.mpr hne) hfirst hread
    exact hfails.mpr (h.of_second hfirst hrender)
  case illFormed =>
    intro hne f hfault hcount hread
    obtain ⟨hnone, -⟩ | ⟨f', hsome, houtcome⟩ :=
      h.of_single hcount (h.render_only (mt hfails.mpr hne) hcount hread)
    · rw [hfault] at hnone
      cases hnone
    · rw [hfault] at hsome
      cases hsome
      exact hfails.mpr houtcome

end Outcome

/-! ## §5 Doubled percent signs -/

theorem directives_doubled (text : List Char) : directives (text.map Piece.ofChar) = [] := by
  refine List.filterMap_eq_nil_iff.mpr fun piece hpiece => ?_
  obtain ⟨c, -, rfl⟩ := List.mem_map.mp hpiece
  unfold Piece.ofChar
  split <;> rfl

theorem plain_doubled (text : List Char) :
    ((text.map Piece.ofChar).map Piece.plain).flatten = text := by
  induction text with
  | nil => rfl
  | cons c text ih =>
    rw [List.map_cons, List.map_cons, List.flatten_cons, ih, Piece.ofChar]
    split
    · next hc => rw [hc]; rfl
    · rfl

/-- A doubled text comes out as it was, whatever the argument. -/
theorem apply_doubled (caller : String) (text : List Char) (arg : Payload) :
    apply caller (String.ofList (doubled text)) arg = .ok (String.ofList text) := by
  have hread := splits_iff.mp (Splits.doubled_append text .nil)
  rw [List.append_nil, List.append_nil] at hread
  rw [apply, String.toList_ofList, hread, fill_of_directives_nil (directives_doubled text),
    plain_doubled]
  rfl

/-- A directive between doubled texts gives what it writes between these texts. -/
theorem apply_directive (caller : String) (o : Opening) (conversion : Conversion)
    (front back : List Char) {out : List Char}
    (hrender : (o.directive conversion).render arg = .ok out) :
    apply caller
        (String.ofList (doubled front ++ '%' :: (o.text ++ conversion.letter :: doubled back)))
        arg =
      .ok (String.ofList (front ++ out ++ back)) := by
  have hback := Splits.doubled_append back .nil
  have hread := splits_iff.mp (Splits.doubled_append front (.directive o conversion hback))
  rw [List.append_nil, List.append_nil] at hread
  rw [apply, String.toList_ofList, hread, fill_of_directives_cons (directives_doubled front),
    if_neg Bool.false_ne_true, hrender]
  dsimp only
  rw [fill_of_directives_nil (directives_doubled back), plain_doubled, plain_doubled]
  rfl

/-- So does the directive that gives a text as it is. -/
theorem apply_around (caller : String) (front back : List Char) {t : String}
    (ht : arg.toText? = some t) :
    apply caller (String.ofList (doubled front ++ '%' :: 's' :: doubled back)) arg =
      .ok (String.ofList (front ++ t.toList ++ back)) := by
  let o : Opening := ⟨[], [], none, by simp, by simp, by simp, by simp⟩
  have hrender : (o.directive .s).render arg = .ok t.toList := by
    simp [o, Directive.render, Opening.directive, textOf, ht, pad, cutTo]
  exact apply_directive caller o .s front back hrender

end Format

namespace Engine

open Format Standard

/-! ## §6 Calls -/

/-- What comes of writing an argument by a format: the format splits in one way, and what its pieces
make of the argument is the answer. -/
structure Decomposed (arg : Payload) (format : List Char) (answer : Except Failure Value) :
    Prop where
  split : ∃ pieces fault, Splits format pieces fault ∧ Formatted arg pieces fault answer ∧
    ∀ pieces' fault', Splits format pieces' fault' → pieces' = pieces ∧ fault' = fault
  around : ∀ front back t, format = doubled front ++ '%' :: 's' :: doubled back →
    arg.toText? = some t →
    answer = .ok (.owned (.text (String.ofList (front ++ t.toList ++ back))))
  alone : ∀ text, format = doubled text → answer = .ok (.owned (.text (String.ofList text)))

/-- **Formats are taken apart** from left to right, on every engine on which `init1` has succeeded,
and the answer is put together from the pieces, or is the objection to the first that is wrong. -/
theorem format_decomposition (config : Config) (events : List Event)
    (hinit : (run { config := config } events).initialized = true) (clock : Float)
    (memory : Memory) (files : Tree) (format : String) (arg : Payload) :
    ∃ answer, WritesTo (run { config := config } events) clock memory files format arg answer ∧
      Decomposed arg format.toList answer := by
  refine ⟨_, fun args frame form value p hargs hp htext hvalue =>
    call_createString hinit hargs hp htext hvalue clock memory files, ?_⟩
  constructor
  case split =>
    have houtcome := outcome_fill formatName arg (Template.read format.toList).pieces
      (Template.read format.toList).fault
    refine ⟨_, _, splits_read format.toList, ?_, fun pieces' fault' h' => ?_⟩
    · have hformatted := houtcome.formatted
      rw [Format.apply]
      generalize fill formatName arg (Template.read format.toList).fault false
        (Template.read format.toList).pieces = outcome at hformatted ⊢
      cases outcome <;> exact hformatted
    · rw [splits_iff.mp h']
      exact ⟨rfl, rfl⟩
  case around =>
    intro front back t hsource ht
    rw [← String.ofList_toList (s := format), hsource, apply_around _ front back ht]
    rfl
  case alone =>
    intro text hsource
    rw [← String.ofList_toList (s := format), hsource, apply_doubled]
    rfl

/-- A second directive after a pair, and a third that is none, on an engine on which nothing but
`init1` has happened. -/
theorem format_decomposition_second :
    (run {} [.signal .init1]).initialized = true ∧
      ∃ answer, WritesTo (run {} [.signal .init1]) 0 .usual {} "%d%%%d%q" (.integer 7) answer ∧
        Decomposed (.integer 7) "%d%%%d%q".toList answer :=
  ⟨initialized_run_init1, format_decomposition {} [.signal .init1] initialized_run_init1 0 .usual
    {} "%d%%%d%q" (.integer 7)⟩

end Engine

end SceneScript
