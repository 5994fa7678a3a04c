/-
SceneScript.Proofs.StringTheorems — numbers that go through text and come back.

A call of one of the text builtins comes to what its entry makes of the arguments,
on every engine on which `init1` has succeeded (`call_standard`): `string_to_num`
reads the text of its argument (`call_stringToNum`), and the format `%s` gives the
text of what it is given (`call_textFormat`).

With what is known of the text of a double, `number_text_reads_back` follows: a
finite double that goes through its text comes back as the same number, or, from
`2 ^ 63` on in either direction, is objected to as a whole number.
-/
import SceneScript.Proofs.DispatchTheorems
import SceneScript.Proofs.PlainTheorems

namespace SceneScript

namespace Standard

/-! ## §1 The two entries -/

variable {host : Host} {signature : Signature} {args : Arguments} {arg arg' : Argument}
  {frame : Frame} {p p' : Payload} {source format : String} {count : Nat}

/-- An argument that comes to something that can be read is asked for and read. -/
theorem read_apply {α : Type} {a : α} {i : Nat} (read : Value → Except Error α)
    (harg : args.items[i]? = some arg) (hp : arg.outcome frame = .ok p)
    (hread : read (.shared p) = .ok a) :
    (argument args i >>= fun v => attempt (read v)) frame =
      (.ok a, (frame.eval arg.slot).2) := by
  rw [bind_apply, argument_apply harg, hp]
  show attempt (read (.shared p)) _ = _
  rw [hread]
  rfl

theorem text_apply {i : Nat} (harg : args.items[i]? = some arg) (hp : arg.outcome frame = .ok p)
    (htext : p.toText? = some source) :
    text args i frame = (.ok source, (frame.eval arg.slot).2) := by
  have hpayload : (Value.shared p).payload.toText? = some source := htext
  exact read_apply Value.toText harg hp (by rw [Value.toText, hpayload])

theorem number_apply {i : Nat} {x : Float} (harg : args.items[i]? = some arg)
    (hp : arg.outcome frame = .ok p) (hnumber : p.toNumber? = some x) :
    number args i frame = (.ok x, (frame.eval arg.slot).2) := by
  have hpayload : (Value.shared p).payload.toNumber? = some x := hnumber
  exact read_apply Value.toNumber harg hp (by rw [Value.toNumber, hpayload])

theorem content_apply {α : Type} {a : α} {i : Nat} (form : Form α)
    (harg : args.items[i]? = some arg) (hp : arg.outcome frame = .ok (form.wrap a)) :
    content form args i frame = (.ok a, (frame.eval arg.slot).2) := by
  have hpayload : form.content? (Value.shared (form.wrap a)).payload = some a :=
    form.content?_wrap a
  exact read_apply (Value.content · form) harg hp (by rw [Value.content, hpayload])

theorem checkCount_of_length (h : args.items.length = count) :
    checkCount signature args count = attempt (.ok ()) := by
  rw [checkCount, Arguments.size, if_pos h]

/-- Reading a number is reading it from the text of the argument. -/
theorem stringToNum_fst (hargs : args.items = [arg]) (hp : arg.outcome frame = .ok p)
    (htext : p.toText? = some source) :
    (stringToNum host signature args frame).1 =
      match numberIn source with
      | .ok p => .ok (.payload p)
      | .error objection => .error (.error (.invalidArgument readName objection)) := by
  have hcount : checkCount signature args 1 = attempt (.ok ()) :=
    checkCount_of_length (by simp [hargs])
  have harg : args.items[0]? = some arg := by simp [hargs]
  rw [stringToNum, hcount, attempt_ok_bind, bind_apply, text_apply harg hp htext]
  dsimp only
  cases numberIn source <;> rfl

theorem read_textFormat : Format.Template.read "%s".toList =
    ⟨[.directive ⟨false, false, false, false, 0, none, .s⟩], none⟩ := by
  decide +kernel

/-- The format `%s` gives the text of the argument. -/
theorem apply_textFormat (htext : p.toText? = some source) (caller : String) :
    Format.apply caller "%s" p = .ok source := by
  rw [Format.apply, read_textFormat]
  simp [Format.fill, Format.Directive.render, Format.textOf, htext, Format.pad, Format.cutTo,
    Except.map]

theorem createString_fst (hargs : args.items = [arg, arg']) (hp : arg.outcome frame = .ok p)
    (htext : p.toText? = some format) (hp' : arg'.outcome frame = .ok p') :
    (createString host signature args frame).1 =
      (Format.apply formatName format p').map fun out => .payload (.text out) := by
  have hcount : checkCount signature args 2 = attempt (.ok ()) :=
    checkCount_of_length (by simp [hargs])
  have harg : args.items[0]? = some arg := by simp [hargs]
  have harg' : args.items[1]? = some arg' := by simp [hargs]
  rw [createString, hcount, attempt_ok_bind, bind_apply, text_apply harg hp htext]
  dsimp only
  rw [bind_apply, argument_apply harg', Argument.outcome_eval, hp']
  show ((settled (Format.apply formatName format p') >>= fun out => _) _).1 = _
  rw [bind_apply]
  cases Format.apply formatName format p' <;> rfl

end Standard

namespace Engine

open Standard

/-! ## §2 Calls -/

section

variable {config : Config} {events : List Event} {source : String} {entry : Entry}
  {signature : Signature}

/-- Once `init1` has succeeded, the standard builtins are found by their names. -/
theorem get?_standard (hinit : (run { config := config } events).initialized = true)
    (hspec : ⟨source, entry⟩ ∈ Standard.specs) (hparse : Signature.parse source = .ok signature) :
    (run { config := config } events).builtins.get? signature.name = some ⟨signature, entry⟩ := by
  obtain ⟨b, hbuiltin, hget, -⟩ := conforms_of_initialized hinit hspec
  simp only [Spec.builtin, Builtin.ofText, hparse, Except.ok.injEq] at hbuiltin
  subst hbuiltin
  exact hget

/-- Calling one of them is then running its entry. -/
theorem dispatch_standard (hinit : (run { config := config } events).initialized = true)
    (hspec : ⟨source, entry⟩ ∈ Standard.specs) (hparse : Signature.parse source = .ok signature)
    (clock : Float) (memory : Memory) (args : Arguments) (frame : Frame) :
    (run { config := config } events).dispatch clock memory signature.name args frame =
      ((entry ((run { config := config } events).host clock memory) signature args frame).1.mapError
        (nameTypes (run { config := config } events).types),
        (entry ((run { config := config } events).host clock memory) signature args frame).2) :=
  dispatch_of_get? (get?_standard hinit hspec hparse)

theorem call_standard (hinit : (run { config := config } events).initialized = true)
    (hspec : ⟨source, entry⟩ ∈ Standard.specs) (hparse : Signature.parse source = .ok signature)
    (clock : Float) (memory : Memory) (args : Arguments) (frame : Frame) (files : Tree) :
    ((run { config := config } events).call clock memory signature.name args frame files).1 =
      ((entry ((run { config := config } events).host clock memory) signature args frame).1.mapError
        (nameTypes (run { config := config } events).types)).map fun answer =>
          (answer.settle files).1 := by
  rw [call_fst, dispatch_standard hinit hspec hparse]

end

theorem parse_stringToNum : Signature.parse "string_to_num( string text )" =
    .ok ⟨none, "string_to_num", [⟨"string", "text"⟩]⟩ := by
  decide

theorem parse_createString : Signature.parse "string create_string_fa( string format, root arg )" =
    .ok ⟨some "string", "create_string_fa", [⟨"string", "format"⟩, ⟨"root", "arg"⟩]⟩ := by
  decide

variable {config : Config} {events : List Event} {args : Arguments} {arg arg' : Argument}
  {frame : Frame} {p p' : Payload} {source format : String}

theorem call_stringToNum (hinit : (run { config := config } events).initialized = true)
    (hargs : args.items = [arg]) (hp : arg.outcome frame = .ok p)
    (htext : p.toText? = some source) (clock : Float) (memory : Memory) (files : Tree) :
    ((run { config := config } events).call clock memory "string_to_num" args frame files).1 =
      match numberIn source with
      | .ok p => .ok (.owned p)
      | .error objection => .error (.error (.invalidArgument "string_to_num" objection)) := by
  have hspec : ⟨"string_to_num( string text )", stringToNum⟩ ∈ specs := by
    simp [specs, stringSpecs]
  rw [call_standard hinit hspec parse_stringToNum, stringToNum_fst hargs hp htext]
  cases numberIn source <;> rfl

/-- What keeps an argument from being written is told in words that are no keys of types. -/
theorem nameTypes_of_fails {caller : String} {failure : Failure}
    (h : Format.Fails caller p failure) (types : Registry) : nameTypes types failure = failure := by
  cases h with
  | beyondLayout => rfl
  | objection => rfl
  | mismatch hread =>
    have hexpected := Reading.expected_of_mismatch hread
    simp only [List.mem_cons, List.not_mem_nil, or_false] at hexpected
    obtain rfl | rfl | rfl | rfl := hexpected <;> rfl

/-- Writing by a format gives a text of its own, or fails as the format does. -/
theorem call_createString (hinit : (run { config := config } events).initialized = true)
    (hargs : args.items = [arg, arg']) (hp : arg.outcome frame = .ok p)
    (htext : p.toText? = some format) (hp' : arg'.outcome frame = .ok p') (clock : Float)
    (memory : Memory) (files : Tree) :
    ((run { config := config } events).call clock memory "create_string_fa" args frame files).1 =
      (Format.apply formatName format p').map fun out => .owned (.text out) := by
  have hspec : ⟨"string create_string_fa( string format, root arg )", createString⟩ ∈ specs := by
    simp [specs, stringSpecs]
  rw [call_standard hinit hspec parse_createString, createString_fst hargs hp htext hp']
  cases happly : Format.apply formatName format p' with
  | ok out => rfl
  | error failure => exact congrArg _ (nameTypes_of_fails (Format.apply_fails happly) _)

theorem call_textFormat (hinit : (run { config := config } events).initialized = true)
    (hargs : args.items = [arg, arg']) (hp : arg.outcome frame = .ok p)
    (htext : p.toText? = some "%s") (hp' : arg'.outcome frame = .ok p')
    (htext' : p'.toText? = some source) (clock : Float) (memory : Memory) (files : Tree) :
    ((run { config := config } events).call clock memory "create_string_fa" args frame files).1 =
      .ok (.owned (.text source)) := by
  rw [call_createString hinit hargs hp htext hp', apply_textFormat htext']
  rfl

/-- What comes of writing an argument by a format on an engine, wherever the two come from. -/
def WritesTo (engine : Engine) (clock : Float) (memory : Memory) (files : Tree) (format : String)
    (arg : Payload) (answer : Except Failure Value) : Prop :=
  ∀ args frame form value p, args.items = [form, value] → form.outcome frame = .ok p →
    p.toText? = some format → value.outcome frame = .ok arg →
    (engine.call clock memory "create_string_fa" args frame files).1 = answer

/-- There is only one answer, since there is a call. -/
theorem WritesTo.unique {engine : Engine} {clock : Float} {memory : Memory} {files : Tree}
    {format : String} {arg : Payload} {answer answer' : Except Failure Value}
    (h : WritesTo engine clock memory files format arg answer)
    (h' : WritesTo engine clock memory files format arg answer') : answer = answer' := by
  have hcall := h (.positional 2) ⟨[.ready (.text format), .ready arg]⟩ ⟨0, none⟩ ⟨1, none⟩
    (.text format) rfl rfl rfl rfl
  have hcall' := h' (.positional 2) ⟨[.ready (.text format), .ready arg]⟩ ⟨0, none⟩ ⟨1, none⟩
    (.text format) rfl rfl rfl rfl
  exact hcall.symm.trans hcall'

/-- What comes of reading the number at the beginning of a text on an engine, wherever the text comes
from. -/
def ReadsTo (engine : Engine) (clock : Float) (memory : Memory) (files : Tree) (text : String)
    (answer : Except Failure Value) : Prop :=
  ∀ args frame arg p, args.items = [arg] → arg.outcome frame = .ok p → p.toText? = some text →
    (engine.call clock memory "string_to_num" args frame files).1 = answer

theorem ReadsTo.unique {engine : Engine} {clock : Float} {memory : Memory} {files : Tree}
    {text : String} {answer answer' : Except Failure Value}
    (h : ReadsTo engine clock memory files text answer)
    (h' : ReadsTo engine clock memory files text answer') : answer = answer' := by
  have hcall := h (.positional 1) ⟨[.ready (.text text)]⟩ ⟨0, none⟩ (.text text) rfl rfl rfl
  have hcall' := h' (.positional 1) ⟨[.ready (.text text)]⟩ ⟨0, none⟩ (.text text) rfl rfl rfl
  exact hcall.symm.trans hcall'

/-! ## §3 There and back -/

/-- What comes of a finite double that goes through a text on an engine: the text is what `%s`
gives, and reading it gives the same number if the number without its fraction is an integer of
sixty-four bits and not the smallest of these, and else the objection to a whole number. -/
structure ReadsBack (engine : Engine) (clock : Float) (memory : Memory) (files : Tree) (x : Float)
    (whole : Int) (text : String) : Prop where
  shown : (Payload.number x).toText? = some text
  written : ∀ args frame format value p, args.items = [format, value] →
    format.outcome frame = .ok p → p.toText? = some "%s" →
    value.outcome frame = .ok (.number x) →
    (engine.call clock memory "create_string_fa" args frame files).1 = .ok (.owned (.text text))
  read : whole.natAbs < 2 ^ 63 → ∀ args frame arg p, args.items = [arg] →
    arg.outcome frame = .ok p → p.toText? = some text →
    ∃ p y, (engine.call clock memory "string_to_num" args frame files).1 = .ok (.owned p) ∧
      p.toNumber? = some y ∧ (y == x) = true
  refused : 2 ^ 63 ≤ whole.natAbs → ∀ args frame arg p, args.items = [arg] →
    arg.outcome frame = .ok p → p.toText? = some text →
    (engine.call clock memory "string_to_num" args frame files).1 =
      .error (.error (.invalidArgument "string_to_num" (.badWhole text)))

/-- **Numbers come back from their texts** below `2 ^ 63`, and from there on they are objected
to. -/
theorem number_text_reads_back (config : Config) (events : List Event)
    (hinit : (run { config := config } events).initialized = true) (clock : Float)
    (memory : Memory) (files : Tree) (x : Float) (hx : Number.isFinite x = true) :
    ∃ whole text, Number.truncate? x = some whole ∧
      ReadsBack (run { config := config } events) clock memory files x whole text := by
  obtain ⟨negative, significand, exponent, hbinary⟩ := Number.isFinite_iff.mp hx
  obtain ⟨whole, htruncate, hfloor⟩ := Number.exists_truncate? hbinary
  refine ⟨whole, Number.plain x, htruncate, rfl, ?written, ?read, ?refused⟩
  case written =>
    intro args frame format value p hargs hp htext hvalue
    exact call_textFormat hinit hargs hp htext hvalue rfl clock memory files
  case read =>
    intro hsmall args frame arg p hargs hp htext
    obtain ⟨p', y, hread, hnumber, hsame⟩ := numberIn_plain hbinary (hfloor ▸ hsmall)
    refine ⟨p', y, ?_, hnumber, hsame⟩
    rw [call_stringToNum hinit hargs hp htext, hread]
  case refused =>
    intro hlarge args frame arg p hargs hp htext
    rw [call_stringToNum hinit hargs hp htext, numberIn_plain_large hbinary (hfloor ▸ hlarge)]

/-- Minus two and a half on an engine on which nothing but `init1` has happened. -/
theorem number_text_reads_back_fraction :
    (run {} [.signal .init1]).initialized = true ∧
      Number.isFinite (Float.ofBits 0xc004000000000000) = true ∧
      ∃ whole text, Number.truncate? (Float.ofBits 0xc004000000000000) = some whole ∧
        ReadsBack (run {} [.signal .init1]) 0 .usual {} (Float.ofBits 0xc004000000000000) whole
          text := by
  have hx : Number.isFinite (Float.ofBits 0xc004000000000000) = true := by decide
  exact ⟨initialized_run_init1, hx,
    number_text_reads_back {} [.signal .init1] initialized_run_init1 0 .usual {} _ hx⟩

/-- `10 ^ 20` is finite, and its text is not read at all. -/
theorem number_text_too_large :
    let x := Float.ofBits 0x4415af1d78b58c40
    Number.isFinite x = true ∧ (Payload.number x).toText? = some (Number.plain x) ∧
      ¬ ∃ p y, ((run {} [.signal .init1]).call 0 .usual "string_to_num" (.positional 1)
          ⟨[.ready (.text (Number.plain x))]⟩ {}).1 = .ok (.owned p) ∧
        p.toNumber? = some y ∧ (y == x) = true := by
  intro x
  have hbinary : Number.Binary.ofFloat x = .finite false 6103515625000000 14 := by decide
  have hlarge : 2 ^ 63 ≤ (Number.magnitude 6103515625000000 14).floor := by decide +kernel
  refine ⟨by decide, rfl, ?_⟩
  rintro ⟨p, y, hcall, -⟩
  have hargs : (Arguments.positional 1).items = [⟨0, none⟩] := rfl
  have hp : Argument.outcome ⟨[.ready (.text (Number.plain x))]⟩ ⟨0, none⟩ =
      .ok (.text (Number.plain x)) := rfl
  rw [call_stringToNum initialized_run_init1 hargs hp rfl,
    numberIn_plain_large hbinary hlarge] at hcall
  cases hcall

end Engine

end SceneScript
