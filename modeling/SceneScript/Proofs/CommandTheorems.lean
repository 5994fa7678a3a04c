/-
SceneScript.Proofs.CommandTheorems — a call from the command line is a call.

The literals after the name of a builtin are read from left to right, each on its
own. What can be wrong with one is said by `IllFormed`, and the first that is ill
formed decides the outcome (`readLiterals_of_firstFault`), whatever is to be called.
If there is none, the payloads that the literals write become ready slots, in their
order (`readLiterals_of_write`).

What happens then is a call on an engine that has everything standard, which no
setting prevents (`Engine.standard_eq`). An error is the same at the bottom of a
complaint, whatever is said around it, and so is the exit code (`exitCode_within`).
`run_call` puts this together: its outcome is the report (`Reports`) of what the
call comes to, whatever reads the command line and whatever the log says.
-/
import SceneScript.Options
import SceneScript.Proofs.InstallTheorems
import Mathlib.Data.Prod.Basic

namespace SceneScript

/-! ## §1 Reading one after the other -/

section Sequence

variable {ε α β : Type} {f : α → Except ε β} {as : List α} {bs : List β} {e : ε}

theorem mapM_eq_ok_iff : as.mapM f = .ok bs ↔ List.Forall₂ (fun a b => f a = .ok b) as bs := by
  induction as generalizing bs with
  | nil => cases bs <;> simp [pure, Except.pure]
  | cons a rest ih =>
    rw [List.mapM_cons]
    cases ha : f a with
    | error e => cases bs <;> simp [bind, Except.bind, ha]
    | ok b =>
      cases hrest : rest.mapM f <;> cases bs <;>
        simp [bind, Except.bind, pure, Except.pure, ← ih, ha, hrest]

/-- The first failure is the failure of the whole. -/
theorem mapM_eq_error_iff : as.mapM f = .error e ↔ ∃ front a back, as = front ++ a :: back ∧
    (∀ a' ∈ front, ∃ b, f a' = .ok b) ∧ f a = .error e := by
  induction as with
  | nil => simp [pure, Except.pure]
  | cons a rest ih =>
    have hsplit : (∃ front a' back, a :: rest = front ++ a' :: back ∧
        (∀ a'' ∈ front, ∃ b, f a'' = .ok b) ∧ f a' = .error e) ↔
        f a = .error e ∨ ((∃ b, f a = .ok b) ∧ ∃ front a' back, rest = front ++ a' :: back ∧
          (∀ a'' ∈ front, ∃ b, f a'' = .ok b) ∧ f a' = .error e) := by
      constructor
      · rintro ⟨front, a', back, has, hfront, ha'⟩
        cases front with
        | nil =>
          obtain ⟨rfl, rfl⟩ := List.cons.inj has
          exact .inl ha'
        | cons first front =>
          obtain ⟨rfl, rfl⟩ := List.cons.inj has
          obtain ⟨hfirst, hrest⟩ := List.forall_mem_cons.mp hfront
          exact .inr ⟨hfirst, front, a', back, rfl, hrest, ha'⟩
      · rintro (ha | ⟨hfirst, front, a', back, rfl, hfront, ha'⟩)
        · exact ⟨[], a, rest, rfl, by simp, ha⟩
        · exact ⟨a :: front, a', back, rfl, List.forall_mem_cons.mpr ⟨hfirst, hfront⟩, ha'⟩
    rw [hsplit, ← ih, List.mapM_cons]
    cases ha : f a with
    | error e' => simp [bind, Except.bind]
    | ok b => cases hrest : rest.mapM f <;> simp [bind, Except.bind, pure, Except.pure]

theorem exists_mapM_ok_iff : (∃ bs, as.mapM f = .ok bs) ↔ ∀ a ∈ as, ∃ b, f a = .ok b := by
  constructor
  · rintro ⟨bs, hbs⟩ a ha
    obtain ⟨b, -, hb⟩ := exists_mem_of_forall₂ (mapM_eq_ok_iff.mp hbs) a ha
    exact ⟨b, hb⟩
  · intro hall
    cases h : as.mapM f with
    | ok bs => exact ⟨bs, rfl⟩
    | error e =>
      obtain ⟨front, a, back, rfl, -, ha⟩ := mapM_eq_error_iff.mp h
      obtain ⟨b, hb⟩ := hall a (by simp)
      rw [ha] at hb
      cases hb

end Sequence

namespace CommandLine

/-! ## §2 Literals -/

variable {text : String} {fault : LiteralFault} {literals : List String}
  {parts : List (List Char)}

/-- What is wrong with some components: the first that is no number, or else their number. -/
inductive TripleFault (parts : List (List Char)) : LiteralFault → Prop
  | component (front : List (List Char)) (part : List Char) (back : List (List Char))
      (hparts : parts = front ++ part :: back)
      (hfront : ∀ p ∈ front, ∃ x, Number.readFloat? (Text.trim p) = some x)
      (hpart : Number.readFloat? (Text.trim part) = none) :
      TripleFault parts (.badComponent (String.ofList part))
  | count (hall : ∀ p ∈ parts, ∃ x, Number.readFloat? (Text.trim p) = some x)
      (hcount : parts.length ≠ 3) : TripleFault parts (.notThree parts.length)

/-- The text begins like a triple and does not go on like one. -/
def IllFormed (text : String) (fault : LiteralFault) : Prop :=
  ∃ tag ∈ ["v3d:", "color:"], ∃ rest, text.toList = tag.toList ++ rest ∧
    TripleFault (Text.split (· == ',') rest) fault

/-- One component. -/
def readComponent (part : List Char) : Except LiteralFault Float :=
  match Number.readFloat? (Text.trim part) with
  | none => .error (.badComponent (String.ofList part))
  | some x => .ok x

theorem readComponent_eq_ok_iff {part : List Char} {x : Float} :
    readComponent part = .ok x ↔ Number.readFloat? (Text.trim part) = some x := by
  unfold readComponent
  cases Number.readFloat? (Text.trim part) <;> simp

theorem readComponent_eq_error_iff {part : List Char} : readComponent part = .error fault ↔
    Number.readFloat? (Text.trim part) = none ∧ fault = .badComponent (String.ofList part) := by
  unfold readComponent
  cases Number.readFloat? (Text.trim part) <;> simp [eq_comm]

theorem readComponents_eq_mapM (parts : List (List Char)) :
    readComponents parts = parts.mapM readComponent := by
  induction parts with
  | nil => rfl
  | cons part rest ih =>
    rw [readComponents, List.mapM_cons, readComponent, ih]
    cases Number.readFloat? (Text.trim part) with
    | none => rfl
    | some x => cases rest.mapM readComponent <;> rfl

theorem readTriple_eq_error_iff {rest : List Char} :
    readTriple rest = .error fault ↔ TripleFault (Text.split (· == ',') rest) fault := by
  rw [readTriple, readComponents_eq_mapM]
  generalize Text.split (· == ',') rest = parts
  constructor
  · intro h
    cases hread : parts.mapM readComponent with
    | error fault' =>
      rw [hread] at h
      cases h
      obtain ⟨front, part, back, hparts, hfront, hpart⟩ := mapM_eq_error_iff.mp hread
      obtain ⟨hnone, rfl⟩ := readComponent_eq_error_iff.mp hpart
      simp only [readComponent_eq_ok_iff] at hfront
      exact .component front part back hparts hfront hnone
    | ok xs =>
      have hall := exists_mapM_ok_iff.mp ⟨xs, hread⟩
      simp only [readComponent_eq_ok_iff] at hall
      have hlength := (mapM_eq_ok_iff.mp hread).length_eq
      rw [hread] at h
      have hcount : parts.length ≠ 3 ∧ fault = .notThree parts.length := by
        rw [hlength]
        match xs, h with
        | [], h | [_], h | [_, _], h | _ :: _ :: _ :: _ :: _, h =>
          cases h
          simp
      obtain ⟨hcount, rfl⟩ := hcount
      exact .count hall hcount
  · intro h
    cases h with
    | component front part back hparts hfront hnone =>
      simp only [← readComponent_eq_ok_iff] at hfront
      have hpart := readComponent_eq_error_iff.mpr ⟨hnone, rfl⟩
      rw [mapM_eq_error_iff.mpr ⟨front, part, back, hparts, hfront, hpart⟩]
    | count hall hcount =>
      simp only [← readComponent_eq_ok_iff] at hall
      obtain ⟨xs, hread⟩ := exists_mapM_ok_iff.mpr hall
      have hlength := (mapM_eq_ok_iff.mp hread).length_eq
      rw [hlength] at hcount
      rw [hread, hlength]
      match xs, hcount with
      | [], _ | [_], _ | [_, _], _ | _ :: _ :: _ :: _ :: _, _ => rfl

theorem after?_eq_some_iff {front cs rest : List Char} :
    after? front cs = some rest ↔ cs = front ++ rest := by
  unfold after?
  split
  · next hfront =>
    obtain ⟨back, rfl⟩ := List.isPrefixOf_iff_prefix.mp hfront
    simp
  · next hfront =>
    refine ⟨(fun h => nomatch h), fun h => absurd ?_ hfront⟩
    rw [h]
    simp

/-- A text that begins with a letter can only be a number that is spelled. -/
theorem readFloat?_eq_none_of_letter {c : Char} (cs : List Char) (hdigit : c.isDigit = false)
    (hsign : c ≠ '-' ∧ c ≠ '+' ∧ c ≠ '.') (hspelled : c.toLower ≠ 'i' ∧ c.toLower ≠ 'n') :
    Number.readFloat? (c :: cs) = none := by
  have hbody : Number.takeSign (c :: cs) = (false, c :: cs) := by
    unfold Number.takeSign
    split <;> simp_all
  have hdecimal : Number.readDecimal? (c :: cs) = none := by
    simp [Number.readDecimal?, hdigit, hsign.2.2]
  have hletters : Number.readSpelled? false (c :: cs) = none := by
    have hne : ∀ text : String, text.toList.head? ≠ some c.toLower →
        String.ofList ((c :: cs).map Char.toLower) ≠ text := by
      rintro text htext rfl
      simp at htext
    have hi : some 'i' ≠ some c.toLower := by simpa using hspelled.1.symm
    have hn : some 'n' ≠ some c.toLower := by simpa using hspelled.2.symm
    rw [Number.readSpelled?, if_neg, if_neg]
    · exact hne "nan" hn
    · rintro (h | h)
      · exact hne "inf" hi h
      · exact hne "infinity" hi h
  rw [Number.readFloat?, hbody]
  simp only [hdecimal, hletters]

/-- What begins with a tag is neither a number nor a word. -/
theorem no_number_of_tag {tag : String} {rest : List Char} (htag : tag ∈ ["v3d:", "color:"])
    (htext : text.toList = tag.toList ++ rest) :
    Number.readFloat? text.toList = none ∧ text ≠ "true" ∧ text ≠ "false" := by
  have hwords : text ≠ "true" ∧ text ≠ "false" := by
    constructor <;> rintro rfl <;> rcases List.mem_pair.mp htag with rfl | rfl <;>
      simp at htext
  refine ⟨?_, hwords⟩
  rw [htext]
  rcases List.mem_pair.mp htag with rfl | rfl
  · exact readFloat?_eq_none_of_letter _ (by decide) (by decide) (by decide)
  · exact readFloat?_eq_none_of_letter _ (by decide) (by decide) (by decide)

theorem readLiteral_vec3 {rest : List Char} (htext : text.toList = "v3d:".toList ++ rest) :
    readLiteral text = (readTriple rest).map fun (x, y, z) => .vec3 ⟨x, y, z⟩ := by
  obtain ⟨hnumber, htrue, hfalse⟩ := no_number_of_tag (by simp) htext
  rw [readLiteral]
  simp only [hnumber, htrue, hfalse, if_false, after?_eq_some_iff.mpr htext]

theorem readLiteral_color {rest : List Char} (htext : text.toList = "color:".toList ++ rest) :
    readLiteral text = (readTriple rest).map fun (r, g, b) => .color ⟨r, g, b⟩ := by
  obtain ⟨hnumber, htrue, hfalse⟩ := no_number_of_tag (by simp) htext
  have hother : after? "v3d:".toList text.toList = none := by
    rw [htext]
    rfl
  rw [readLiteral]
  simp only [hnumber, htrue, hfalse, if_false, hother, after?_eq_some_iff.mpr htext]

theorem readLiteral_eq_error_iff : readLiteral text = .error fault ↔ IllFormed text fault := by
  have hmap : ∀ (r : Except LiteralFault (Float × Float × Float)) (f : Float × Float × Float →
      Payload), r.map f = .error fault ↔ r = .error fault := by
    intro r f
    cases r <;> simp [Except.map]
  constructor
  · intro h
    unfold readLiteral at h
    split at h
    · cases h
    split at h
    · cases h
    split at h
    · cases h
    split at h
    · next rest hrest =>
      exact ⟨"v3d:", by simp, rest, after?_eq_some_iff.mp hrest,
        readTriple_eq_error_iff.mp ((hmap _ _).mp h)⟩
    split at h
    · next rest hrest =>
      exact ⟨"color:", by simp, rest, after?_eq_some_iff.mp hrest,
        readTriple_eq_error_iff.mp ((hmap _ _).mp h)⟩
    · cases h
  · rintro ⟨tag, htag, rest, htext, hfault⟩
    have hrest := readTriple_eq_error_iff.mpr hfault
    rcases List.mem_pair.mp htag with rfl | rfl
    · rw [readLiteral_vec3 htext]
      exact (hmap _ _).mpr hrest
    · rw [readLiteral_color htext]
      exact (hmap _ _).mpr hrest

/-- The literals write these payloads. -/
def Write (literals : List String) (payloads : List Payload) : Prop :=
  List.Forall₂ (fun text p => readLiteral text = .ok p) literals payloads

/-- The first of the literals that is ill formed has this fault. -/
def FirstFault (literals : List String) (fault : LiteralFault) : Prop :=
  ∃ front text back, literals = front ++ text :: back ∧
    (∀ text' ∈ front, ∀ fault', ¬ IllFormed text' fault') ∧ IllFormed text fault

theorem exists_readLiteral_iff :
    (∃ p, readLiteral text = .ok p) ↔ ∀ fault, ¬ IllFormed text fault := by
  simp only [← readLiteral_eq_error_iff]
  cases readLiteral text <;> simp

theorem readLiterals_eq_mapM (literals : List String) :
    readLiterals literals = (literals.mapM readLiteral).map fun ps => ps.map Slot.ready := by
  induction literals with
  | nil => rfl
  | cons text rest ih =>
    rw [readLiterals, List.mapM_cons, ih]
    cases readLiteral text with
    | error fault => rfl
    | ok p => cases rest.mapM readLiteral <;> rfl

theorem readLiterals_of_firstFault (h : FirstFault literals fault) :
    readLiterals literals = .error fault := by
  obtain ⟨front, text, back, hliterals, hfront, htext⟩ := h
  have hread : literals.mapM readLiteral = .error fault :=
    mapM_eq_error_iff.mpr ⟨front, text, back, hliterals,
      fun text' h' => exists_readLiteral_iff.mpr (hfront text' h'),
      readLiteral_eq_error_iff.mpr htext⟩
  rw [readLiterals_eq_mapM, hread]
  rfl

theorem readLiterals_of_write {payloads : List Payload} (h : Write literals payloads) :
    readLiterals literals = .ok (payloads.map Slot.ready) := by
  rw [readLiterals_eq_mapM, mapM_eq_ok_iff.mpr h]
  rfl

/-- Either one of the literals is the first that is ill formed, or all can be read. -/
theorem firstFault_or_write (literals : List String) :
    (∃ fault, FirstFault literals fault) ∨ ∃ payloads, Write literals payloads := by
  cases hread : literals.mapM readLiteral with
  | ok payloads => exact .inr ⟨payloads, mapM_eq_ok_iff.mp hread⟩
  | error fault =>
    obtain ⟨front, text, back, hliterals, hfront, htext⟩ := mapM_eq_error_iff.mp hread
    exact .inl ⟨fault, front, text, back, hliterals,
      fun text' h' => exists_readLiteral_iff.mp (hfront text' h'),
      readLiteral_eq_error_iff.mp htext⟩

/-! ## §3 Complaints -/

/-- What a script can do something about: that there is no such builtin, and that a builtin objects
to an argument. -/
def Recoverable (e : Error) : Prop :=
  (∃ name, e = .unknownBuiltin name) ∨ ∃ name objection, e = .invalidArgument name objection

theorem isFatal_eq_false_iff {e : Error} : e.isFatal = false ↔ Recoverable e := by
  cases e <;> simp [Error.isFatal, Recoverable]

namespace Complaint

variable {c : Complaint}

@[simp] theorem message_within (context : String) (c : Complaint) :
    (c.within context).message = context ++ ": " ++ c.message := rfl

/-- What is said around an error does not hide it. -/
@[simp] theorem engineError?_within (context : String) (c : Complaint) :
    (c.within context).engineError? = c.engineError? := rfl

@[simp] theorem exitCode_within (context : String) (c : Complaint) :
    (c.within context).exitCode = c.exitCode := rfl

theorem exitCode_eq_one_iff :
    c.exitCode = 1 ↔ ∃ e, c.engineError? = some e ∧ Recoverable e := by
  rw [exitCode]
  cases c.engineError? with
  | none => simp
  | some e => simp [← isFatal_eq_false_iff]

theorem exitCode_eq_two_iff :
    c.exitCode = 2 ↔ ∀ e, c.engineError? = some e → ¬ Recoverable e := by
  rw [exitCode]
  cases c.engineError? with
  | none => simp
  | some e => simp [← isFatal_eq_false_iff]

end Complaint

/-- A literal that is ill formed is no error of the engine. -/
theorem exitCode_complaint (fault : LiteralFault) : fault.complaint.exitCode = 2 := by
  cases fault <;> rfl

/-! ## §4 Calls -/

/-- The call of a builtin with payloads as its arguments, each in a ready slot of its own. -/
def callWith (engine : Engine) (clock : Float) (memory : Memory) (name : String)
    (payloads : List Payload) (files : Tree) : Except Failure Value × Frame × Tree :=
  engine.call clock memory name (.positional payloads.length) ⟨payloads.map Slot.ready⟩ files

/-- How an outcome reports what a call of the builtin comes to, after what the log says: a value is
printed on a line, with exit code 0, and an error is printed on a line with its code and the name
of the builtin, with exit code 1 or 2. Nothing is said about a call that asks for a text that
cannot be laid out. -/
structure Reports (log name : String) (files : Tree)
    (called : Except Failure Value × Frame × Tree) (reported : Outcome × Tree) : Prop where
  value : ∀ v, called.1 = .ok v → reported = (⟨0, v.display ++ "\n", log⟩, called.2.2)
  error : ∀ e, called.1 = .error (.error e) → ∃ exitCode,
    reported = (⟨exitCode, "",
      log ++ ("error[" ++ e.code ++ "] in `" ++ name ++ "`: " ++ e.message ++ "\n")⟩, files) ∧
    (exitCode = 1 ↔ Recoverable e) ∧ (exitCode = 2 ↔ ¬ Recoverable e)

variable {read : List String → Except Outcome Request} {args : List String} {request : Request}
  {name : String} {engine : Engine}

/-- Definitions are opened before they are applied from here on: where the engine is in sight,
checking that two sides agree would mean registering everything standard. -/
theorem engineOf_of_standard (h : Engine.standard request.config = (.ok (), engine)) :
    engineOf request = .ok engine := by
  suffices hopen : ∀ f, f = engineOf → f request = .ok engine from hopen _ rfl
  intro f hf
  delta engineOf at hf
  rw [hf]
  simp only [h]

theorem engineOf_eq (request : Request) :
    engineOf request = .ok (Engine.standard request.config).2 := by
  have hok : (Engine.standard request.config).1 = .ok () := by rw [Engine.standard_eq]
  exact engineOf_of_standard (Prod.fst_eq_iff.mp hok)

theorem answer_of_call (around : Surroundings) (hengine : engineOf request = .ok engine)
    (hcommand : request.command = .call name literals) :
    answer around request =
      (callNamed engine around.clock around.memory name literals).map .answer := by
  suffices hopen : ∀ f, f = answer → f around request =
      (callNamed engine around.clock around.memory name literals).map .answer from hopen _ rfl
  intro f hf
  delta answer at hf
  rw [hf]
  simp only [hengine, hcommand, perform]

/-- What is reported of a call whose arguments have been read. -/
def reportCall (log : String) (files : Tree) : Except Trouble Answer → Outcome × Tree
  | .ok answer => (report log (.ok (line (answer.settle files).1.display)), (answer.settle files).2)
  | .error trouble => (report log (.error trouble), files)

/-- The engine always gets as far as the call. -/
theorem run_of_call (around : Surroundings) (files : Tree) (hread : read args = .ok request)
    (hcommand : request.command = .call name literals) :
    run read around args files = reportCall (around.log request.verbose) files
      (callNamed (Engine.standard request.config).2 around.clock around.memory name literals) := by
  have hanswer := answer_of_call around (engineOf_eq request) hcommand
  generalize (Engine.standard request.config).2 = engine at hanswer
  simp only [run, hread, hanswer]
  cases callNamed engine around.clock around.memory name literals <;> rfl

variable (clock : Float) (memory : Memory) (log : String) (files : Tree)

theorem reportCall_of_firstFault {fault : LiteralFault} (hfault : FirstFault literals fault) :
    reportCall log files (callNamed engine clock memory name literals) =
      (⟨2, "", log ++ (fault.complaint.message ++ "\n")⟩, files) := by
  rw [callNamed, readLiterals_of_firstFault hfault, ← exitCode_complaint fault]
  rfl

theorem reports_reportCall {payloads : List Payload} (hwrite : Write literals payloads) :
    Reports log name files (callWith engine clock memory name payloads files)
      (reportCall log files (callNamed engine clock memory name literals)) := by
  have harguments : Frame.arguments ⟨payloads.map Slot.ready⟩ = .positional payloads.length := by
    rw [Frame.arguments, Frame.size, List.length_map]
  rw [callNamed, readLiterals_of_write hwrite, callWith, Engine.call]
  simp only [harguments]
  generalize engine.dispatch clock memory name (.positional payloads.length)
    ⟨payloads.map Slot.ready⟩ = dispatched
  obtain ⟨outcome, frame⟩ := dispatched
  match outcome with
  | .ok answer =>
    refine ⟨fun v hv => ?_, fun e he => nomatch he⟩
    cases hv
    rfl
  | .error (.error e) =>
    refine ⟨(fun v hv => nomatch hv), fun e' he => ?_⟩
    cases he
    let c := (Complaint.engine e).within ("error[" ++ e.code ++ "] in `" ++ name ++ "`")
    have herror : c.engineError? = some e := rfl
    have hline : line c.message =
        "error[" ++ e.code ++ "] in `" ++ name ++ "`: " ++ e.message ++ "\n" := by
      simp only [c, line, Complaint.message, String.append_assoc]
      rfl
    refine ⟨c.exitCode, ?_, ?_, ?_⟩
    · rw [← hline]
      rfl
    · simp [Complaint.exitCode_eq_one_iff, herror]
    · simp [Complaint.exitCode_eq_two_iff, herror]
  | .error .beyondLayout => exact ⟨(fun v hv => nomatch hv), fun e he => nomatch he⟩

/-- **Calls from the command line.** If the command line asks for a call, then either a literal is
ill formed, and the first such literal is complained of and nothing else, whatever the name; or the
literals write payloads, and what is reported is what the call with these payloads comes to, on an
engine with everything standard. This is so whatever reads the command line, whatever memory there
is, and whatever is logged. -/
theorem run_call (read : List String → Except Outcome Request) (around : Surroundings)
    (files : Tree) (hread : read args = .ok request)
    (hcommand : request.command = .call name literals) :
    (∀ fault, FirstFault literals fault → run read around args files =
      (⟨2, "", around.log request.verbose ++ (fault.complaint.message ++ "\n")⟩, files)) ∧
    (∀ payloads, Write literals payloads →
      Reports (around.log request.verbose) name files
        (callWith (Engine.standard request.config).2 around.clock around.memory name payloads files)
        (run read around args files)) ∧
    ((∃ fault, FirstFault literals fault) ∨ ∃ payloads, Write literals payloads) := by
  rw [run_of_call around files hread hcommand]
  exact ⟨fun _ hfault => reportCall_of_firstFault _ _ _ _ hfault,
    fun _ hwrite => reports_reportCall _ _ _ _ hwrite, firstFault_or_write literals⟩

/-- A builtin that does not exist, with a literal that is one component short: only the literal is
complained of, below what a verbose log says. -/
theorem run_call_short :
    let args := ["-v", "call", "nowhere", "v3d:1,2", "color:"]
    let around : Surroundings := { log := fun verbose => if verbose then "ready\n" else "" }
    readRequest args = .ok ⟨.call "nowhere" ["v3d:1,2", "color:"], none, true⟩ ∧
      run readRequest around args {} =
        (⟨2, "", "ready\nexpected three comma-separated components, got 2\n"⟩, {}) := by
  intro args around
  have hread : readRequest args = .ok ⟨.call "nowhere" ["v3d:1,2", "color:"], none, true⟩ := by rfl
  have hfault : FirstFault ["v3d:1,2", "color:"] (.notThree 2) := by
    refine ⟨[], "v3d:1,2", ["color:"], rfl, by simp, "v3d:", by simp, ['1', ',', '2'], rfl, ?_⟩
    have hparts : Text.split (· == ',') ['1', ',', '2'] = [['1'], ['2']] := by decide
    rw [hparts]
    refine .count ?_ (by decide)
    intro p hp
    rcases List.mem_pair.mp hp with rfl | rfl <;> exact ⟨_, rfl⟩
  have herrors : around.log true ++ ((LiteralFault.notThree 2).complaint.message ++ "\n") =
      "ready\nexpected three comma-separated components, got 2\n" := by decide
  refine ⟨hread, ?_⟩
  rw [(run_call readRequest around {} hread rfl).1 _ hfault]
  rw [herrors]

end CommandLine

end SceneScript
