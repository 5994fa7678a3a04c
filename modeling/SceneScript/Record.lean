/-
SceneScript.Record — how records are printed.

A record is printed as its name and, in braces, its fields in order:
`Vec { x: 1.0, y: 2.0 }`. A list stands in square brackets, and a field that may
be absent is `None` or `Some(…)`.
-/

namespace SceneScript.Record

/-- A record with its fields, each a name and the text of a value. -/
def record (name : String) (fields : List (String × String)) : String :=
  name ++ " \x7b " ++ ", ".intercalate (fields.map fun (field, text) => field ++ ": " ++ text) ++
    " \x7d"

/-- A list of values. -/
def list (items : List String) : String := "[" ++ ", ".intercalate items ++ "]"

/-- A value that may be absent. -/
def maybe : Option String → String
  | some text => "Some(" ++ text ++ ")"
  | none => "None"

end SceneScript.Record
