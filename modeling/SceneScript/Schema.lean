/-
SceneScript.Schema — declarations of flat records.

A schema names a record type and either lists its fields or points to a type
whose fields it shares:

    ray = { v3d p; v3d d; }
    color = v3d

Names are ASCII identifiers, blanks are Unicode's, empty declarations between
semicolons are skipped, and no two fields have one name. Reading a schema needs
no knowledge of other types; whether the types it mentions exist, and how wide
they are, is for the registry to say.
-/
import SceneScript.Text.Blank

namespace SceneScript

/-- The field type of plain numbers. -/
def numberType : String := "f64"

/-- A declared field: its type and its name. -/
structure FieldDecl where
  type : String
  name : String
deriving DecidableEq, Repr

/-- What a schema says about its type. -/
inductive SchemaBody
  /-- The type has these fields, in this order. -/
  | fields (decls : List FieldDecl)
  /-- The type has the fields of another. -/
  | alias (target : String)
deriving DecidableEq, Repr

/-- A record type as declared. -/
structure Schema where
  name : String
  body : SchemaBody
deriving DecidableEq, Repr

/-- What can be wrong with a schema. The last two are found when it is registered. -/
inductive SchemaFault
  | noEquals
  | badTypeName
  | unclosed
  | badDeclaration
  | badFieldNames
  | duplicateField (name : String)
  | noFields
  | badTarget
  | notFlat (type : String)
  | slotCount (declared provided : Nat)
deriving DecidableEq, Repr

namespace SchemaFault

/-- The wording of a fault. -/
def message : SchemaFault → String
  | noEquals => "missing `=`"
  | badTypeName => "type name is not an identifier"
  | unclosed => "missing closing `\x7d`"
  | badDeclaration => "field declarations have the form `<type> <name>;`"
  | badFieldNames => "field type and name must be identifiers"
  | duplicateField name => "duplicate field `" ++ name ++ "`"
  | noFields => "no fields declared"
  | badTarget => "expected `\x7b ... \x7d` or the name of an existing type"
  | notFlat type => "`" ++ type ++ "` is not a registered flat type"
  | slotCount declared provided =>
    "schema declares " ++ toString declared ++ " slots, type provides " ++ toString provided

end SchemaFault

namespace Schema

/-- A letter or underscore. -/
def isIdentStart (c : Char) : Bool := c.isAlpha || c == '_'

/-- A letter, digit or underscore. -/
def isIdentChar (c : Char) : Bool := c.isAlphanum || c == '_'

/-- A letter or underscore, then letters, digits and underscores; ASCII only. -/
def isIdent : List Char → Bool
  | c :: cs => isIdentStart c && cs.all isIdentChar
  | [] => false

/-- Reads the text between two semicolons; blank text declares nothing. -/
def readDecl (text : List Char) : Except SchemaFault (Option FieldDecl) :=
  match Text.words text with
  | [] => .ok none
  | [type, name] =>
    if isIdent type && isIdent name then
      .ok (some ⟨String.ofList type, String.ofList name⟩)
    else .error .badFieldNames
  | _ => .error .badDeclaration

/-- Reads declarations onto those already read. -/
def readDecls (known : List FieldDecl) : List (List Char) → Except SchemaFault (List FieldDecl)
  | [] => .ok known
  | text :: rest =>
    match readDecl text with
    | .error fault => .error fault
    | .ok none => readDecls known rest
    | .ok (some decl) =>
      if known.any fun other => other.name == decl.name then .error (.duplicateField decl.name)
      else readDecls (known ++ [decl]) rest

/-- Reads what stands between the braces. -/
def readFields (inner : List Char) : Except SchemaFault SchemaBody :=
  match readDecls [] (Text.split (· == ';') inner) with
  | .error fault => .error fault
  | .ok [] => .error .noFields
  | .ok decls => .ok (.fields decls)

/-- Reads what stands after the equals sign, blanks at its ends taken off. -/
def readBody (text : List Char) : Except SchemaFault SchemaBody :=
  match text with
  | '\x7b' :: rest =>
    match rest.reverse with
    | '\x7d' :: inner => readFields inner.reverse
    | _ => .error .unclosed
  | _ => if isIdent text then .ok (.alias (String.ofList text)) else .error .badTarget

/-- Reads a schema. -/
def parse (source : String) : Except SchemaFault Schema :=
  match Text.cut? (· == '=') source.toList with
  | none => .error .noEquals
  | some (front, back) =>
    let name := Text.trim front
    if isIdent name then
      (readBody (Text.trim back)).map fun body => ⟨String.ofList name, body⟩
    else .error .badTypeName

end Schema

end SceneScript
