import Schematron.Text.CodePoint

/-! JSON values. Integers have any size, and numbers may be infinite or not a number. -/

namespace Schematron

inductive Json
  | null
  | boolean (value : Bool)
  | integer (value : Int)
  | real (value : Float)
  | text (value : Text)
  | list (items : List Json)
  | object (members : List (Text × Json))

namespace Json

def put (members : List (Text × Json)) (name : Text) (value : Json) : List (Text × Json) :=
  -- Sets a member; a name that is there already keeps its place.
  if members.any (·.1 == name) then
    members.map fun member => if member.1 == name then (name, value) else member
  else members ++ [(name, value)]

def member? (members : List (Text × Json)) (name : String) : Option Json :=
  members.lookup (Text.ofString name)

def kind : Json → String
  | null => "NoneType"
  | boolean _ => "bool"
  | integer _ => "int"
  | real _ => "float"
  | text _ => "str"
  | list _ => "list"
  | object _ => "dict"

def ofString (value : String) : Json := .text (Text.ofString value)

def ofOption (value : Option String) : Json :=
  match value with
  | some value => ofString value
  | none => .null

def record (members : List (String × Json)) : Json :=
  .object (members.map fun (name, value) => (Text.ofString name, value))

def ofTexts (texts : List Text) : Json := list (texts.map text)

end Json

end Schematron
