import Schematron.FileTree
import Schematron.Xml.Reader

/-! Documents that are submitted for validation. -/

namespace Schematron

/-- A text to validate; `givenNamespace` overrides the namespace that its root element has. -/
structure Document where
  content : Option Text
  givenNamespace : Option String
  id : Option String
  contentAttribute : String

namespace Document

def defaultContentAttribute : String := "metadata"

def isEmpty (document : Document) : Bool :=
  match document.content with
  | none | some [] => true
  | some _ => false

end Document

def guardedReading? (content : Text) : Option Xml.Parsed :=
  content.toUtf8?.bind (Xml.parseBytes? .guarded (some "utf-8"))

def rootNamespace? (content : Text) : Option String := do
  let parsed ← guardedReading? content
  let root ← parsed.document.root?
  let name ← root.name?
  if name.uri.isEmpty then none else some name.uri

namespace Document

def rootNamespace? (document : Document) : Option String :=
  match document.givenNamespace with
  | some space => some space
  | none => if document.isEmpty then none else document.content.bind Schematron.rootNamespace?

def label (document : Document) : String :=
  match document.id with
  | none | some "" => "Document"
  | some id => "Document " ++ id

def encodingFault (content : Text) (start count : Nat) : String :=
  if count == 1 then
    let value := ((content[start]?).map (·.value)).getD 0
    let digits := Decimal.padLeft 4 (Nat.toDigits 16 value)
    "'utf-8' codec can't encode character '\\u" ++ String.ofList digits ++ "' in position " ++
      toString start ++ ": surrogates not allowed"
  else
    "'utf-8' codec can't encode characters in position " ++ toString start ++ "-" ++
      toString (start + count - 1) ++ ": surrogates not allowed"

def ofFile (files : FileTree) (surroundings : Surroundings) (path : String)
    (id givenNamespace : Option String) : Except Failure Document := do
  let content ← files.text surroundings path
  return ⟨some (Text.ofString content), givenNamespace, id.or (some path), defaultContentAttribute⟩

def parse (document : Document) : Except Failure Xml.Parsed :=
  match document.content with
  | none => .error (.foreign "AttributeError" "'NoneType' object has no attribute 'encode'")
  | some content =>
      match content.surrogateRun? with
      | some (start, count) =>
          let fault := encodingFault content start count
          .error (.execution (document.label ++ " is not valid text: " ++ fault)
            (some (.foreign "UnicodeEncodeError" fault)))
      | none =>
          match content.toUtf8?.bind (Xml.parseBytes? .validating (some "utf-8")) with
          | some parsed => .ok parsed
          | none =>
              .error (.execution (document.label ++ " is not well-formed XML: no document")
                (some (.foreign "XMLSyntaxError" "no document")))

end Document

end Schematron
