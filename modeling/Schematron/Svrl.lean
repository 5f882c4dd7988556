import Schematron.Diagnostic
import Schematron.Xml.Node

/-! Reading diagnostics from a validation report in SVRL. -/

namespace Schematron.Svrl

open Schematron.Xml

def space : String := "http://purl.oclc.org/dsdl/svrl"

def recordKind? (name : Name) : Option DiagnosticKind :=
  if name.isIn space "failed-assert" then some .assert
  else if name.isIn space "successful-report" then some .report
  else none

def recordText (children : List Node) : String :=
  match children.find? (·.isNamed space "text") with
  | some text => text.stringValue
  | none => ""

def diagnostic (kind : DiagnosticKind) (attributes : List Attribute) (children : List Node) :
    Diagnostic :=
  let value? (localPart : String) : Option String :=
    (attributes.find? (·.name.isIn "" localPart)).map (·.value)
  ⟨recordText children, classify kind [value? "role", value? "flag"], kind, value? "location",
    value? "test"⟩

mutual
def ofNode : Node → List Diagnostic
  | .element name _ attributes children =>
      match recordKind? name with
      | some kind => diagnostic kind attributes children :: ofNodes children
      | none => ofNodes children
  | .reference _ expansion => ofNodes expansion
  | _ => []

def ofNodes : List Node → List Diagnostic
  | [] => []
  | node :: rest => ofNode node ++ ofNodes rest
end

def diagnostics (document : Xml.Document) : List Diagnostic :=
  match document.root? with
  | some root => ofNode root
  | none => []

end Schematron.Svrl
