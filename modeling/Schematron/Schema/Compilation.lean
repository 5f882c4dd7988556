import Schematron.Schema.Wording
import Schematron.Text.Blank
import Schematron.Transform.Load

/-! The third stage: a schema becomes a stylesheet that writes a validation report. -/

namespace Schematron.Schema

open Schematron.Xml

structure Plan where
  schema : Node
  nodes : List Node
  phase : String

namespace Plan

def allPhases : String := "#ALL"

def chosenPhase (asked : Option String) (nodes : List Node) : String :=
  let preferred := (elementsAmong (·.isNamed space "schema") nodes).findSome?
    (·.attribute? "defaultPhase")
  match asked with
  | some phase => phase
  | none => preferred.getD allPhases

def phases (plan : Plan) : List Node := plan.schema.children.filter (·.isNamed space "phase")

def activates (phase : String) (siblings : List Node) (id : Option String) : Bool :=
  phase == allPhases || id.isSome && siblings.any fun sibling =>
    sibling.isNamed space "phase" && sibling.attribute? "id" == some phase &&
      sibling.children.any fun active =>
        active.isNamed space "active" && active.attribute? "pattern" == id

def rules (plan : Plan) : List Node := elementsAmong (·.isNamed space "rule") plan.nodes

def abstractRules (plan : Plan) (id : String) : List Node :=
  plan.rules.filter fun rule => isAbstract rule.attributes && rule.attribute? "id" == some id

def diagnostics (plan : Plan) (id : String) : List Node :=
  elementsAmong (fun node => (node.isNamed space "diagnostic" || node.isNamed "" "diagnostic") &&
    node.attribute? "id" == some id) plan.nodes

def descent (plan : Plan) : String :=
  let looks := plan.rules.any fun rule =>
    let context := ((rule.attribute? "context").getD "").toList
    Text.contains context "@".toList || Text.contains context "attribute".toList
  if looks then "@*|*" else "*"

end Plan

def modeOf (index : Nat) : String := "M" ++ toString index

def diagnosticRecords (plan : Plan) (references : Option String) : Staged (List Node) := do
  let ids := (Text.splitString ' ' (references.getD "")).filter (!Text.isBlank ·)
  let records ← ids.mapM fun id => do
    let found := plan.diagnostics id
    if found.isEmpty then
      Staged.say ("Reference error: A diagnostic \"" ++ id ++
        "\" has been referenced but is not declared")
    found.mapM fun node => do
      return record "diagnostic-reference" [("diagnostic", id)] (← wording node.children)
  return records.flatten

def finding (plan : Plan) (kind : String) (attributes : List Attribute) (children : List Node) :
    Staged Node := do
  let test := Text.normalizeLayout ((value? attributes "test").getD "")
  let diagnostics ← diagnosticRecords plan (value? attributes "diagnostics")
  let text ← wording children
  let given := ["id", "flag", "role"].flatMap fun localPart =>
    literalAttribute (localPart, value? attributes localPart)
  let place := instruction "attribute" [("name", "location")]
    [instruction "apply-templates" [("select", "."), ("mode", locationMode)] []]
  return record kind [("test", test)] (given ++ place :: diagnostics ++ [record "text" [] text])

def assertion (plan : Plan) (attributes : List Attribute) (children : List Node) :
    Staged (List Node) := do
  let test := value? attributes "test"
  if test.isNone then Staged.say "Markup Error: no test attribute in <assert>"
  let failed ← finding plan "failed-assert" attributes children
  return [instruction "choose" []
    [instruction "when" [("test", test.getD "")] [], instruction "otherwise" [] [failed]]]

def report (plan : Plan) (attributes : List Attribute) (children : List Node) :
    Staged (List Node) := do
  let test := value? attributes "test"
  if test.isNone then Staged.say "Markup Error: no test attribute in <report>"
  let found ← finding plan "successful-report" attributes children
  return [instruction "if" [("test", test.getD "")] [found]]

structure Position where
  parent : Name
  before : Nat
  after : Nat
  parentBefore : Nat

abbrev Inheritance := String → Staged (List Node)

def inherited (inherit : Inheritance) (plan : Plan) (name : Name) (attributes : List Attribute)
    (children : List Node) : Staged (List Node) := do
  let rule := value? attributes "rule"
  if rule.isNone then Staged.say "Markup Error: no rule attribute in <extends>"
  let missing := match rule with
    | some id => (plan.abstractRules id).isEmpty
    | none => true
  if missing then
    Staged.say ("Reference Error: the abstract rule  \"" ++ rule.getD "" ++
      "\" has been referenced but is not declared")
  sayIfFilled name children
  match rule with
  | some id => inherit id
  | none => return []

def binding (position : Position) (attributes : List Attribute) : Node :=
  let kind := if position.parent.isIn space "schema" then "param" else "variable"
  instruction kind
    [("name", (value? attributes "name").getD ""), ("select", (value? attributes "value").getD "")]
    []

def activation (plan : Plan) (attributes : List Attribute) : Staged Unit := do
  let pattern := value? attributes "pattern"
  if pattern.isNone then Staged.say "Markup Error: no pattern attribute in <active>"
  let isDeclared := pattern.isSome && plan.schema.children.any fun child =>
    child.isNamed space "pattern" && child.attribute? "id" == pattern
  if !isDeclared then
    Staged.say ("Reference Error: the pattern  \"" ++ pattern.getD "" ++
      "\" has been activated but is not declared")

def checkDiagnostics (children : List Node) : Staged Unit := do
  for child in children do
    if child.isNamed space "diagnostic" && (child.attribute? "id").isNone then
      Staged.say "Markup Error: no id attribute in <diagnostic>"

def passage (plan : Plan) (index : Nat) : List Node :=
  let mode := modeOf index
  [instruction "template" [("match", "text()"), ("priority", "-1"), ("mode", mode)] [],
   instruction "template" [("match", "@*|node()"), ("priority", "-2"), ("mode", mode)]
    [instruction "apply-templates" [("select", plan.descent), ("mode", mode)] []]]

def firedRule (attributes : List Attribute) : Node :=
  let given := ["id", "context", "role", "flag"].filterMap fun localPart =>
    match value? attributes localPart with
    | none | some "" => none
    | some value => some (localPart, value)
  record "fired-rule" given []

def countElements (nodes : List Node) : Nat := nodes.countP Node.isElement

def isSilent (localPart : String) : Bool := ["ns", "p", "title"].contains localPart

mutual
def declareNode (inherit : Inheritance) (plan : Plan) (siblings : List Node)
    (position : Position) : Node → Staged (List Node)
  | .element name _ attributes children => do
      let within : Staged (List Node) :=
        declareNodes inherit plan children name 0 position.before children
      if ["key", "function"].any (name.isIn XPath.transformSpace ·) then return []
      if !isOwn name then
        Staged.say ("Warning: unrecognized element " ++ name.qualified)
        return []
      match name.localPart with
      | "pattern" =>
          if Plan.activates plan.phase siblings (value? attributes "id") then
            return (← within) ++ passage plan position.before
          else return []
      | "rule" =>
          if isAbstract attributes then do
            if (value? attributes "id").isNone then
              Staged.say "Markup Error: no id attribute on abstract <rule>"
            if (value? attributes "context").isSome then
              Staged.say "Markup Error: (2) context attribute on abstract <rule>"
            return []
          else do
            let context := value? attributes "context"
            if context.isNone then Staged.say "Markup Error: no context attribute in <rule>"
            let mode := modeOf position.parentBefore
            let checks ← within
            return [instruction "template"
              [("match", context.getD ""), ("priority", toString (1000 + position.after)),
               ("mode", mode)]
              (firedRule attributes :: checks ++
                [instruction "apply-templates" [("select", plan.descent), ("mode", mode)] []])]
      | "assert" => assertion plan attributes children
      | "report" => report plan attributes children
      | "let" => return [binding position attributes]
      | "extends" => inherited inherit plan name attributes children
      | "phase" => do
          if (value? attributes "id").isNone then
            Staged.say "Markup Error: no id attribute in <phase>"
          within
      | "active" => do
          activation plan attributes
          return []
      | "diagnostics" => do
          checkDiagnostics children
          return []
      | "diagnostic" =>
          return [record "diagnostic-reference" [] (← wording children)]
      | "key" => do
          Staged.say ("Schema error: The key element is not in the ISO Schematron namespace. " ++
            "Use the XSLT namespace.")
          return []
      | "function" => do
          Staged.say ("Schema error: The function element is not in the ISO Schematron namespace. "
            ++ "Use the XSLT namespace.")
          return []
      | "schema" => return [instruction "stylesheet" [] []]
      | other => do
          if !isSilent other then
            Staged.say ("Error: unrecognized element in ISO Schematron namespace: check spelling" ++
              "\n\t\t\tand capitalization" ++ name.qualified)
          return []
  | _ => return []

def declareNodes (inherit : Inheritance) (plan : Plan) (siblings : List Node) (parent : Name)
    (before parentBefore : Nat) : List Node → Staged (List Node)
  | [] => return []
  | node :: rest => do
      let position : Position := ⟨parent, before, countElements rest, parentBefore⟩
      let first ← declareNode inherit plan siblings position node
      let next := if node.isElement then before + 1 else before
      return first ++ (← declareNodes inherit plan siblings parent next parentBefore rest)
end

def inheritance (plan : Plan) : Nat → Inheritance
  | 0, _ => throw "abstract rules extend each other"
  | depth + 1, id => do
      let contents ← (plan.abstractRules id).mapM fun rule => do
        if (rule.attribute? "context").isSome then
          Staged.say "Markup Error: context attribute on abstract <rule>"
        declareNodes (inheritance plan depth) plan rule.children ((rule.name?).getD (.bare "")) 0 0
          rule.children
      return contents.flatten

def inheritanceDepth : Nat := 500

def reservedBindings (queryBinding : Option String) : List Binding :=
  let extensions : List Binding :=
    if queryBinding == some "exslt" then
      [⟨"date", "http://exslt.org/dates-and-times"⟩, ⟨"dyn", "http://exslt.org/dynamic"⟩,
       ⟨"exsl", "http://exslt.org/common"⟩, ⟨"math", "http://exslt.org/math"⟩,
       ⟨"random", "http://exslt.org/random"⟩,
       ⟨"regexp", "http://exslt.org/regular-expressions"⟩, ⟨"set", "http://exslt.org/sets"⟩,
       ⟨"str", "http://exslt.org/strings"⟩]
    else []
  [⟨"axsl", XPath.transformSpace⟩, ⟨"xhtml", "http://www.w3.org/1999/xhtml"⟩,
   ⟨"sch", "http://www.ascc.net/xml/schematron"⟩,
   ⟨"schold", "http://www.ascc.net/xml/schematron"⟩, ⟨"iso", space⟩] ++ extensions

def bindNamespaces : List Binding → List Node → Staged (List Binding)
  | bound, [] => return bound
  | bound, node :: rest => do
      if !node.isNamed space "ns" then bindNamespaces bound rest
      else
        let pre := (node.attribute? "prefix").getD ""
        if !Transform.isPlainName pre then throw ("a namespace with the prefix '" ++ pre ++ "'")
        let uri := (node.attribute? "uri").getD ""
        if uri.isEmpty || bound.any (·.pre == pre) then bindNamespaces bound rest
        else bindNamespaces (bound ++ [⟨pre, uri⟩]) rest

def preamble (plan : Plan) : Nat → List Node → Staged (List Node)
  | _, [] => return []
  | before, node :: rest => do
      let first ← match node with
        | .element name _ attributes children => do
            if name.isIn space "ns" then
              if (value? attributes "uri").isNone then
                Staged.say "Markup Error: no uri attribute in <ns>"
              sayIfFilled name children
              pure [record "ns-prefix-in-attribute-values"
                [("uri", (value? attributes "uri").getD ""),
                 ("prefix", (value? attributes "prefix").getD "")] []]
            else if name.isIn space "pattern" &&
                Plan.activates plan.phase plan.phases (value? attributes "id") then
              let paragraphs ← (children.filter (·.isNamed space "p")).mapM fun paragraph => do
                return record "text" [] (← wording paragraph.children)
              pure [record "active-pattern" [] paragraphs,
                instruction "apply-templates" [("select", "/"), ("mode", modeOf before)] []]
            else pure []
        | _ => pure []
      return first ++ (← preamble plan (if node.isElement then before + 1 else before) rest)

def titleOf (schema : Node) : String :=
  let titles := (schema.children.filter (·.isNamed space "title")).map Node.stringValue
  (titles.getLast?.or (schema.attribute? "id")).getD ""

def rootTemplate (plan : Plan) : Staged Node := do
  let schema := plan.schema
  let body ← preamble plan 0 schema.children
  let paragraphs ← (schema.children.filter (·.isNamed space "p")).mapM fun paragraph => do
    return record "text" [] (← wording paragraph.children)
  return instruction "template" [("match", "/")]
    [record "schematron-output"
      [("title", titleOf schema), ("schemaVersion", (schema.attribute? "schemaVersion").getD "")]
      (paragraphs ++ body)]

def keyDeclarations (schema : Node) : List Node :=
  (schema.children.filter (·.isNamed XPath.transformSpace "key")).map fun key =>
    instruction "key" (["name", "match", "use"].filterMap fun localPart =>
      (key.attribute? localPart).map fun value => (localPart, value)) []

def acceptsBinding (queryBinding : Option String) : Bool :=
  match queryBinding with
  | none => true
  | some name => ["xslt", "exslt", "xslt1", "XSLT", "XSLT1"].contains name

def checkPhase (plan : Plan) : Staged Unit := do
  let phase := Text.normalizeLayout plan.phase
  if phase != Plan.allPhases && !plan.phases.any (·.attribute? "id" == some phase) then
    Staged.say ("Phase Error: no phase with name " ++ phase ++ " has been defined.")

def archiveParameters : List Node :=
  ["archiveDirParameter", "archiveNameParameter", "fileNameParameter", "fileDirParameter"].map
    fun name => instruction "param" [("name", name)] []

def stylesheet (plan : Plan) : Staged Node := do
  let schema := plan.schema
  let queryBinding := schema.attribute? "queryBinding"
  if !acceptsBinding queryBinding then
    let message := "Fail: This implementation of ISO Schematron does not work with\n\t" ++
      "schemas using the \"" ++ queryBinding.getD "" ++ "\" query language."
    Staged.say message
    throw message
  if ["xslt1", "XSLT", "XSLT1"].any (queryBinding == some ·) then
    Staged.say "Schema error: in the queryBinding attribute, use 'xslt'"
  let bindings ← bindNamespaces (reservedBindings queryBinding) schema.children
  checkPhase plan
  let root ← rootTemplate plan
  let declared ← declareNodes (inheritance plan inheritanceDepth) plan schema.children
    ((schema.name?).getD (.bare "")) 0 0 schema.children
  return .element ⟨some "axsl", "stylesheet", XPath.transformSpace⟩ bindings
    (attributesOf [("version", "1.0")])
    (archiveParameters ++ keyDeclarations schema ++ locationTemplates ++
      instruction "template" [("match", "text()"), ("priority", "-1")] [] :: root :: declared)

def stylesheets (phase : Option String) (document : Xml.Document) : List Node → Staged (List Node)
  | [] => return []
  | node :: rest => do
      let first ← match node with
        | .element name .. =>
            if name.isIn space "schema" then do
              let phase := Plan.chosenPhase phase document.nodes
              pure [← stylesheet ⟨node, document.nodes, phase⟩]
            else do
              Staged.say ((if isOwn name then
                "Error: unrecognized element in ISO Schematron namespace: check spelling" ++
                "\n\t\t\tand capitalization" else "Warning: unrecognized element ") ++
                name.qualified)
              pure []
        | _ => pure []
      return first ++ (← stylesheets phase document rest)

def compileAll (phase : Option String) (document : Xml.Document) : StageRun :=
  (stylesheets phase document document.nodes).toRun

end Schematron.Schema
