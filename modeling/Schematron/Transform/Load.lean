import Schematron.Transform.Stylesheet

/-! Reading stylesheets from documents. -/

namespace Schematron.Transform

open Schematron.Xml (Binding Name Node Attribute)
open Schematron.XPath (Expr Pattern NumberFormat)

def space : String := XPath.transformSpace

def isOwn (name : Name) : Bool := name.uri == space

def query (scope : List Binding) (source : String) : Except LoadFault Query :=
  match Expr.parse? source with
  | some expr => .ok ⟨expr, scope⟩
  | none => .error (.unreadableExpression source)

def embedded : List Char → List Char → Option (List Char × List Char)
  | _, [] => none
  | found, char :: rest =>
      if char == '\x7d' then some (found.reverse, rest)
      else if char == '"' || char == '\'' then quotedPart char (char :: found) rest
      else embedded (char :: found) rest
where
  quotedPart (quote : Char) (found : List Char) : List Char → Option (List Char × List Char)
    | [] => none
    | char :: rest =>
        if char == quote then embedded (char :: found) rest
        else quotedPart quote (char :: found) rest

def templateParts (source : String) :
    Nat → List Char → List Char → Except LoadFault (Option (List TemplatePart))
  | 0, _, _ => .ok none
  | _, found, [] => .ok (some [.text (String.ofList found.reverse)])
  | fuel + 1, found, '\x7b' :: '\x7b' :: rest => templateParts source fuel ('\x7b' :: found) rest
  | fuel + 1, found, '\x7b' :: '\x7d' :: rest => templateParts source fuel found rest
  | fuel + 1, found, '\x7b' :: rest =>
      match embedded [] rest with
      | none => .error (.unreadableTemplate source)
      | some (inner, rest) =>
          match Expr.parse? (String.ofList inner) with
          | none => .error (.unreadableExpression (String.ofList inner))
          | some expr => do
              let more ← templateParts source fuel [] rest
              .ok (more.map fun more => .text (String.ofList found.reverse) :: .query expr :: more)
  | fuel + 1, found, '\x7d' :: '\x7d' :: rest => templateParts source fuel ('\x7d' :: found) rest
  | _, _, '\x7d' :: _ => .ok none
  | fuel + 1, found, char :: rest => templateParts source fuel (char :: found) rest

def valueTemplate (scope : List Binding) (source : String) : Except LoadFault ValueTemplate := do
  -- A value with a closing brace that stands alone is taken as it is written.
  match ← templateParts source (source.length + 1) [] source.toList with
  | some parts => .ok ⟨parts, scope⟩
  | none => .ok ⟨[.text source], scope⟩

def value? (attributes : List Attribute) (localPart : String) : Option String :=
  (attributes.find? (·.name.isIn "" localPart)).map (·.value)

def required (element : String) (attributes : List Attribute) (localPart : String) :
    Except LoadFault String :=
  match value? attributes localPart with
  | some value => .ok value
  | none => .error (.missingAttribute element localPart)

def optionalQuery (scope : List Binding) (attributes : List Attribute) (localPart : String) :
    Except LoadFault (Option Query) :=
  match value? attributes localPart with
  | some source => (query scope source).map some
  | none => .ok none

def isPlainName (source : String) : Bool :=
  match XPath.plainName source.toList with
  | some (_, []) => true
  | _ => false

def declaredName (scope : List Binding) (source : String) : Except LoadFault String :=
  match Text.splitString ':' source with
  | [localPart] => if isPlainName localPart then .ok localPart else .error (.badName source)
  | [pre, localPart] =>
      if isPlainName pre && isPlainName localPart then
        match XPath.PathPattern.prefixSpace? scope pre with
        | some uri => .ok ("\x7b" ++ uri ++ "\x7d" ++ localPart)
        | none => .error (.badName source)
      else .error (.badName source)
  | _ => .error (.badName source)

def optionalName (scope : List Binding) (attributes : List Attribute) (localPart : String) :
    Except LoadFault (Option String) :=
  match value? attributes localPart with
  | some source => (declaredName scope source).map some
  | none => .ok none

def significant (nodes : List Node) : List Node :=
  -- References stand for their text, and blank text counts inside of `text` only.
  nodes.filterMap fun node => match node with
    | .text content => if Text.isBlank content then none else some node
    | .reference _ expansion => some (.text (Node.contentValue expansion))
    | .element .. => some node
    | _ => none

def sortKey (scope : List Binding) (attributes : List Attribute) : Except LoadFault SortKey := do
  let select ← query scope ((value? attributes "select").getD ".")
  .ok ⟨select, value? attributes "data-type" == some "number",
    value? attributes "order" == some "descending"⟩

def leadingSorts (scope : List Binding) : List Node → Except LoadFault (List SortKey × List Node)
  | .element name declared attributes children :: rest =>
      if name.isIn space "sort" then do
        let first ← sortKey (XPath.Tree.extendScope scope declared) attributes
        let (others, rest) ← leadingSorts scope rest
        .ok (first :: others, rest)
      else .ok ([], .element name declared attributes children :: rest)
  | nodes => .ok ([], nodes)

def carried (scope : List Binding) : List Binding := scope.filter (·.uri != space)

abbrev Aliases := List (String × String)

def Aliases.apply (aliases : Aliases) (name : Name) : Name :=
  match aliases.lookup name.uri with
  | some uri => { name with uri }
  | none => name

mutual
def instruction (aliases : Aliases) (scope : List Binding) :
    Nat → Node → Except LoadFault Instruction
  | 0, _ => .error .notAStylesheet
  | fuel + 1, node =>
      match node with
      | .text content => .ok (.text content)
      | .element name declared attributes children => do
          let scope := XPath.Tree.extendScope scope declared
          if isOwn name then
            ownInstruction aliases scope fuel name.localPart attributes children
          else
            let plain := attributes.filter fun found => found.name.uri != space
            let templates ← plain.mapM fun found => do
              .ok (aliases.apply found.name, ← valueTemplate scope found.value)
            let content ← instructions aliases scope fuel (significant children)
            let aliased := aliases.filterMap fun pair =>
              (scope.find? (·.uri == pair.1)).map fun binding =>
                (⟨binding.pre, pair.2⟩ : Binding)
            .ok (.literal (aliases.apply name)
              (XPath.Tree.extendScope (carried scope) aliased).reverse templates content)
      | _ => .ok (.text "")

def instructions (aliases : Aliases) (scope : List Binding) :
    Nat → List Node → Except LoadFault (List Instruction)
  | 0, _ => .error .notAStylesheet
  | _, [] => .ok []
  | fuel + 1, node :: rest => do
      let first ← instruction aliases scope fuel node
      .ok (first :: (← instructions aliases scope fuel rest))

def passed (aliases : Aliases) (scope : List Binding) :
    Nat → List Node → Except LoadFault (List (String × Option Query × List Instruction))
  | 0, _ => .error .notAStylesheet
  | fuel + 1, .element name declared attributes children :: rest => do
      let others ← passed aliases scope fuel rest
      if name.isIn space "with-param" then
        let scope := XPath.Tree.extendScope scope declared
        let label ← declaredName scope (← required name.localPart attributes "name")
        let select ← optionalQuery scope attributes "select"
        let content ← instructions aliases scope fuel (significant children)
        .ok ((label, select, content) :: others)
      else .ok others
  | fuel + 1, _ :: rest => passed aliases scope fuel rest
  | _, [] => .ok []

def branches (aliases : Aliases) (scope : List Binding) :
    Nat → List Node → Except LoadFault (List (Query × List Instruction) × List Instruction)
  | 0, _ => .error .notAStylesheet
  | _, [] => .ok ([], [])
  | fuel + 1, .element name declared attributes children :: rest => do
      let inner := XPath.Tree.extendScope scope declared
      let (others, otherwise) ← branches aliases scope fuel rest
      let content ← instructions aliases inner fuel (significant children)
      if name.isIn space "when" then
        let source ← required name.localPart attributes "test"
        let test ← (query inner source).mapError fun _ =>
          .unreadableQuery name.localPart "test" source
        .ok ((test, content) :: others, otherwise)
      else if name.isIn space "otherwise" then .ok (others, content)
      else .error (.unexpectedElement name.localPart)
  | fuel + 1, _ :: rest => branches aliases scope fuel rest

def ownInstruction (aliases : Aliases) (scope : List Binding) :
    Nat → String → List Attribute → List Node → Except LoadFault Instruction
  | 0, _, _, _ => .error .notAStylesheet
  | fuel + 1, kind, attributes, children => do
      let requiredQuery (localPart : String) : Except LoadFault Query := do
        let source ← required kind attributes localPart
        (query scope source).mapError fun _ => .unreadableQuery kind localPart source
      let requiredTemplate (localPart : String) : Except LoadFault ValueTemplate := do
        valueTemplate scope (← required kind attributes localPart)
      let spaceTemplate : Except LoadFault (Option ValueTemplate) :=
        match value? attributes "namespace" with
        | some source => (valueTemplate scope source).map some
        | none => .ok none
      let content : Except LoadFault (List Instruction) :=
        instructions aliases scope fuel (significant children)
      let mode : Except LoadFault String := do
        .ok ((← optionalName scope attributes "mode").getD "")
      match kind with
      | "text" => .ok (.text (Node.contentValue children))
      | "value-of" => do .ok (.valueOf (← requiredQuery "select"))
      | "copy-of" => do .ok (.copyOf (← requiredQuery "select"))
      | "copy" => do .ok (.copy (← content))
      | "element" => do
          .ok (.element (← requiredTemplate "name") (← spaceTemplate) (← content))
      | "attribute" => do
          .ok (.attribution (← requiredTemplate "name") (← spaceTemplate) (← content))
      | "comment" => do .ok (.comment (← content))
      | "processing-instruction" => do .ok (.processing (← requiredTemplate "name") (← content))
      | "number" => do .ok (.number (← optionalQuery scope attributes "value"))
      | "apply-templates" => do
          let select ← optionalQuery scope attributes "select"
          let nodes := significant children
          let sorts ← nodes.filterMapM fun node => match node with
            | .element name declared attributes _ =>
                if name.isIn space "sort" then
                  (sortKey (XPath.Tree.extendScope scope declared) attributes).map some
                else .ok none
            | _ => .ok none
          .ok (.applyTemplates select (← mode) sorts (← passed aliases scope fuel nodes))
      | "call-template" => do
          let name ← declaredName scope (← required kind attributes "name")
          .ok (.callTemplate name (← passed aliases scope fuel (significant children)))
      | "for-each" => do
          let select ← requiredQuery "select"
          let (sorts, nodes) ← leadingSorts scope (significant children)
          .ok (.forEach select sorts (← instructions aliases scope fuel nodes))
      | "if" => do .ok (.choose [(← requiredQuery "test", ← content)] [])
      | "choose" => do
          let (found, otherwise) ← branches aliases scope fuel (significant children)
          .ok (.choose found otherwise)
      | "variable" | "param" => do
          let name ← declaredName scope (← required kind attributes "name")
          let select ← optionalQuery scope attributes "select"
          .ok (.declare (kind == "param") name select (← content))
      | "message" => do
          .ok (.message (value? attributes "terminate" == some "yes") (← content))
      | "fallback" => .ok (.text "")
      | _ => .ok (.unknown kind)
end

structure Declared where
  templates : List Template
  globals : List Global
  keys : List Key
  formats : List (String × NumberFormat)

namespace Declared

def empty : Declared := ⟨[], [], [], []⟩

end Declared

def numberFormat (attributes : List Attribute) : NumberFormat :=
  let standard := NumberFormat.standard
  let symbol (localPart : String) (byDefault : Char) : Char :=
    ((value? attributes localPart).bind fun value => value.toList.head?).getD byDefault
  { decimalPoint := symbol "decimal-separator" standard.decimalPoint
    grouping := symbol "grouping-separator" standard.grouping
    infinity := (value? attributes "infinity").getD standard.infinity
    minus := symbol "minus-sign" standard.minus
    notANumber := (value? attributes "NaN").getD standard.notANumber
    percent := symbol "percent" standard.percent
    permille := symbol "per-mille" standard.permille
    zero := symbol "zero-digit" standard.zero
    digit := symbol "digit" standard.digit
    separator := symbol "pattern-separator" standard.separator }

def pattern (scope : List Binding) (source : String) : Except LoadFault Pattern :=
  match Pattern.parse scope source with
  | .ok found => .ok found
  | .error (.unreadable source) => .error (.unreadablePattern source)

def template (aliases : Aliases) (scope : List Binding) (fuel : Nat) (attributes : List Attribute)
    (children : List Node) : Except LoadFault Template := do
  let found ← match value? attributes "match" with
    | some source => (pattern scope source).map some
    | none => .ok none
  let name ← optionalName scope attributes "name"
  let mode := (← optionalName scope attributes "mode").getD ""
  let priority := (value? attributes "priority").map XPath.Number.ofString
  .ok ⟨found, name, mode, priority, ← instructions aliases scope fuel (significant children)⟩

def declaration (aliases : Aliases) (scope : List Binding) (fuel : Nat) (before : Declared)
    (name : Name) (attributes : List Attribute) (children : List Node) :
    Except LoadFault Declared := do
  if name.uri.isEmpty then .error (.unexpectedElement name.localPart)
  else if !isOwn name then .ok before
  else match name.localPart with
    | "template" => do
        let found ← template aliases scope fuel attributes children
        .ok { before with templates := before.templates ++ [found] }
    | "variable" | "param" => do
        let label ← declaredName scope (← required name.localPart attributes "name")
        let select ← optionalQuery scope attributes "select"
        let content ← instructions aliases scope fuel (significant children)
        .ok { before with globals := before.globals ++
          [⟨label, name.localPart == "param", select, content⟩] }
    | "key" => do
        let label ← declaredName scope (← required "key" attributes "name")
        let found ← pattern scope (← required "key" attributes "match")
        let use ← query scope (← required "key" attributes "use")
        .ok { before with keys := before.keys ++ [⟨label, found, use⟩] }
    | "decimal-format" => do
        let label := (← optionalName scope attributes "name").getD ""
        .ok { before with formats := before.formats ++ [(label, numberFormat attributes)] }
    | "output" | "strip-space" | "preserve-space" | "namespace-alias" | "attribute-set" =>
        .ok before
    | other => .error (.unexpectedElement other)

def declarations (aliases : Aliases) (scope : List Binding) (fuel : Nat) :
    Declared → List Node → Except LoadFault Declared
  | before, [] => .ok before
  | before, node :: rest =>
      match node with
      | .element name declared attributes children => do
          let inner := XPath.Tree.extendScope scope declared
          declarations aliases scope fuel
            (← declaration aliases inner fuel before name attributes children) rest
      | .text _ => .error .misplacedText
      | _ => declarations aliases scope fuel before rest

def aliasesOf (scope : List Binding) (nodes : List Node) : Aliases :=
  nodes.filterMap fun node => match node with
    | .element name declared attributes _ =>
        if name.isIn space "namespace-alias" then
          let scope := XPath.Tree.extendScope scope declared
          let uri (localPart : String) : String :=
            let pre := (value? attributes localPart).getD ""
            ((scope.find? (·.pre == (if pre == "#default" then "" else pre))).map (·.uri)).getD ""
          some (uri "stylesheet-prefix", uri "result-prefix")
        else none
    | _ => none

def rulesOf (templates : List Template) : List Rule :=
  let rules := templates.flatMap fun template =>
    match template.pattern with
    | none => []
    | some found => found.alternatives.map fun alternative =>
        (⟨{ found with alternatives := [alternative] }, template.mode,
          template.priority.getD alternative.priority, template.body⟩ : Rule)
  rules.reverse.mergeSort fun left right => right.priority ≤ left.priority

mutual
def extent : Node → Nat
  | .element _ _ _ children => extents children + 2
  | _ => 2

def extents : List Node → Nat
  | [] => 1
  | node :: rest => extent node + extents rest + 1
end

def load (uri : String) (document : Xml.Document) : Except LoadFault Stylesheet := do
  let tree := XPath.Tree.ofDocument uri (fun _ _ => false) document
  match document.root? with
  | some (.element name declared attributes children) =>
      let fuel := 4 * extents children + 8
      let scope := XPath.Tree.extendScope [] declared
      let nodes := significant children
      if isOwn name && (name.localPart == "stylesheet" || name.localPart == "transform") then
        let found ← declarations (aliasesOf scope nodes) scope fuel .empty nodes
        let named := found.templates.filterMap fun template =>
          template.name.map fun name => (name, template.body)
        .ok ⟨rulesOf found.templates, named, found.globals, found.keys, found.formats, tree⟩
      else if attributes.any fun found => found.name.isIn space "version" then
        let body ← instruction [] [] fuel (.element name declared attributes children)
        let root : Pattern := ⟨[⟨.root, -0.5⟩], scope⟩
        .ok ⟨[⟨root, "", 0.5, [body]⟩], [], [], [], [], tree⟩
      else .error .notAStylesheet
  | _ => .error .notAStylesheet

end Schematron.Transform
