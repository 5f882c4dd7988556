import Schematron.Transform.Load

/-! Running a stylesheet on a tree. -/

namespace Schematron.Transform

open Schematron.Xml (Binding Name Node Attribute)
open Schematron.XPath (Eval Value Context Library NodeRef Fault Forest Session)

inductive Piece
  | node (node : Node)
  | attribution (added : Attribute)
deriving Inhabited

namespace Piece

def text (content : String) : List Piece :=
  if content.isEmpty then [] else [.node (.text content)]

end Piece

def joinTexts : List Node → List Node
  | .text first :: rest =>
      match joinTexts rest with
      | .text second :: others => .text (first ++ second) :: others
      | others => .text first :: others
  | node :: rest => node :: joinTexts rest
  | [] => []

def nodesOf (pieces : List Piece) : List Node :=
  joinTexts (pieces.filterMap fun piece => match piece with
    | .node node => some node
    | .attribution _ => none)

def attributesOf (pieces : List Piece) : Eval (List Attribute) :=
  -- The attributes in front of a content, each name once with its last value; one that follows a
  -- child is a fault.
  go [] pieces
where
  put (found : List Attribute) (item : Attribute) : List Attribute :=
    if found.any (·.name.same item.name) then
      found.map fun old => if old.name.same item.name then item else old
    else found ++ [item]
  go (found : List Attribute) : List Piece → Eval (List Attribute)
    | .attribution item :: rest => go (put found item) rest
    | rest =>
        if rest.any (fun piece => match piece with | .attribution _ => true | _ => false) then
          XPath.fail .wrongType
        else pure found

def buildElement (name : Name) (declared : List Binding) (pieces : List Piece) :
    Eval (List Piece) := do
  let attributes ← attributesOf pieces
  return [.node (.element name declared attributes (nodesOf pieces))]

def withPrefixes (declared : List Binding) (names : List Name) : List Binding :=
  names.foldl (fun declared name => match name.pre with
    | none =>
        if name.uri.isEmpty || declared.any (·.pre.isEmpty) then declared
        else declared ++ [⟨"", name.uri⟩]
    | some pre =>
        if declared.any (·.pre == pre) then declared else declared ++ [⟨pre, name.uri⟩]) declared

def queryValue (library : Library) (context : Context) (query : Query) : Eval Value :=
  XPath.evaluate library { context with scope := query.scope, current := context.node } query.expr

def queryText (library : Library) (context : Context) (query : Query) : Eval String := do
  let value ← queryValue library context query
  return value.toText (← get).forest

def templateText (library : Library) (context : Context) (template : ValueTemplate) :
    Eval String := do
  let parts ← template.parts.mapM fun part => match part with
    | .text content => pure content
    | .query expr => queryText library context ⟨expr, template.scope⟩
  return String.join parts

def computedName (isAttribute : Bool) (scope : List Binding) (written : String)
    (uri : Option String) : Eval Name :=
  let name := XPath.splitName written
  if !(isPlainName name.localPart && (name.pre.map isPlainName).getD true) then
    XPath.fail (.unknownInstruction written)
  else match uri with
    | some uri => pure ⟨name.pre, name.localPart, uri⟩
    | none => match name.pre with
      | some pre => match XPath.PathPattern.prefixSpace? scope pre with
        | some uri => pure ⟨some pre, name.localPart, uri⟩
        | none => XPath.fail (.unknownPrefix pre)
      | none =>
          let uri := if isAttribute then ""
            else ((scope.find? (·.pre.isEmpty)).map (·.uri)).getD ""
          pure ⟨none, name.localPart, uri⟩

def copyOfNode (forest : Forest) (node : NodeRef) : List Piece :=
  let tree := Forest.tree forest node
  let item := Forest.item forest node
  if node.space.isSome then []
  else match item.kind with
    | .attribution => [.attribution ⟨item.name, item.value⟩]
    | .root => (tree.toNodes (2 * tree.items.size + 2) item.children).map .node
    | _ => ((tree.toNode (2 * tree.items.size + 2) node.index).map Piece.node).toList

def addFragment (pieces : List Piece) : Eval Value := do
  let session ← get
  let tree := XPath.Tree.ofNodes "" [] (nodesOf pieces)
  set { session with forest := session.forest.push tree }
  return .fragment session.forest.size

inductive SortValue
  | text (value : String)
  | number (value : Float)

namespace SortValue

def notAfter : SortValue → SortValue → Bool
  | text left, text right => left < right || left == right
  | number left, number right => left != left || left ≤ right
  | _, _ => true

def same : SortValue → SortValue → Bool
  | text left, text right => left == right
  | number left, number right => left == right || (left != left && right != right)
  | _, _ => true

end SortValue

def inSortOrder : List Bool → List SortValue → List SortValue → Bool
  | isDescending :: flags, first :: left, second :: right =>
      if first.same second then inSortOrder flags left right
      else if isDescending then second.notAfter first else first.notAfter second
  | _, _, _ => true

def sortNodes (library : Library) (context : Context) (sorts : List SortKey)
    (nodes : List NodeRef) : Eval (List NodeRef) := do
  if sorts.isEmpty then return nodes
  let size := nodes.length
  let keyed ← nodes.zipIdx.mapM fun (node, index) => do
    let values ← sorts.mapM fun sort => do
      let text ← queryText library { context with node, position := index + 1, size } sort.select
      pure (if sort.isNumeric then SortValue.number (XPath.Number.ofString text) else .text text)
    pure (values, node)
  let flags := sorts.map (·.isDescending)
  return (keyed.mergeSort fun left right => inSortOrder flags left.1 right.1).map (·.2)

def nestingLimit : Nat := 20000

def findRule (library : Library) (context : Context) (mode : String) (node : NodeRef) :
    List Rule → Eval (Option Rule)
  | [] => pure none
  | rule :: rest => do
      if rule.mode == mode then
        if ← rule.pattern.accepts library { context with node, current := node } node then
          return some rule
      findRule library context mode node rest

def keyCandidates (forest : Forest) (node : NodeRef) : List NodeRef :=
  (List.range (Forest.tree forest node).items.size).map fun index => .plain node.tree index

structure Setting where
  stylesheet : Stylesheet
  parameters : List (String × String)
  document : String → Option XPath.Tree
  source : NodeRef

namespace Setting

def start (setting : Setting) : Context :=
  ⟨setting.source, 1, 1, setting.source, [], []⟩

def library (setting : Setting) (valueOf : String → Eval Value)
    (keyed : NodeRef → String → String → Eval (List NodeRef)) : Library :=
  ⟨valueOf, keyed, setting.document, setting.stylesheet.tree.uri, setting.stylesheet.formats,
    fun name => knownElements.any fun known => XPath.inTransformSpace known == name⟩
where
  knownElements : List String :=
    ["apply-imports", "apply-templates", "attribute", "call-template", "choose", "comment", "copy",
     "copy-of", "element", "fallback", "for-each", "if", "message", "number", "param",
     "processing-instruction", "text", "value-of", "variable"]

end Setting

abbrev Given := List (String × Value)

mutual
def globalValue (setting : Setting) : Nat → String → Eval Value
  | 0, _ => XPath.fail .endlessRecursion
  | fuel + 1, name => do
      let session ← get
      match session.globals.lookup name with
      | some value => return value
      | none =>
          if session.pending.contains name then XPath.fail (.circular name)
          match setting.stylesheet.globals.reverse.find? (·.name == name) with
          | none => XPath.fail (.unknownVariable name)
          | some found => do
              set { session with pending := name :: session.pending }
              let given := if found.isParameter then
                  (setting.parameters.lookup name).map Value.text else none
              let value ← match given with
                | some value => pure value
                | none => boundValue setting fuel setting.start found.select found.content
              modify fun session => { session with
                globals := (name, value) :: session.globals
                pending := session.pending.erase name }
              return value

def keyedNodes (setting : Setting) : Nat → NodeRef → String → String → Eval (List NodeRef)
  | 0, _, _, _ => XPath.fail .endlessRecursion
  | fuel + 1, node, name, value => do
      let library := setting.library (globalValue setting fuel) (keyedNodes setting fuel)
      let keys := setting.stylesheet.keys.filter (·.name == name)
      let candidates := keyCandidates (← get).forest node
      let found ← keys.mapM fun key => candidates.filterM fun candidate => do
        let context := { setting.start with node := candidate, current := candidate }
        if ← key.pattern.accepts library context candidate then
          let used ← queryValue library context key.use
          return (XPath.keyValues (← get).forest used).contains value
        else return false
      return XPath.inDocumentOrder found.flatten

def boundValue (setting : Setting) :
    Nat → Context → Option Query → List Instruction → Eval Value
  | 0, _, _, _ => XPath.fail .endlessRecursion
  | fuel + 1, context, select, content => do
      match select with
      | some query =>
          let library := setting.library (globalValue setting fuel) (keyedNodes setting fuel)
          queryValue library context query
      | none =>
          if content.isEmpty then return .text ""
          else addFragment (← runAll setting fuel context [] content)

def argumentValues (setting : Setting) : Nat → Context →
    List (String × Option Query × List Instruction) → Eval Given
  | 0, _, _ => XPath.fail .endlessRecursion
  | _, _, [] => pure []
  | fuel + 1, context, (name, select, content) :: rest => do
      let value ← boundValue setting fuel context select content
      return (name, value) :: (← argumentValues setting fuel context rest)

def runAll (setting : Setting) : Nat → Context → Given → List Instruction → Eval (List Piece)
  -- The pieces of a content. A declaration is seen by what follows it.
  | 0, _, _, _ => XPath.fail .endlessRecursion
  | _, _, _, [] => pure []
  | fuel + 1, context, given, .declare isParameter name select content :: rest => do
      if (context.locals.lookup name).isSome then XPath.fail (.repeatedVariable name)
      let value ← match if isParameter then given.lookup name else none with
        | some value => pure value
        | none => boundValue setting fuel context select content
      runAll setting fuel { context with locals := (name, value) :: context.locals } given rest
  | fuel + 1, context, given, first :: rest => do
      let pieces ← run setting fuel context first
      return pieces ++ (← runAll setting fuel context given rest)

def run (setting : Setting) : Nat → Context → Instruction → Eval (List Piece)
  | 0, _, _ => XPath.fail .endlessRecursion
  | fuel + 1, context, instruction => do
      let library := setting.library (globalValue setting fuel) (keyedNodes setting fuel)
      let content (inner : List Instruction) : Eval (List Piece) :=
        runAll setting fuel context [] inner
      let contentText (inner : List Instruction) : Eval String := do
        return Node.contentValue (nodesOf (← content inner))
      match instruction with
      | .text content => return Piece.text content
      | .literal name declared attributes inner => do
          let given ← attributes.mapM fun (name, template) => do
            return Piece.attribution ⟨name, ← templateText library context template⟩
          buildElement name declared (given ++ (← content inner))
      | .element name uri inner => do
          let uri ← uri.mapM (templateText library context)
          let written ← templateText library context name
          let name ← computedName false name.scope written uri
          let pieces ← content inner
          buildElement name (withPrefixes [] [name]) pieces
      | .attribution name uri inner => do
          let uri ← uri.mapM (templateText library context)
          let written ← templateText library context name
          let name ← computedName true name.scope written uri
          return [.attribution ⟨name, ← contentText inner⟩]
      | .comment inner => return [.node (.comment (← contentText inner))]
      | .processing target inner => do
          let target ← templateText library context target
          return [.node (.instruction target (← contentText inner))]
      | .valueOf select => return Piece.text (← queryText library context select)
      | .copyOf select => do
          let value ← queryValue library context select
          let forest := (← get).forest
          match value.asNodes? with
          | some found => return found.flatMap (copyOfNode forest)
          | none => return Piece.text (value.toText forest)
      | .copy inner => do
          let forest := (← get).forest
          let item := Forest.item forest context.node
          match item.kind with
          | .element => buildElement item.name item.scope.reverse (← content inner)
          | .root => content inner
          | _ => return copyOfNode forest context.node
      | .number value => do
          match value with
          | some query => do
              let value ← queryValue library context query
              let number := XPath.Number.round (value.toNumber (← get).forest)
              return Piece.text (XPath.Number.write number)
          | none => do
              let forest := (← get).forest
              let name := (Forest.item forest context.node).name
              let before := (Forest.precedingSiblings forest context.node).filter fun node =>
                Forest.isElement forest node && (Forest.item forest node).name.same name
              return Piece.text (toString (before.length + 1))
      | .applyTemplates select mode sorts arguments => do
          let given ← argumentValues setting fuel context arguments
          let nodes ← match select with
            | none => pure ((Forest.children (← get).forest context.node))
            | some query => match ← queryValue library context query with
              | .nodes found => pure found
              | _ => XPath.fail .notANodeSet
          let nodes ← sortNodes library context sorts nodes
          applyRules setting fuel context mode given nodes.length 1 nodes
      | .callTemplate name arguments => do
          match setting.stylesheet.named.lookup name with
          | none => XPath.fail (.unknownTemplate name)
          | some body => do
              let given ← argumentValues setting fuel context arguments
              runAll setting fuel { context with locals := [] } given body
      | .forEach select sorts inner => do
          match ← queryValue library context select with
          | .nodes found => do
              let nodes ← sortNodes library context sorts found
              forEachNode setting fuel context inner nodes.length 1 nodes
          | _ => XPath.fail .notANodeSet
      | .choose branches otherwise => chooseBranch setting fuel context otherwise branches
      | .declare .. => return []
      | .message isFinal inner => do
          let text ← contentText inner
          modify fun session => { session with messages := text :: session.messages }
          if isFinal then XPath.fail .terminated
          return []
      | .unknown name => XPath.fail (.unknownInstruction name)

def chooseBranch (setting : Setting) :
    Nat → Context → List Instruction → List (Query × List Instruction) → Eval (List Piece)
  | 0, _, _, _ => XPath.fail .endlessRecursion
  | fuel + 1, context, otherwise, [] => runAll setting fuel context [] otherwise
  | fuel + 1, context, otherwise, (test, inner) :: rest => do
      let library := setting.library (globalValue setting fuel) (keyedNodes setting fuel)
      if (← queryValue library context test).toTruth then runAll setting fuel context [] inner
      else chooseBranch setting fuel context otherwise rest

def forEachNode (setting : Setting) : Nat → Context → List Instruction → Nat → Nat →
    List NodeRef → Eval (List Piece)
  | 0, _, _, _, _, _ => XPath.fail .endlessRecursion
  | _, _, _, _, _, [] => pure []
  | fuel + 1, context, inner, size, position, node :: rest => do
      let pieces ← runAll setting fuel { context with node, position, size } [] inner
      return pieces ++ (← forEachNode setting fuel context inner size (position + 1) rest)

def applyRules (setting : Setting) : Nat → Context → String → Given → Nat → Nat →
    List NodeRef → Eval (List Piece)
  -- Every node gets its strongest rule, or else its children or its text are taken.
  | 0, _, _, _, _, _, _ => XPath.fail .endlessRecursion
  | _, _, _, _, _, _, [] => pure []
  | fuel + 1, context, mode, given, size, position, node :: rest => do
      let library := setting.library (globalValue setting fuel) (keyedNodes setting fuel)
      let context := { context with node, position, size, locals := [] }
      let pieces ← match ← findRule library context mode node setting.stylesheet.rules with
        | some rule => runAll setting fuel context given rule.body
        | none => do
            let forest := (← get).forest
            match (Forest.item forest node).kind with
            | .root | .element =>
                let children := Forest.children forest node
                applyRules setting fuel context mode [] children.length 1 children
            | .text | .attribution | .reference =>
                pure (Piece.text (Forest.stringValue forest node))
            | _ => pure []
      return pieces ++ (← applyRules setting fuel context mode given size (position + 1) rest)
end

structure Outcome where
  result : Except Fault (List Node)
  messages : List String

def repeatedGlobal? : List Global → Option String
  -- Two variables of one name clash; a parameter gives way to what is declared after it.
  | [] => none
  | first :: rest =>
      if !first.isParameter && rest.any (·.name == first.name) then some first.name
      else repeatedGlobal? rest

def Stylesheet.apply (stylesheet : Stylesheet) (parameters : List (String × String))
    (document : String → Option XPath.Tree) (source : XPath.Tree) : Outcome :=
  let setting : Setting := ⟨stylesheet, parameters, document, .plain 1 0⟩
  let forest : Forest := #[stylesheet.tree, source]
  let session : Session := ⟨forest, [(stylesheet.tree.uri, 0)], [], [], []⟩
  let program : Eval (List Piece) := do
    if let some name := repeatedGlobal? stylesheet.globals then XPath.fail (.repeatedVariable name)
    for found in stylesheet.globals do
      let _ ← globalValue setting nestingLimit found.name
    applyRules setting nestingLimit setting.start "" [] 1 1 [setting.source]
  let (result, session) := program.run session
  ⟨result.map nodesOf, session.messages.reverse⟩

end Schematron.Transform
