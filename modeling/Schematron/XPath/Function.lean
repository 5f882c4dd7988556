import Schematron.Location.Uri
import Schematron.XPath.Session

/-! The functions of the path language and those that stylesheets add to it. -/

namespace Schematron.XPath

open Schematron.Xml (Binding)

def arity? (name : String) : Option (Nat × Option Nat) :=
  match name with
  | "last" | "position" | "true" | "false" | "current" => some (0, some 0)
  | "count" | "id" | "not" | "boolean" | "sum" | "floor" | "ceiling" | "round" | "lang"
  | "system-property" | "element-available" | "function-available" | "unparsed-entity-uri" =>
      some (1, some 1)
  | "local-name" | "namespace-uri" | "name" | "string" | "string-length" | "normalize-space"
  | "number" | "generate-id" => some (0, some 1)
  | "starts-with" | "contains" | "substring-before" | "substring-after" | "key" => some (2, some 2)
  | "translate" => some (3, some 3)
  | "substring" | "format-number" => some (2, some 3)
  | "document" => some (1, some 2)
  | "concat" => some (2, none)
  | _ => none

def resolvePrefix (scope : List Binding) (pre : String) : Eval String :=
  if pre == "xml" then pure Xml.xmlNamespace
  else match scope.find? (·.pre == pre) with
    | some binding => if binding.uri.isEmpty then fail (.unknownPrefix pre) else pure binding.uri
    | none => fail (.unknownPrefix pre)

def expandName (scope : List Binding) (name : WrittenName) : Eval String := do
  match name.pre with
  | none => pure name.localPart
  | some pre => pure ("\x7b" ++ (← resolvePrefix scope pre) ++ "\x7d" ++ name.localPart)

def splitName (source : String) : WrittenName :=
  match Text.splitString ':' source with
  | [pre, localPart] => ⟨some pre, localPart⟩
  | _ => ⟨none, source⟩

def transformSpace : String := "http://www.w3.org/1999/XSL/Transform"

def inTransformSpace (localPart : String) : String :=
  "\x7b" ++ transformSpace ++ "\x7d" ++ localPart

def loadDocument (library : Library) (address : String) : Eval (List NodeRef) := do
  -- Every tree is loaded once.
  let session ← get
  match session.loaded.lookup address with
  | some tree => pure [.plain tree 0]
  | none =>
      match library.document address with
      | none => fail (.unreadableDocument address)
      | some tree =>
          let index := session.forest.size
          set { session with forest := session.forest.push tree,
                             loaded := (address, index) :: session.loaded }
          pure [.plain index 0]

def documentsOf (library : Library) (base : Option NodeRef) (value : Value) :
    Eval (List NodeRef) := do
  let forest := (← get).forest
  let addressOf (node : NodeRef) : String := (Forest.tree forest node).uri
  match value with
  | .nodes found =>
      let loaded ← found.mapM fun node =>
        loadDocument library
          (Uri.resolve (Forest.stringValue forest node) (addressOf (base.getD node)))
      pure (inDocumentOrder loaded.flatten)
  | value =>
      let address := match base with
        | some node => addressOf node
        | none => library.stylesheetAddress
      loadDocument library (Uri.resolve (value.toText forest) address)

def identifiedBy (forest : Forest) (node : NodeRef) (texts : List String) : List NodeRef :=
  let tree := Forest.tree forest node
  let names := texts.flatMap fun text => (Text.wordsBy Xml.isBlank text.toList).map String.ofList
  inDocumentOrder (names.filterMap fun name =>
    (tree.identified.lookup name).map fun index => .plain node.tree index)

def hasLanguage (forest : Forest) (node : NodeRef) (wanted : String) : Bool :=
  let marks := (node :: Forest.ancestors forest node).filterMap fun node =>
    ((Forest.attributes forest node).find? fun attribution =>
      (Forest.item forest attribution).name.isIn Xml.xmlNamespace "lang").map
        (Forest.stringValue forest)
  match marks with
  | [] => false
  | mark :: _ =>
      let mark := (Text.lowerAscii mark).toList
      let wanted := (Text.lowerAscii wanted).toList
      wanted.isPrefixOf mark && match mark.drop wanted.length with
        | [] => true
        | next :: _ => next == '-'

def translate (source wanted replacement : List Char) : List Char :=
  source.flatMap fun char =>
    match wanted.findIdx? (· == char) with
    | none => [char]
    | some index => match replacement[index]? with
      | some other => [other]
      | none => []

def substring (source : List Char) (start : Float) (length : Option Float) : List Char :=
  let (first, stop) := Number.window start length
  if first < stop then (source.drop (first - 1)).take (stop - first) else []

def nodeName (forest : Forest) (node : NodeRef) : Xml.Name :=
  match node.space with
  | some pre => .bare pre
  | none => (Forest.item forest node).name

def identity (node : NodeRef) : String :=
  "id" ++ toString node.tree ++ "n" ++ toString node.index ++ node.space.getD ""

def systemProperty (name : String) : String :=
  if name == inTransformSpace "version" then "1.0"
  else if name == inTransformSpace "vendor" then "libxslt"
  else if name == inTransformSpace "vendor-url" then "http://xmlsoft.org/XSLT/"
  else ""

def requireNodes (value : Value) : Eval (List NodeRef) :=
  match value.asNodes? with
  | some found => pure found
  | none => fail .wrongType

def keyValues (forest : Forest) (value : Value) : List String :=
  match value with
  | .nodes found => found.map (Forest.stringValue forest)
  | value => [value.toText forest]

def callPlain (library : Library) (context : Context) (name : String) (arguments : List Value) :
    Eval Value := do
  let forest := (← get).forest
  let text (value : Value) : String := value.toText forest
  let number (value : Value) : Float := value.toNumber forest
  let nodesOrHere : Eval (List NodeRef) := match arguments with
    | [] => pure [context.node]
    | value :: _ => requireNodes value
  let textOrHere : String := match arguments with
    | [] => Forest.stringValue forest context.node
    | value :: _ => text value
  match name, arguments with
  | "last", _ => pure (.number (Float.ofNat context.size))
  | "position", _ => pure (.number (Float.ofNat context.position))
  | "true", _ => pure (.truth true)
  | "false", _ => pure (.truth false)
  | "current", _ => pure (.nodes [context.current])
  | "not", [value] => pure (.truth (!value.toTruth))
  | "boolean", [value] => pure (.truth value.toTruth)
  | "count", [value] => return .number (Float.ofNat (← requireNodes value).length)
  | "sum", [value] =>
      let found ← requireNodes value
      pure (.number ((found.map fun node => Number.ofString (Forest.stringValue forest node)).foldl
        (· + ·) 0.0))
  | "id", [value] => pure (.nodes (identifiedBy forest context.node (keyValues forest value)))
  | "floor", [value] => pure (.number (number value).floor)
  | "ceiling", [value] => pure (.number (number value).ceil)
  | "round", [value] => pure (.number (Number.round (number value)))
  | "lang", [value] => pure (.truth (hasLanguage forest context.node (text value)))
  | "local-name", _ => return match ← nodesOrHere with
      | [] => .text ""
      | node :: _ => .text (nodeName forest node).localPart
  | "namespace-uri", _ => return match ← nodesOrHere with
      | [] => .text ""
      | node :: _ => .text (nodeName forest node).uri
  | "name", _ => return match ← nodesOrHere with
      | [] => .text ""
      | node :: _ => .text (nodeName forest node).qualified
  | "string", _ => pure (.text textOrHere)
  | "string-length", _ => pure (.number (Float.ofNat textOrHere.length))
  | "normalize-space", _ => pure (.text (Text.normalizeLayout textOrHere))
  | "number", [] => pure (.number (Number.ofString textOrHere))
  | "number", [value] => pure (.number (number value))
  | "generate-id", _ => return match ← nodesOrHere with
      | [] => .text ""
      | node :: _ => .text (identity node)
  | "concat", _ => pure (.text (String.join (arguments.map text)))
  | "starts-with", [whole, start] =>
      pure (.truth ((text start).toList.isPrefixOf (text whole).toList))
  | "contains", [whole, wanted] =>
      pure (.truth (Text.contains (text whole).toList (text wanted).toList))
  | "substring-before", [whole, wanted] =>
      pure (.text (match Text.breakOn? (text wanted).toList (text whole).toList with
        | some (before, _) => String.ofList before
        | none => ""))
  | "substring-after", [whole, wanted] =>
      pure (.text (match Text.breakOn? (text wanted).toList (text whole).toList with
        | some (_, after) => String.ofList after
        | none => ""))
  | "substring", [whole, start] =>
      pure (.text (String.ofList (substring (text whole).toList (number start) none)))
  | "substring", [whole, start, length] =>
      pure (.text (String.ofList
        (substring (text whole).toList (number start) (some (number length)))))
  | "translate", [whole, wanted, replacement] =>
      pure (.text (String.ofList
        (translate (text whole).toList (text wanted).toList (text replacement).toList)))
  | "key", [name, value] => do
      let name ← expandName context.scope (splitName (text name))
      let found ← (keyValues forest value).mapM fun value => library.keyed context.node name value
      pure (.nodes (inDocumentOrder found.flatten))
  | "document", value :: rest => do
      let base ← match rest with
        | [] => pure none
        | value :: _ => do pure (← requireNodes value).head?
      return .nodes (← documentsOf library base value)
  | "format-number", value :: picture :: rest => do
      let format ← match rest with
        | [] => pure ((library.formats.lookup "").getD .standard)
        | name :: _ => do
            let name ← expandName context.scope (splitName (text name))
            match library.formats.lookup name with
            | some format => pure format
            | none => fail (.unknownFormat name)
      pure (.text (format.write (text picture) (number value)))
  | "system-property", [value] => do
      return .text (systemProperty (← expandName context.scope (splitName (text value))))
  | "element-available", [value] => do
      let name ← expandName context.scope (splitName (text value))
      pure (.truth (library.knowsElement name))
  | "function-available", [value] => do
      let name ← expandName context.scope (splitName (text value))
      pure (.truth (arity? name).isSome)
  | "unparsed-entity-uri", _ => pure (.text "")
  | name, _ => fail (.wrongArity name)

def callFunction (library : Library) (context : Context) (name : WrittenName)
    (arguments : List Value) : Eval Value := do
  let name ← expandName context.scope name
  match arity? name with
  | none => fail (.unknownFunction name)
  | some (least, most) =>
      let count := arguments.length
      if count < least || (most.map fun most => decide (most < count)).getD false then
        fail (.wrongArity name)
      else callPlain library context name arguments

end Schematron.XPath
