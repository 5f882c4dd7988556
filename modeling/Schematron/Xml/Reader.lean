import Schematron.Xml.Doctype
import Schematron.Location.Uri
import Schematron.Text.Encoding

/-! Reading documents: one pass over the characters with a stack of open elements. A document that
is not well-formed, or not namespace-well-formed, reads as nothing. -/

namespace Schematron.Xml

structure Frame where
  name : Name
  written : String
  declared : List Binding
  scope : List Binding
  attributes : List Attribute
  children : List Node

namespace Frame

def push (frame : Frame) (node : Node) : Frame :=
  match node, frame.children with
  | .text more, .text content :: rest => { frame with children := .text (content ++ more) :: rest }
  | .text more, _ => if more.isEmpty then frame
      else { frame with children := node :: frame.children }
  | _, _ => { frame with children := node :: frame.children }

def close (frame : Frame) : Node :=
  .element frame.name frame.declared frame.attributes frame.children.reverse

end Frame

def writtenName (name : Option String × String) : String :=
  match name.1 with
  | some pre => pre ++ ":" ++ name.2
  | none => name.2

def declaredPrefix? (name : Option String × String) : Option String :=
  match name with
  | (none, "xmlns") => some ""
  | (some "xmlns", pre) => some pre
  | _ => none

def Dialect.allowsBinding (dialect : Dialect) (pre uri : String) : Bool :=
  if pre == "xmlns" then false
  else if pre == "xml" then uri == xmlNamespace
  else if uri == xmlNamespace || uri == xmlnsNamespace then false
  else if uri.isEmpty then pre.isEmpty
  else dialect.namespaceName uri

def lookupPrefix (scope : List Binding) (pre : String) : Option String :=
  if pre == "xml" then some xmlNamespace
  else match scope.find? (·.pre == pre) with
    | some binding => if binding.uri.isEmpty then none else some binding.uri
    | none => none

def elementName (scope : List Binding) (name : Option String × String) : Option Name :=
  match name with
  | (none, localPart) => some ⟨none, localPart, (lookupPrefix scope "").getD ""⟩
  | (some pre, localPart) => (lookupPrefix scope pre).map fun uri => ⟨some pre, localPart, uri⟩

def attributeName (scope : List Binding) (name : Option String × String) : Option Name :=
  match name with
  | (none, localPart) => some ⟨none, localPart, ""⟩
  | (some pre, localPart) => (lookupPrefix scope pre).map fun uri => ⟨some pre, localPart, uri⟩

def startTagTail (dialect : Dialect) (doctype : Doctype) (element : String) :
    Nat → List ((Option String × String) × String) → List Char →
    Option ((List ((Option String × String) × String) × Bool) × List Char)
  | 0, _, _ => none
  | fuel + 1, found, rest =>
      match skipBlanks rest with
      | '>' :: rest => some ((found.reverse, false), rest)
      | '/' :: '>' :: rest => some ((found.reverse, true), rest)
      | _ => do
          let (name, rest) ← dialect.qualifiedName (← requireBlank rest)
          let rest ← expect "=" (skipBlanks rest)
          let (content, rest) ← quoted (skipBlanks rest)
          let isTokenized := match doctype.rule? element (writtenName name) with
            | some rule => rule.isTokenized
            | none => false
          let value ← attributeValue dialect doctype isTokenized content
          startTagTail dialect doctype element fuel ((name, value) :: found) rest

def splitWritten (written : String) : Option String × String :=
  match Text.splitString ':' written with
  | [pre, localPart] => (some pre, localPart)
  | _ => (none, written)

def hasRepeats {α : Type} (same : α → α → Bool) : List α → Bool
  | [] => false
  | item :: rest => rest.any (same item) || hasRepeats same rest

def suppliedValues (doctype : Doctype) (written : String)
    (found : List ((Option String × String) × String)) :
    List ((Option String × String) × String) :=
  let supplied := doctype.rules.filterMap fun rule =>
    if rule.element == written then rule.byDefault.map fun value =>
      (splitWritten rule.qualifiedName, value)
    else none
  supplied.filter fun item => !found.any (·.1 == item.1)

def declaredBindings (items : List ((Option String × String) × String)) : List Binding :=
  items.filterMap fun item => (declaredPrefix? item.1).map fun pre => ⟨pre, item.2⟩

def plainAttributes (scope : List Binding) (items : List ((Option String × String) × String)) :
    Option (List Attribute) :=
  (items.filter fun item => (declaredPrefix? item.1).isNone).mapM fun item =>
    (attributeName scope item.1).map fun name => ⟨name, item.2⟩

def openElement (dialect : Dialect) (doctype : Doctype) (scope : List Binding)
    (name : Option String × String) (found : List ((Option String × String) × String)) :
    Option Frame :=
  let supplied := suppliedValues doctype (writtenName name) found
  let declared := declaredBindings (found ++ supplied)
  let scope := declared ++ scope
  if hasRepeats (fun left right => left.1 == right.1) found then none
  else if !declared.all fun binding => dialect.allowsBinding binding.pre binding.uri then none
  else do
    let named ← elementName scope name
    let given ← plainAttributes scope found
    let defaulted ← plainAttributes scope supplied
    if hasRepeats (fun left right => left.name.same right.name) (given ++ defaulted) then none
    else
      let attributes := if dialect.addsDefaults then given ++ defaulted else given
      some ⟨named, writtenName name, declared, scope, attributes, []⟩

def startTag (dialect : Dialect) (doctype : Doctype) (scope : List Binding) (rest : List Char) :
    Option ((Frame × Bool) × List Char) := do
  let (name, rest) ← dialect.qualifiedName rest
  let ((found, isEmpty), rest) ←
    startTagTail dialect doctype (writtenName name) (rest.length + 1) [] rest
  let opened ← openElement dialect doctype scope name found
  some ((opened, isEmpty), rest)

/-- Reads content until the outermost open element closes, or to the end of a replacement text.
`expand` reads the replacement text of an entity in the scope of the reference. -/
def readContent (dialect : Dialect) (doctype : Doctype)
    (expand : List Binding → Nat → String → Option (List Node)) (isReplacement : Bool)
    (depth : Nat) : Nat → Frame → List Frame → List Char → Option (Node × List Char)
  | 0, _, _, _ => none
  | fuel + 1, frame, outer, rest =>
      let continueWith := readContent dialect doctype expand isReplacement depth fuel
      match rest with
      | [] => if isReplacement && outer.isEmpty then some (frame.close, []) else none
      | '<' :: '/' :: rest => do
          let (name, rest) ← dialect.qualifiedName rest
          let rest ← expect ">" (skipBlanks rest)
          if writtenName name == frame.written && !(isReplacement && outer.isEmpty) then
            match outer with
            | [] => some (frame.close, rest)
            | parent :: outer => continueWith (parent.push frame.close) outer rest
          else none
      | '<' :: '!' :: '-' :: '-' :: rest => do
          let (content, rest) ← commentContent rest
          continueWith (frame.push (.comment content)) outer rest
      | '<' :: '!' :: rest => do
          let rest ← expect "[CDATA[" rest
          let (content, rest) ← upTo "]]>" rest
          continueWith (frame.push (.text (String.ofList content))) outer rest
      | '<' :: '?' :: rest => do
          let ((target, content), rest) ← dialect.instructionContent rest
          continueWith (frame.push (.instruction target content)) outer rest
      | '<' :: rest => do
          let ((opened, isEmpty), rest) ← startTag dialect doctype frame.scope rest
          if dialect.isTooDeep (depth + outer.length + 2) then none
          else if isEmpty then continueWith (frame.push opened.close) outer rest
          else continueWith opened (frame :: outer) rest
      | '&' :: rest => do
          let (reference, rest) ← dialect.reference rest
          match reference with
          | .character char => continueWith (frame.push (.text (String.singleton char))) outer rest
          | .entity name =>
              match predefined? name with
              | some char => continueWith (frame.push (.text (String.singleton char))) outer rest
              | none =>
                  let content ← expand frame.scope (depth + outer.length + 1) name
                  continueWith (frame.push (.reference name content)) outer rest
      | _ =>
          let chars := rest.takeWhile fun char => char != '<' && char != '&'
          if Text.contains chars "]]>".toList then none
          else continueWith (frame.push (.text (String.ofList chars))) outer
            (rest.drop chars.length)

def expandEntity (dialect : Dialect) (doctype : Doctype) :
    Nat → List Binding → Nat → String → Option (List Node)
  -- The nodes that an entity stands for; `nesting` bounds entities within entities.
  | 0, _, _, _ => none
  | nesting + 1, scope, depth, name =>
      match doctype.entity? name with
      | some (.internal text) =>
          let frame : Frame := ⟨.bare "", "", [], scope, [], []⟩
          (readContent dialect doctype (expandEntity dialect doctype nesting) true depth
            (text.length + 1) frame [] text).map (·.1.children)
      | some .external => some []
      | none =>
          if doctype.mayMiss && dialect.keepsUnknownReferences then some [] else none

def readMisc (dialect : Dialect) : Nat → List Char → Option (List Node × List Char)
  | 0, _ => none
  | fuel + 1, rest =>
      match skipBlanks rest with
      | '<' :: '?' :: rest => do
          let ((target, content), rest) ← dialect.instructionContent rest
          let (nodes, rest) ← readMisc dialect fuel rest
          some (.instruction target content :: nodes, rest)
      | '<' :: '!' :: '-' :: '-' :: rest => do
          let (content, rest) ← commentContent rest
          let (nodes, rest) ← readMisc dialect fuel rest
          some (.comment content :: nodes, rest)
      | rest => some ([], rest)

def isEncodingName (chars : List Char) : Bool :=
  match chars with
  | first :: rest => isAsciiLetter first &&
      rest.all fun char => isAsciiLetter char || isAsciiDigit char || "._-".toList.contains char
  | [] => false

def Dialect.isVersion (dialect : Dialect) (chars : List Char) : Bool :=
  if dialect.numberedVersions then
    match chars with
    | '1' :: '.' :: rest => rest.all isAsciiDigit
    | _ => false
  else chars.all fun char => isAsciiLetter char || isAsciiDigit char || "._-".toList.contains char

def pseudoAttribute (name : String) (rest : List Char) : Option (List Char × List Char) := do
  let rest ← expect name (← requireBlank rest)
  let rest ← expect "=" (skipBlanks rest)
  quoted (skipBlanks rest)

structure Declaration where
  encoding : Option String
  isStandalone : Bool

def Dialect.holdsEncoding (dialect : Dialect) (name : List Char) : Bool :=
  -- Whether a reader has room for the name of an encoding, which it keeps with a null at its
  -- end.
  dialect.withinLimit ('\x00' :: name)

def declarationTail (dialect : Dialect) (rest : List Char) :
    Option (Declaration × List Char) := do
  let (encoding, rest) ← match pseudoAttribute "encoding" rest with
    | some (name, rest) =>
        if isEncodingName name && dialect.holdsEncoding name then
          some (some (String.ofList name), rest)
        else none
    | none => some (none, rest)
  let (isStandalone, rest) ← match pseudoAttribute "standalone" rest with
    | some (['y', 'e', 's'], rest) => some (true, rest)
    | some (['n', 'o'], rest) => some (false, rest)
    | some _ => none
    | none => some (false, rest)
  some (⟨encoding, isStandalone⟩, ← expect "?>" (skipBlanks rest))

def declaration (dialect : Dialect) (rest : List Char) : Option (Declaration × List Char) := do
  let (version, rest) ← pseudoAttribute "version" rest
  if dialect.isVersion version then declarationTail dialect rest else none

def leadingDeclaration (dialect : Dialect) (rest : List Char) : Option (Declaration × List Char) :=
  match expect "<?xml" rest with
  | some (char :: tail) =>
      if isBlank char then declaration dialect (char :: tail) else some (⟨none, false⟩, rest)
  | _ => some (⟨none, false⟩, rest)

structure Parsed where
  document : Document
  doctype : Doctype

def readDoctype (dialect : Dialect) (isStandalone : Bool) (rest : List Char) :
    Option ((Doctype × List Node) × List Char) :=
  match expect "<!DOCTYPE" rest with
  | some rest => do
      let (doctype, rest) ← doctypeDeclaration dialect isStandalone rest
      let (between, rest) ← readMisc dialect (rest.length + 1) rest
      some ((doctype, between), rest)
  | none => some ((Doctype.empty, []), rest)

def readRoot (dialect : Dialect) (doctype : Doctype) (rest : List Char) :
    Option (Node × List Char) := do
  let ((opened, isEmpty), rest) ← startTag dialect doctype [] (← expect "<" rest)
  if isEmpty then some (opened.close, rest)
  else
    let expand := expandEntity dialect doctype (doctype.entities.length + 2)
    readContent dialect doctype expand false 0 (rest.length + 1) opened [] rest

def parseLines? (dialect : Dialect) (rest : List Char) : Option Parsed := do
  let (declared, rest) ← leadingDeclaration dialect rest
  let (before, rest) ← readMisc dialect (rest.length + 1) rest
  let ((doctype, between), rest) ← readDoctype dialect declared.isStandalone rest
  let (root, rest) ← readRoot dialect doctype rest
  let (after, rest) ← readMisc dialect (rest.length + 1) rest
  if rest.isEmpty then some ⟨⟨before ++ between ++ root :: after⟩, doctype⟩ else none

def parse? (dialect : Dialect) (chars : List Char) : Option Parsed :=
  let chars := match chars with
    | '\ufeff' :: rest => rest
    | _ => chars
  if chars.all isChar then parseLines? dialect (normalizeLines chars) else none

/-- The document that bytes are. An encoding that is given goes before the one that they declare. -/
def parseBytes? (dialect : Dialect) (encoding : Option String) (bytes : List UInt8) :
    Option Parsed :=
  (Text.ofDocumentBytes encoding bytes).bind (parse? dialect)

def Dialect.validating : Dialect where
  isNameStart := Schematron.Xml.isNameStart
  isNameChar := Schematron.Xml.isNameChar
  anyColons := true
  nameLimit := some 50000
  depthLimit := some 256
  numberedVersions := true
  declaresEntities := true
  readsPastParameters := true
  keepsUnknownReferences := true
  addsDefaults := false
  namespaceName := Uri.isReference

def Dialect.guarded : Dialect where
  isNameStart := isLetterNameStart
  isNameChar := isLetterNameChar
  anyColons := false
  nameLimit := none
  depthLimit := none
  numberedVersions := false
  declaresEntities := false
  readsPastParameters := false
  keepsUnknownReferences := false
  addsDefaults := true
  namespaceName := fun uri => !uri.toList.contains '\x7d'

end Schematron.Xml
