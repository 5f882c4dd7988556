import Schematron.Xml.Scan

/-! Document type declarations: the entities they declare and the attribute values they supply. -/

namespace Schematron.Xml

inductive Entity
  | internal (replacement : List Char)
  | external
deriving Repr

structure AttributeRule where
  element : String
  qualifiedName : String
  isTokenized : Bool
  isIdentifier : Bool
  byDefault : Option String
deriving Repr

structure Doctype where
  entities : List (String × Entity)
  parameters : List (String × Entity)
  rules : List AttributeRule
  -- Some declarations may stand where no reader has looked.
  mayMiss : Bool
  -- Declarations are checked but no longer recorded.
  ignoring : Bool
deriving Repr

namespace Doctype

def empty : Doctype := ⟨[], [], [], false, false⟩

def entity? (doctype : Doctype) (name : String) : Option Entity := doctype.entities.lookup name

def rule? (doctype : Doctype) (element qualifiedName : String) : Option AttributeRule :=
  doctype.rules.find? fun rule => rule.element == element && rule.qualifiedName == qualifiedName

def identifies (doctype : Doctype) (element qualifiedName : String) : Bool :=
  match doctype.rule? element qualifiedName with
  | some rule => rule.isIdentifier
  | none => false

def addRule (doctype : Doctype) (rule : AttributeRule) : Doctype :=
  if (doctype.rule? rule.element rule.qualifiedName).isSome then doctype
  else { doctype with rules := doctype.rules ++ [rule] }

def valueOf (doctype : Doctype) (name : String) : Option (List Char) :=
  -- The replacement of an entity inside an attribute value: none is an error, an empty text
  -- stands for an entity that may be declared elsewhere.
  match doctype.entity? name with
  | some (.internal replacement) => some replacement
  | some .external => none
  | none => if doctype.mayMiss then some [] else none

end Doctype

def expandValue (dialect : Dialect) (expand : String → Option (List Char)) :
    Nat → List Char → Option (List Char)
  | 0, _ => none
  | _, [] => some []
  | _, '<' :: _ => none
  | fuel + 1, '&' :: rest => do
      let (reference, rest) ← dialect.reference rest
      let head ← match reference with
        | .character char => some [char]
        | .entity name => match predefined? name with
            | some char => some [char]
            | none => expand name
      let tail ← expandValue dialect expand fuel rest
      some (head ++ tail)
  | fuel + 1, char :: rest => do
      let tail ← expandValue dialect expand fuel rest
      some ((if isBlank char then ' ' else char) :: tail)

def attributeText (dialect : Dialect) (doctype : Doctype) : Nat → List Char → Option (List Char)
  -- The number `depth` bounds the nesting of entities; a deeper nesting is a cycle.
  | 0, _ => none
  | depth + 1, chars =>
      let expand (name : String) : Option (List Char) := do
        attributeText dialect doctype depth (← doctype.valueOf name)
      expandValue dialect expand (chars.length + 1) chars

def attributeValue (dialect : Dialect) (doctype : Doctype) (isTokenized : Bool)
    (chars : List Char) : Option String := do
  let value ← attributeText dialect doctype (doctype.entities.length + 2) chars
  let value := String.ofList value
  some (if isTokenized then
    " ".intercalate ((Text.splitString ' ' value).filter (!·.isEmpty)) else value)

def isPublicIdChar (char : Char) : Bool :=
  isAsciiLetter char || isAsciiDigit char || " \r\n-'()+,./:=?;!*#@$_%".toList.contains char

def systemLiteral (rest : List Char) : Option (List Char) := (quoted rest).map (·.2)

def publicLiteral (rest : List Char) : Option (List Char) := do
  let (content, rest) ← quoted rest
  if content.all isPublicIdChar then some rest else none

def externalIdentifier (systemOptional : Bool) (rest : List Char) : Option (List Char) :=
  match expect "SYSTEM" rest with
  | some rest => do systemLiteral (← requireBlank rest)
  | none => do
      let rest ← publicLiteral (← requireBlank (← expect "PUBLIC" rest))
      match requireBlank rest with
      | some after =>
          match systemLiteral after with
          | some after => some after
          | none => if systemOptional then some rest else none
      | none => if systemOptional then some rest else none

def startsExternal (rest : List Char) : Bool :=
  (expect "SYSTEM" rest).isSome || (expect "PUBLIC" rest).isSome

def skipOccurrence (rest : List Char) : List Char :=
  match rest with
  | char :: tail => if char == '?' || char == '*' || char == '+' then tail else rest
  | [] => []

mutual
def particle (dialect : Dialect) : Nat → List Char → Option (List Char)
  | 0, _ => none
  | fuel + 1, '(' :: rest => do
      let rest ← particle dialect fuel (skipBlanks rest)
      let rest ← siblings dialect fuel none (skipBlanks rest)
      some (skipOccurrence rest)
  | _ + 1, rest => do
      let (_, rest) ← dialect.name rest
      some (skipOccurrence rest)

def siblings (dialect : Dialect) : Nat → Option Char → List Char → Option (List Char)
  | 0, _, _ => none
  | fuel + 1, separator, rest =>
      match rest with
      | ')' :: rest => some rest
      | char :: rest =>
          if (char == ',' || char == '|') && (separator.isNone || separator == some char) then do
            let rest ← particle dialect fuel (skipBlanks rest)
            siblings dialect fuel (some char) (skipBlanks rest)
          else none
      | [] => none
end

def mixedTail (dialect : Dialect) : Nat → Bool → List Char → Option (List Char)
  | 0, _, _ => none
  | fuel + 1, isPlain, rest =>
      match skipBlanks rest with
      | ')' :: rest =>
          match rest with
          | '*' :: rest => some rest
          | _ => if isPlain then some rest else none
      | '|' :: rest => do
          let (_, rest) ← dialect.name (skipBlanks rest)
          mixedTail dialect fuel false rest
      | _ => none

def contentModel (dialect : Dialect) (rest : List Char) : Option (List Char) :=
  match expect "EMPTY" rest with
  | some rest => some rest
  | none => match expect "ANY" rest with
    | some rest => some rest
    | none => match rest with
      | '(' :: inner =>
          match expect "#PCDATA" (skipBlanks inner) with
          | some inner => mixedTail dialect (inner.length + 1) true inner
          | none => particle dialect (rest.length + 1) rest
      | _ => none

def enumeration (item : List Char → Option (String × List Char)) :
    Nat → List Char → Option (List Char)
  | 0, _ => none
  | fuel + 1, rest => do
      let (_, rest) ← item (skipBlanks rest)
      match skipBlanks rest with
      | ')' :: rest => some rest
      | '|' :: rest => enumeration item fuel rest
      | _ => none

def attributeType (dialect : Dialect) (rest : List Char) : Option ((Bool × Bool) × List Char) :=
  let keyword (word : String) (isTokenized isIdentifier : Bool) :=
    (expect word rest).map fun rest => ((isTokenized, isIdentifier), rest)
  match rest with
  | '(' :: rest => do
      let rest ← enumeration dialect.token (rest.length + 1) rest
      some ((true, false), rest)
  | _ =>
      match expect "NOTATION" rest with
      | some rest => do
          let rest ← expect "(" (← requireBlank rest)
          let rest ← enumeration dialect.notationName (rest.length + 1) rest
          some ((true, false), rest)
      | none =>
          keyword "CDATA" false false <|> keyword "IDREFS" true false <|>
          keyword "IDREF" true false <|> keyword "ID" true true <|>
          keyword "ENTITY" true false <|> keyword "ENTITIES" true false <|>
          keyword "NMTOKENS" true false <|> keyword "NMTOKEN" true false

def attributeDefault (dialect : Dialect) (doctype : Doctype) (isTokenized : Bool)
    (rest : List Char) : Option (Option String × List Char) :=
  match expect "#REQUIRED" rest with
  | some rest => some (none, rest)
  | none => match expect "#IMPLIED" rest with
    | some rest => some (none, rest)
    | none => do
        let rest ← match expect "#FIXED" rest with
          | some rest => requireBlank rest
          | none => some rest
        let (content, rest) ← quoted rest
        let value ← attributeValue dialect doctype isTokenized content
        some (some value, rest)

def attributeList (dialect : Dialect) (element : String) :
    Nat → Doctype → List Char → Option (Doctype × List Char)
  | 0, _, _ => none
  | fuel + 1, doctype, rest =>
      match skipBlanks rest with
      | '>' :: rest => some (doctype, rest)
      | _ => do
          let (name, rest) ← dialect.name (← requireBlank rest)
          let ((isTokenized, isIdentifier), rest) ← attributeType dialect (← requireBlank rest)
          let (byDefault, rest) ←
            attributeDefault dialect doctype isTokenized (← requireBlank rest)
          let rule := ⟨element, name, isTokenized, isIdentifier, byDefault⟩
          let doctype := if doctype.ignoring then doctype else doctype.addRule rule
          attributeList dialect element fuel doctype rest

def entityText (dialect : Dialect) : Nat → List Char → Option (List Char)
  -- The text of an entity: numeric references are read now, entity references later.
  | 0, _ => none
  | _, [] => some []
  | _, '%' :: _ => none
  | fuel + 1, '&' :: rest => do
      let (reference, rest) ← dialect.reference rest
      let tail ← entityText dialect fuel rest
      match reference with
      | .character char => some (char :: tail)
      | .entity name => some ('&' :: (name.toList ++ ';' :: tail))
  | fuel + 1, char :: rest => do
      let tail ← entityText dialect fuel rest
      some (char :: tail)

def passNotation (dialect : Dialect) (isParameter : Bool) (rest : List Char) :
    Option (List Char) :=
  if isParameter then some rest
  else match requireBlank rest with
    | some after =>
        match expect "NDATA" after with
        | some after => (requireBlank after).bind fun rest => (dialect.notationName rest).map (·.2)
        | none => some after
    | none => some rest

def entityDefinition (dialect : Dialect) (isParameter : Bool) (rest : List Char) :
    Option (Entity × List Char) :=
  if startsExternal rest then do
    let rest ← externalIdentifier false rest
    let rest ← passNotation dialect isParameter rest
    some (.external, ← expect ">" (skipBlanks rest))
  else do
    let (content, rest) ← quoted rest
    let text ← entityText dialect (content.length + 1) content
    some (.internal text, ← expect ">" (skipBlanks rest))

def entityDeclaration (dialect : Dialect) (doctype : Doctype) (rest : List Char) :
    Option (Doctype × List Char) := do
  let rest ← requireBlank rest
  let (isParameter, rest) ← match rest with
    | '%' :: rest => (requireBlank rest).map fun rest => (true, rest)
    | _ => some (false, rest)
  let (name, rest) ← dialect.plainName rest
  let (entity, rest) ← entityDefinition dialect isParameter (← requireBlank rest)
  -- A predefined entity stays what it is.
  if doctype.ignoring || !isParameter && (predefined? name).isSome then some (doctype, rest)
  else if !dialect.declaresEntities then none
  else if isParameter then
    some ({ doctype with parameters := doctype.parameters ++ [(name, entity)] }, rest)
  else some ({ doctype with entities := doctype.entities ++ [(name, entity)] }, rest)

def commentContent (rest : List Char) : Option (String × List Char) := do
  let (content, rest) ← upTo "--" rest
  some (String.ofList content, ← expect ">" rest)

def Dialect.instructionContent (dialect : Dialect) (rest : List Char) :
    Option ((String × String) × List Char) := do
  let (target, rest) ← dialect.plainName rest
  if Text.lowerAscii target == "xml" then none
  else match expect "?>" rest with
    | some rest => some ((target, ""), rest)
    | none => do
        let rest ← requireBlank rest
        let (content, rest) ← upTo "?>" rest
        some ((target, String.ofList content), rest)

def parameterReference (dialect : Dialect) (isStandalone : Bool) (doctype : Doctype)
    (rest : List Char) : Option (Doctype × List Char) := do
  let (name, rest) ← dialect.plainName rest
  let rest ← expect ";" rest
  let doctype := { doctype with mayMiss := !isStandalone }
  if dialect.readsPastParameters then
    match doctype.parameters.lookup name with
    | some (.internal text) => some (doctype, ' ' :: (text ++ ' ' :: rest))
    | some .external => some (doctype, rest)
    | none => if isStandalone then none else some (doctype, rest)
  else some ({ doctype with ignoring := doctype.ignoring || !isStandalone }, rest)

def elementDeclaration (dialect : Dialect) (doctype : Doctype) (rest : List Char) :
    Option (Doctype × List Char) := do
  let (_, rest) ← dialect.name (← requireBlank rest)
  let rest ← contentModel dialect (← requireBlank rest)
  some (doctype, ← expect ">" (skipBlanks rest))

def attributeDeclaration (dialect : Dialect) (doctype : Doctype) (rest : List Char) :
    Option (Doctype × List Char) := do
  let (element, rest) ← dialect.name (← requireBlank rest)
  attributeList dialect element (rest.length + 1) doctype rest

def notationDeclaration (dialect : Dialect) (doctype : Doctype) (rest : List Char) :
    Option (Doctype × List Char) := do
  let (_, rest) ← dialect.plainName (← requireBlank rest)
  let rest ← externalIdentifier true (← requireBlank rest)
  some (doctype, ← expect ">" (skipBlanks rest))

def internalSubset (dialect : Dialect) (isStandalone : Bool) :
    Nat → Doctype → List Char → Option (Doctype × List Char)
  | 0, _, _ => none
  | fuel + 1, doctype, rest =>
      let continueWith (found : Option (Doctype × List Char)) :=
        found.bind fun (doctype, rest) => internalSubset dialect isStandalone fuel doctype rest
      match skipBlanks rest with
      | ']' :: rest => some (doctype, rest)
      | '%' :: rest => continueWith (parameterReference dialect isStandalone doctype rest)
      | '<' :: '?' :: rest =>
          continueWith ((dialect.instructionContent rest).map fun found => (doctype, found.2))
      | '<' :: '!' :: '-' :: '-' :: rest =>
          continueWith ((commentContent rest).map fun found => (doctype, found.2))
      | '<' :: '!' :: rest =>
          match expect "ELEMENT" rest with
          | some rest => continueWith (elementDeclaration dialect doctype rest)
          | none => match expect "ATTLIST" rest with
            | some rest => continueWith (attributeDeclaration dialect doctype rest)
            | none => match expect "ENTITY" rest with
              | some rest => continueWith (entityDeclaration dialect doctype rest)
              | none => match expect "NOTATION" rest with
                | some rest => continueWith (notationDeclaration dialect doctype rest)
                | none => none
      | _ => none

def doctypeEnd (dialect : Dialect) (isStandalone : Bool) (doctype : Doctype) (rest : List Char) :
    Option (Doctype × List Char) :=
  match rest with
  | '[' :: rest => do
      let (doctype, rest) ←
        internalSubset dialect isStandalone (16 * rest.length + 4096) doctype rest
      some (doctype, ← expect ">" (skipBlanks rest))
  | _ => (expect ">" rest).map fun rest => (doctype, rest)

def doctypeDeclaration (dialect : Dialect) (isStandalone : Bool) (rest : List Char) :
    Option (Doctype × List Char) := do
  let (_, rest) ← dialect.name (← requireBlank rest)
  let rest := skipBlanks rest
  if startsExternal rest then
    let rest ← externalIdentifier false rest
    let doctype := { Doctype.empty with mayMiss := !isStandalone }
    doctypeEnd dialect isStandalone doctype (skipBlanks rest)
  else doctypeEnd dialect isStandalone Doctype.empty rest

end Schematron.Xml
