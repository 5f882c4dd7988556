import Schematron.XPath.Eval
import Schematron.XPath.Parser
import Schematron.Xml.Letter

/-! Patterns: paths read backwards, from a node that may match to what must stand above it. -/

namespace Schematron.XPath

open Schematron.Xml (Binding)

inductive PatternTest
  | element (uri localPart : String)
  | elementIn (uri : String)
  | anyElement
  | attribution (uri localPart : Option String)
  | instruction (target : Option String)
  | text
  | comment
  | anyNode
deriving DecidableEq, Repr

inductive PatternLink
  | parent
  | ancestor
deriving DecidableEq, Repr

inductive PathPattern
  | anywhere
  | root
  | identified (name : String)
  | keyed (name value : String)
  | step (above : PathPattern) (link : PatternLink) (test : PatternTest) (predicates : List Expr)

structure Alternative where
  path : PathPattern
  priority : Float

structure Pattern where
  alternatives : List Alternative
  scope : List Binding

inductive PatternFault
  | unreadable (source : String)
deriving Repr

namespace PatternTest

def accepts (test : PatternTest) (forest : Forest) (node : NodeRef) : Bool :=
  let item := Forest.item forest node
  node.space.isNone && match test with
    | element uri localPart => item.kind == .element && item.name.isIn uri localPart
    | elementIn uri => item.kind == .element && item.name.uri == uri
    | anyElement => item.kind == .element
    | attribution uri localPart =>
        item.kind == .attribution && (uri.map (item.name.uri == ·)).getD true &&
          (localPart.map (item.name.localPart == ·)).getD true
    | instruction target =>
        item.kind == .instruction && (target.map (item.name.localPart == ·)).getD true
    | text => item.kind == .text
    | comment => item.kind == .comment
    | anyNode => item.kind == .element || item.kind == .text || item.kind == .comment ||
        item.kind == .instruction

def defaultPriority : PatternTest → Float
  | element .. => 0.0
  | elementIn _ => -0.25
  | attribution _ (some _) => 0.0
  | attribution (some _) none => -0.25
  | instruction (some _) => 0.0
  | _ => -0.5

end PatternTest

namespace PathPattern

def isAnywhere : PathPattern → Bool
  | anywhere => true
  | _ => false

def defaultPriority : PathPattern → Float
  -- A single step without predicates has the priority of its test; any other path has one half.
  | root => -0.5
  | step anywhere _ test [] => test.defaultPriority
  | _ => 0.5

def rivals (forest : Forest) (test : PatternTest) (node : NodeRef) : List NodeRef :=
  match Forest.parent? forest node with
  | none => [node]
  | some parent =>
      let all := if Forest.isAttribution forest node then Forest.attributes forest parent
        else Forest.children forest parent
      all.filter (test.accepts forest)

mutual
def accepts (library : Library) (context : Context) : PathPattern → NodeRef → Eval Bool
  | anywhere, _ => pure true
  | root, node => pure (node.space.isNone && node.index == 0)
  | identified name, node => do
      pure (identifiedBy (← get).forest node [name] == [node])
  | keyed name value, node => do
      let name ← expandName context.scope (splitName name)
      return (← library.keyed node name value).contains node
  | step above link test predicates, node => do
      let forest := (← get).forest
      if !test.accepts forest node then return false
      let isKept ← if predicates.isEmpty then pure true
        else
          let kept ← selectAll library { context with current := node } predicates
            (rivals forest test node)
          pure (kept.contains node)
      if !isKept then return false
      if above.isAnywhere then return true
      match link with
      | .parent => match Forest.parent? forest node with
        | some parent => accepts library context above parent
        | none => pure false
      | .ancestor => acceptsSome library context above (Forest.ancestors forest node)

def acceptsSome (library : Library) (context : Context) (path : PathPattern) :
    List NodeRef → Eval Bool
  | [] => pure false
  | node :: rest => do
      if ← accepts library context path node then return true
      acceptsSome library context path rest
end

def scanName (rest : List Char) : Option (String × List Char) :=
  match skip rest with
  | char :: tail =>
      if Xml.isLetterNameStart char then
        let more := tail.takeWhile Xml.isLetterNameChar
        some (String.ofList (char :: more), tail.drop more.length)
      else none
  | [] => none

def closed (rest : List Char) : Option (List Char) :=
  match skip rest with
  | ')' :: rest => some rest
  | _ => none

def typeTest (isAttribute : Bool) (name : String) (rest : List Char) :
    Option (PatternTest × List Char) :=
  match name with
  | "processing-instruction" =>
      match closed rest with
      | some rest => some (.instruction none, rest)
      | none => do
          let (target, rest) ← quotedText (skip rest)
          some (.instruction (some target), ← closed rest)
  | "text" => (closed rest).map fun rest => (.text, rest)
  | "comment" => (closed rest).map fun rest => (.comment, rest)
  | "node" => (closed rest).map fun rest =>
      (if isAttribute then .attribution none none else .anyNode, rest)
  | _ => none

def prefixSpace? (scope : List Binding) (pre : String) : Option String :=
  if pre == "xml" then some Xml.xmlNamespace
  else (scope.find? (·.pre == pre)).map (·.uri)

def nameTest (scope : List Binding) (isAttribute : Bool) (token : Option String)
    (rest : List Char) : Option (PatternTest × List Char) := do
  let named (uri : String) (localPart : String) : PatternTest :=
    if isAttribute then .attribution (some uri) (some localPart) else .element uri localPart
  match token with
  | none =>
      match rest with
      | '*' :: rest => some (if isAttribute then .attribution none none else .anyElement, rest)
      | _ => none
  | some token =>
      match skip rest with
      | '(' :: rest => typeTest isAttribute token rest
      | ':' :: rest =>
          let uri ← prefixSpace? scope token
          match scanName rest with
          | some (localPart, rest) => some (named uri localPart, rest)
          | none => match skip rest with
            | '*' :: rest => some (if isAttribute then .attribution (some uri) none
                else .elementIn uri, rest)
            | _ => none
      | rest => some (named "" token, rest)

def predicateText : Nat → List Char → List Char → Option (List Char × List Char)
  | _, _, [] => none
  | level, found, char :: rest =>
      if char == ']' then
        match level with
        | 0 => some (found.reverse, rest)
        | level + 1 => predicateText level (char :: found) rest
      else if char == '[' then predicateText (level + 1) (char :: found) rest
      else if char == '"' || char == '\'' then quotedPart char level (char :: found) rest
      else predicateText level (char :: found) rest
where
  quotedPart (quote : Char) (level : Nat) (found : List Char) :
      List Char → Option (List Char × List Char)
    | [] => none
    | char :: rest =>
        if char == quote then predicateText level (char :: found) rest
        else quotedPart quote level (char :: found) rest

mutual
def hasVariable : Expr → Bool
  | .disjunction left right | .conjunction left right | .equality _ left right
  | .order _ left right | .arithmetic _ left right | .union left right =>
      hasVariable left || hasVariable right
  | .negation operand | .asNumber operand => hasVariable operand
  | .valueOf _ => true
  | .call _ arguments => haveVariable arguments
  | .step input _ _ predicates => hasVariable input || haveVariable predicates
  | .filter input predicate => hasVariable input || hasVariable predicate
  | .literal _ | .number _ | .root | .here => false

def haveVariable : List Expr → Bool
  | [] => false
  | first :: rest => hasVariable first || haveVariable rest
end

def predicatesPart : Nat → List Char → Option (List Expr × List Char)
  | 0, _ => none
  | fuel + 1, rest =>
      match rest with
      | '[' :: rest => do
          let (content, rest) ← predicateText 0 [] rest
          let predicate ← Expr.parse? (String.ofList content)
          if hasVariable predicate then none
          let (others, rest) ← predicatesPart fuel (skip rest)
          some (predicate :: others, rest)
      | _ => some ([], rest)

def axisPart (token : Option String) (rest : List Char) :
    Option ((Bool × Option String) × List Char) :=
  match token, skip rest with
  | none, '@' :: rest =>
      match scanName rest with
      | some (name, rest) =>
          match skip rest with
          | ':' :: ':' :: _ => none
          | _ => some ((true, some name), rest)
      | none => some ((true, none), skip rest)
  | _, _ => do
      let (token, rest) ← match token with
        | some token => some (some token, rest)
        | none => match scanName rest with
          | some (name, rest) => some (some name, rest)
          | none => some (none, skip rest)
      match token, skip rest with
      | some name, ':' :: ':' :: rest =>
          let isAttribute ← if name == "child" then some false
            else if name == "attribute" then some true else none
          match scanName rest with
          | some (name, rest) => some ((isAttribute, some name), rest)
          | none => some ((isAttribute, none), skip rest)
      | _, _ => some ((false, token), rest)

def stepPart (scope : List Binding) (above : PathPattern) (link : PatternLink)
    (token : Option String) (rest : List Char) : Option (PathPattern × List Char) := do
  let ((isAttribute, token), rest) ← axisPart token rest
  let (test, rest) ← nameTest scope isAttribute token rest
  let rest := skip rest
  let (predicates, rest) ← predicatesPart (rest.length + 1) rest
  some (.step above link test predicates, rest)

def stepsPart (scope : List Binding) : Nat → PathPattern → List Char → Option PathPattern
  | 0, _, _ => none
  | fuel + 1, path, rest =>
      match skip rest with
      | [] => some path
      | '/' :: '/' :: rest => do
          let (path, rest) ← stepPart scope path .ancestor none rest
          stepsPart scope fuel path rest
      | '/' :: rest => do
          let (path, rest) ← stepPart scope path .parent none rest
          stepsPart scope fuel path rest
      | _ => none

def relativePart (scope : List Binding) (above : PathPattern) (link : PatternLink)
    (token : Option String) (rest : List Char) : Option PathPattern := do
  let (path, rest) ← stepPart scope above link token rest
  stepsPart scope (rest.length + 1) path rest

def callPart (name : String) (rest : List Char) : Option (PathPattern × List Char) := do
  let (first, rest) ← quotedText (skip rest)
  match name, skip rest with
  | "id", ')' :: rest => some (.identified first, rest)
  | "key", ',' :: rest =>
      let (second, rest) ← quotedText (skip rest)
      some (.keyed first second, ← closed rest)
  | _, _ => none

def ofChars? (scope : List Binding) (chars : List Char) : Option PathPattern :=
  match skip chars with
  | '/' :: '/' :: rest => relativePart scope .anywhere .parent none rest
  | '/' :: rest =>
      match skip rest with
      | [] => some .root
      | rest => relativePart scope .root .parent none rest
  | '*' :: rest => relativePart scope .anywhere .parent none ('*' :: rest)
  | '@' :: rest => relativePart scope .anywhere .parent none ('@' :: rest)
  | rest => do
      let (name, rest) ← scanName rest
      match skip rest with
      | '(' :: inner =>
          if (NodeTest.ofType? name).isSome then
            relativePart scope .anywhere .parent (some name) rest
          else
            let (path, rest) ← callPart name inner
            match rest with
            | '/' :: '/' :: rest => relativePart scope path .ancestor none rest
            | '/' :: rest => relativePart scope path .parent none rest
            | _ => some path
      | _ => relativePart scope .anywhere .parent (some name) rest

def startsAnywhere (chars : List Char) : Bool :=
  match skip chars with
  | '/' :: '/' :: _ => true
  | _ => false

end PathPattern

namespace Pattern

def splitAlternatives : Nat → List Char → List Char → List (List Char)
  | _, found, [] => [found.reverse]
  | level, found, char :: rest =>
      if char == '|' && level == 0 then found.reverse :: splitAlternatives 0 [] rest
      else if char == '[' then splitAlternatives (level + 1) (char :: found) rest
      else if char == ']' then splitAlternatives (level - 1) (char :: found) rest
      else if char == '"' || char == '\'' then quotedPart char level (char :: found) rest
      else splitAlternatives level (char :: found) rest
where
  quotedPart (quote : Char) (level : Nat) (found : List Char) : List Char → List (List Char)
    | [] => [found.reverse]
    | char :: rest =>
        if char == quote then splitAlternatives level (char :: found) rest
        else quotedPart quote level (char :: found) rest

def alternative (scope : List Binding) (chars : List Char) : Except PatternFault Alternative :=
  match PathPattern.ofChars? scope chars with
  | none => .error (.unreadable (String.ofList chars))
  | some path =>
      .ok ⟨path, if PathPattern.startsAnywhere chars then 0.5 else path.defaultPriority⟩

def readAlternatives (scope : List Binding) :
    List Alternative → List (List Char) → Except PatternFault (List Alternative)
  | found, [] => .ok found.reverse
  | found, [last] =>
      if last.isEmpty && !found.isEmpty then .ok found.reverse
      else if (skip last).isEmpty then .ok []
      else (alternative scope last).map fun next => (next :: found).reverse
  | found, first :: rest =>
      if (skip first).isEmpty then .ok []
      else do readAlternatives scope ((← alternative scope first) :: found) rest

def parse (scope : List Binding) (source : String) : Except PatternFault Pattern := do
  if source.isEmpty then .error (.unreadable source)
  let found ← readAlternatives scope [] (splitAlternatives 0 [] source.toList)
  return ⟨found, scope⟩

def acceptsOne (library : Library) (context : Context) (node : NodeRef) :
    List Alternative → Eval Bool
  | [] => pure false
  | first :: rest => do
      if ← first.path.accepts library context node then return true
      acceptsOne library context node rest

def accepts (library : Library) (pattern : Pattern) (context : Context) (node : NodeRef) :
    Eval Bool :=
  acceptsOne library { context with scope := pattern.scope, locals := [] } node pattern.alternatives

end Pattern

end Schematron.XPath
