/-! XML documents as trees, with the namespace declarations that each element makes. -/

namespace Schematron.Xml

structure Name where
  pre : Option String
  localPart : String
  uri : String
deriving DecidableEq, Repr, Inhabited

namespace Name

def bare (localPart : String) : Name := ⟨none, localPart, ""⟩

def qualified (name : Name) : String :=
  match name.pre with
  | some pre => pre ++ ":" ++ name.localPart
  | none => name.localPart

def expanded (name : Name) : String :=
  if name.uri.isEmpty then name.localPart else "\x7b" ++ name.uri ++ "\x7d" ++ name.localPart

def same (left right : Name) : Bool :=
  left.localPart == right.localPart && left.uri == right.uri

def isIn (name : Name) (uri localPart : String) : Bool :=
  name.localPart == localPart && name.uri == uri

end Name

structure Binding where
  pre : String
  uri : String
deriving DecidableEq, Repr, Inhabited

structure Attribute where
  name : Name
  value : String
deriving DecidableEq, Repr, Inhabited

inductive Node
  | element (name : Name) (declared : List Binding) (attributes : List Attribute)
      (children : List Node)
  | text (content : String)
  | comment (content : String)
  | instruction (target content : String)
  | reference (entity : String) (expansion : List Node)
deriving Repr, Inhabited

structure Document where
  nodes : List Node
deriving Repr, Inhabited

namespace Node

mutual
def stringValue : Node → String
  | element _ _ _ children => contentValue children
  | text content => content
  | comment _ => ""
  | instruction _ _ => ""
  | reference _ expansion => contentValue expansion

def contentValue : List Node → String
  | [] => ""
  | node :: rest => stringValue node ++ contentValue rest
end

mutual
def resolved : Node → List Node
  | element name declared attributes children =>
      [element name declared attributes (resolvedAll children)]
  | reference _ expansion => resolvedAll expansion
  | node => [node]

def resolvedAll : List Node → List Node
  | [] => []
  | node :: rest =>
      match resolved node, resolvedAll rest with
      | [text first], text second :: others => text (first ++ second) :: others
      | nodes, others => nodes ++ others
end

def isElement : Node → Bool
  | element .. => true
  | _ => false

def children : Node → List Node
  | element _ _ _ children => children
  | _ => []

def name? : Node → Option Name
  | element name .. => some name
  | _ => none

def attributes : Node → List Attribute
  | element _ _ attributes _ => attributes
  | _ => []

def isNamed (uri localPart : String) : Node → Bool
  | element name .. => name.isIn uri localPart
  | _ => false

def attribute? (node : Node) (localPart : String) : Option String :=
  (node.attributes.find? (·.name.isIn "" localPart)).map (·.value)

end Node

namespace Document

def root? (document : Document) : Option Node := document.nodes.find? Node.isElement

end Document

def xmlNamespace : String := "http://www.w3.org/XML/1998/namespace"

def xmlnsNamespace : String := "http://www.w3.org/2000/xmlns/"

end Schematron.Xml
