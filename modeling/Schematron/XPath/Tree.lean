import Schematron.Xml.Node

/-! Documents as the path language sees them: one array of items in document order, so that the
order of nodes is the order of their indices. -/

namespace Schematron.XPath

open Schematron.Xml (Name Binding)

inductive ItemKind
  | root
  | element
  | attribution
  | text
  | comment
  | instruction
  -- An entity reference: no path finds it, but its text counts.
  | reference
deriving DecidableEq, Repr, Inhabited

structure Item where
  kind : ItemKind
  name : Name
  value : String
  parent : Nat
  stop : Nat
  attributes : List Nat
  children : List Nat
  scope : List Binding
deriving Inhabited

structure Tree where
  items : Array Item
  uri : String
  identified : List (String × Nat)
deriving Inhabited

abbrev Forest := Array Tree

/-- A node by its tree and its place there; `space` holds the prefix of a namespace node, which
stands at the place of its element. -/
structure NodeRef where
  tree : Nat
  index : Nat
  space : Option String
deriving DecidableEq, Repr, Inhabited

namespace Tree

def item (tree : Tree) (index : Nat) : Item := tree.items[index]?.getD default

def leaf (kind : ItemKind) (name : Name) (value : String) (parent stop : Nat) : Item :=
  ⟨kind, name, value, parent, stop, [], [], []⟩

def extendScope (scope declared : List Binding) : List Binding :=
  declared.foldl (fun scope binding => binding :: scope.filter (·.pre != binding.pre)) scope

def addAttributes (parent : Nat) :
    Array Item → List Xml.Attribute → Array Item × List Nat
  | items, [] => (items, [])
  | items, found :: rest =>
      let here := items.size
      let item := leaf .attribution found.name found.value parent (here + 1)
      let (items, indices) := addAttributes parent (items.push item) rest
      (items, here :: indices)

mutual
def add (scope : List Binding) (parent : Nat) (items : Array Item) : Xml.Node → Array Item
  | .element name declared attributes children =>
      let here := items.size
      let scope := extendScope scope declared
      let items := items.push (leaf .element name "" parent here)
      let (items, attributeIndices) := addAttributes here items attributes
      let (items, childIndices) := addAll scope here items children
      items.set! here
        ⟨.element, name, "", parent, items.size, attributeIndices, childIndices, scope⟩
  | .text content => items.push (leaf .text (.bare "") content parent (items.size + 1))
  | .comment content => items.push (leaf .comment (.bare "") content parent (items.size + 1))
  | .instruction target content =>
      items.push (leaf .instruction (.bare target) content parent (items.size + 1))
  | .reference entity expansion =>
      items.push
        (leaf .reference (.bare entity) (Xml.Node.contentValue expansion) parent (items.size + 1))

def addAll (scope : List Binding) (parent : Nat) (items : Array Item) :
    List Xml.Node → Array Item × List Nat
  | [] => (items, [])
  | node :: rest =>
      let here := items.size
      let (items, indices) := addAll scope parent (add scope parent items node) rest
      (items, here :: indices)
end

def ofNodes (uri : String) (scope : List Binding) (nodes : List Xml.Node) : Tree :=
  let (items, children) := addAll scope 0 #[leaf .root (.bare "") "" 0 0] nodes
  ⟨items.set! 0 ⟨.root, .bare "", "", 0, items.size, [], children, scope⟩, uri, []⟩

def identifiers (tree : Tree) (isDeclared : String → String → Bool) : List (String × Nat) :=
  tree.items.toList.filterMap fun item =>
    let owner := (tree.item item.parent).name.qualified
    if item.kind == .attribution && (item.name.isIn Xml.xmlNamespace "id" ||
        isDeclared owner item.name.qualified) then some (item.value, item.parent)
    else none

def ofDocument (uri : String) (isDeclared : String → String → Bool) (document : Xml.Document) :
    Tree :=
  let tree := ofNodes uri [] document.nodes
  { tree with identified := tree.identifiers isDeclared }

def textBetween (tree : Tree) (first stop : Nat) : String :=
  (List.range' first (stop - first)).foldl (fun text index =>
    let item := tree.item index
    match item.kind with
    | .text | .reference => text ++ item.value
    | _ => text) ""

mutual
def toNode (tree : Tree) : Nat → Nat → Option Xml.Node
  | 0, _ => none
  | fuel + 1, index =>
      let item := tree.item index
      match item.kind with
      | .element =>
          let attributes := item.attributes.map fun attribution =>
            let found := tree.item attribution
            (⟨found.name, found.value⟩ : Xml.Attribute)
          some (.element item.name item.scope.reverse attributes (toNodes tree fuel item.children))
      | .text | .reference => some (.text item.value)
      | .comment => some (.comment item.value)
      | .instruction => some (.instruction item.name.localPart item.value)
      | _ => none

def toNodes (tree : Tree) : Nat → List Nat → List Xml.Node
  | 0, _ => []
  | _, [] => []
  | fuel + 1, index :: rest =>
      match toNode tree fuel index with
      | some node => node :: toNodes tree fuel rest
      | none => toNodes tree fuel rest
end

end Tree

namespace NodeRef

def plain (tree index : Nat) : NodeRef := ⟨tree, index, none⟩

def before (left right : NodeRef) : Bool :=
  if left.tree != right.tree then left.tree < right.tree
  else if left.index != right.index then left.index < right.index
  else match left.space, right.space with
    | none, some _ => true
    | some left, some right => left < right
    | _, none => false

end NodeRef

namespace Forest

def tree (forest : Forest) (node : NodeRef) : Tree := forest[node.tree]?.getD default

def item (forest : Forest) (node : NodeRef) : Item := (tree forest node).item node.index

def inSame (node : NodeRef) (indices : List Nat) : List NodeRef :=
  indices.map fun index => .plain node.tree index

def root (node : NodeRef) : NodeRef := .plain node.tree 0

def isElement (forest : Forest) (node : NodeRef) : Bool :=
  node.space.isNone && (item forest node).kind == .element

def isAttribution (forest : Forest) (node : NodeRef) : Bool :=
  node.space.isNone && (item forest node).kind == .attribution

def stringValue (forest : Forest) (node : NodeRef) : String :=
  let item := item forest node
  match node.space with
  | some pre => (if pre == "xml" then some Xml.xmlNamespace
      else (item.scope.find? (·.pre == pre)).map (·.uri)).getD ""
  | none =>
      match item.kind with
      | .root | .element => (tree forest node).textBetween node.index item.stop
      | _ => item.value

def children (forest : Forest) (node : NodeRef) : List NodeRef :=
  if node.space.isSome then [] else inSame node (item forest node).children

def attributes (forest : Forest) (node : NodeRef) : List NodeRef :=
  if node.space.isSome then [] else inSame node (item forest node).attributes

def namespaces (forest : Forest) (node : NodeRef) : List NodeRef :=
  if isElement forest node then
    { node with space := some "xml" } ::
      ((item forest node).scope.filter (!·.uri.isEmpty)).map fun binding =>
        { node with space := some binding.pre }
  else []

def parent? (forest : Forest) (node : NodeRef) : Option NodeRef :=
  if node.space.isSome then some { node with space := none }
  else if node.index == 0 then none
  else some (.plain node.tree (item forest node).parent)

def ancestors (forest : Forest) (node : NodeRef) : List NodeRef :=
  go (node.index + 2) node
where
  go : Nat → NodeRef → List NodeRef
    | 0, _ => []
    | fuel + 1, node =>
        match parent? forest node with
        | none => []
        | some parent => parent :: go fuel parent

def isNested (item : Item) : Bool := item.kind != .attribution

def between (forest : Forest) (node : NodeRef) (first stop : Nat) : List NodeRef :=
  let tree := tree forest node
  inSame node ((List.range' first (stop - first)).filter fun index => isNested (tree.item index))

def descendants (forest : Forest) (node : NodeRef) : List NodeRef :=
  let item := item forest node
  if node.space.isSome || item.kind == .attribution then []
  else between forest node (node.index + 1) item.stop

def siblings (forest : Forest) (node : NodeRef) : List NodeRef :=
  if node.space.isSome || isAttribution forest node then []
  else match parent? forest node with
    | some parent => children forest parent
    | none => []

def followingSiblings (forest : Forest) (node : NodeRef) : List NodeRef :=
  (siblings forest node).filter fun sibling => node.index < sibling.index

def precedingSiblings (forest : Forest) (node : NodeRef) : List NodeRef :=
  ((siblings forest node).filter fun sibling => sibling.index < node.index).reverse

def following (forest : Forest) (node : NodeRef) : List NodeRef :=
  -- Whatever comes after a node and is no descendant; what follows an attribute follows its
  -- element.
  let tree := tree forest node
  let found := tree.item node.index
  let stop := if found.kind == .attribution then (tree.item found.parent).stop else found.stop
  between forest node stop tree.items.size

def preceding (forest : Forest) (node : NodeRef) : List NodeRef :=
  let above := (ancestors forest node).map (·.index)
  ((between forest node 1 node.index).filter fun other => !above.contains other.index).reverse

end Forest

end Schematron.XPath
