import Mathlib.Data.List.Sort
import Schematron.Xml.Node

/-!
Document order: each node of a tree has an address, which leads down to it from the root. Main
statement: a walk through the tree comes to every node once, in the order of the addresses.
-/

namespace Schematron.Xml

abbrev Address := List Nat

namespace Node

def inner : Node → List Node
  | element _ _ _ children => children
  | reference _ expansion => expansion
  | _ => []

def at? (node : Node) : Address → Option Node
  | [] => some node
  | place :: rest => node.inner[place]?.bind fun found => found.at? rest

mutual
def walk : Node → List (Address × Node)
  | element name declared attributes children =>
      ([], element name declared attributes children) :: walkAll 0 children
  | reference entity expansion => ([], reference entity expansion) :: walkAll 0 expansion
  | node => [([], node)]

def walkAll (place : Nat) : List Node → List (Address × Node)
  -- The first of the nodes stands at `place`.
  | [] => []
  | node :: rest =>
      (walk node).map (fun found => (place :: found.1, found.2)) ++ walkAll (place + 1) rest
end

theorem walk_eq (node : Node) : node.walk = ([], node) :: walkAll 0 node.inner := by
  cases node <;> rfl

theorem mem_walkAll {place : Nat} {nodes : List Node} {address : Address} {found : Node} :
    (address, found) ∈ walkAll place nodes ↔
      ∃ offset rest node, address = (place + offset) :: rest ∧ nodes[offset]? = some node ∧
        (rest, found) ∈ node.walk := by
  induction nodes generalizing place with
  | nil => simp [walkAll]
  | cons first others ih =>
      simp only [walkAll, List.mem_append, List.mem_map, ih]
      constructor
      · rintro (⟨⟨rest, node⟩, member, same⟩ | ⟨offset, rest, node, rfl, there, member⟩)
        · cases same
          exact ⟨0, rest, first, rfl, rfl, member⟩
        · exact ⟨offset + 1, rest, node, by rw [Nat.add_right_comm, Nat.add_assoc], there, member⟩
      · rintro ⟨offset, rest, node, rfl, there, member⟩
        cases offset with
        | zero =>
            cases there
            exact .inl ⟨(rest, found), member, rfl⟩
        | succ offset =>
            exact .inr ⟨offset, rest, node, by rw [Nat.add_right_comm, Nat.add_assoc], there,
              member⟩

theorem nil_mem_walk {node found : Node} : ([], found) ∈ node.walk ↔ node = found := by
  rw [walk_eq, List.mem_cons, mem_walkAll]
  constructor
  · rintro (same | ⟨_, _, _, same, -⟩)
    · cases same
      rfl
    · cases same
  · rintro rfl
    exact .inl rfl

theorem cons_mem_walk {node found : Node} {place : Nat} {rest : Address} :
    (place :: rest, found) ∈ node.walk ↔
      ∃ below, node.inner[place]? = some below ∧ (rest, found) ∈ below.walk := by
  rw [walk_eq, List.mem_cons, mem_walkAll]
  constructor
  · rintro (same | ⟨offset, _, below, same, there, member⟩)
    · cases same
    · rw [Nat.zero_add] at same
      cases same
      exact ⟨below, there, member⟩
  · rintro ⟨below, there, member⟩
    exact .inr ⟨place, rest, below, by rw [Nat.zero_add], there, member⟩

/-- A walk comes to all nodes that have an address, and to nothing else. -/
theorem mem_walk {node found : Node} {address : Address} :
    (address, found) ∈ node.walk ↔ node.at? address = some found := by
  induction address generalizing node with
  | nil => rw [nil_mem_walk, at?, Option.some.injEq]
  | cons place rest ih => simp only [cons_mem_walk, at?, Option.bind_eq_some_iff, ih]

abbrev Ascends {α : Type} (found : List (Address × α)) : Prop :=
  found.Pairwise fun first second => first.1 < second.1

theorem ascends_cons {nodes : List Node} (ordered : Ascends (walkAll 0 nodes)) (node : Node) :
    Ascends (([], node) :: walkAll 0 nodes) := by
  refine List.pairwise_cons.mpr ⟨?_, ordered⟩
  rintro ⟨address, found⟩ member
  obtain ⟨offset, rest, _, rfl, -⟩ := mem_walkAll.mp member
  exact List.nil_lt_cons _ _

mutual
theorem walk_ascends : ∀ node : Node, Ascends node.walk
  | element _ _ _ children => ascends_cons (walkAll_ascends 0 children) _
  | reference _ expansion => ascends_cons (walkAll_ascends 0 expansion) _
  | text _ => List.pairwise_singleton _ _
  | comment _ => List.pairwise_singleton _ _
  | instruction _ _ => List.pairwise_singleton _ _

theorem walkAll_ascends : ∀ (place : Nat) (nodes : List Node), Ascends (walkAll place nodes)
  | _, [] => List.Pairwise.nil
  | place, node :: rest => by
      refine List.pairwise_append.mpr ⟨?_, walkAll_ascends (place + 1) rest, ?_⟩
      · refine List.pairwise_map.mpr ((walk_ascends node).imp fun before => ?_)
        exact List.cons_lt_cons_iff.mpr (.inr ⟨rfl, before⟩)
      · rintro first member ⟨address, found⟩ later
        obtain ⟨inside, -, rfl⟩ := List.mem_map.mp member
        obtain ⟨offset, below, _, rfl, -⟩ := mem_walkAll.mp later
        exact List.cons_lt_cons_iff.mpr (.inl (by omega))
end

/-! What is read from the nodes of a tree -/

section Lists

variable {α : Type} {node : Node} {reads : Node → α → Prop} {found other : List (Address × α)}

structure Lists (node : Node) (reads : Node → α → Prop) (found : List (Address × α)) : Prop where
  ascends : Ascends found
  exactly : ∀ address value, (address, value) ∈ found ↔
    ∃ other, node.at? address = some other ∧ reads other value

theorem Lists.unique (lists : node.Lists reads found) (also : node.Lists reads other) :
    found = other := by
  have antisymm : Std.Antisymm fun first second : Address × α => first.1 < second.1 :=
    ⟨fun _ _ before after => absurd after (List.lt_asymm before)⟩
  have irrefl : Std.Irrefl fun first second : Address × α => first.1 < second.1 :=
    ⟨fun _ before => List.lt_irrefl _ before⟩
  refine lists.ascends.eq_of_mem_iff also.ascends fun ⟨address, value⟩ => ?_
  rw [lists.exactly, also.exactly]

def gather (node : Node) (read? : Node → Option α) : List α :=
  node.walk.filterMap fun found => read? found.2

theorem filterMap_walkAll (read? : Node → Option α) (place : Nat) (nodes : List Node) :
    (walkAll place nodes).filterMap (fun found => read? found.2) =
      nodes.flatMap fun below => below.gather read? := by
  induction nodes generalizing place with
  | nil => rfl
  | cons first others ih =>
      rw [walkAll, List.filterMap_append, List.filterMap_map, ih, List.flatMap_cons]
      rfl

theorem gather_eq (node : Node) (read? : Node → Option α) :
    node.gather read? =
      (read? node).toList ++ node.inner.flatMap fun below => below.gather read? := by
  rw [gather, walk_eq, List.filterMap_cons, filterMap_walkAll]
  cases read? node <;> rfl

/-- What is read on a walk is all that there is to read. -/
theorem lists_gather (node : Node) (read? : Node → Option α) :
    ∃ found : List (Address × α), found.map (·.2) = node.gather read? ∧
      node.Lists (fun other value => read? other = some value) found := by
  refine ⟨node.walk.filterMap fun found => (read? found.2).map (found.1, ·), ?_, ?_, ?_⟩
  · simp [gather, List.map_filterMap, Function.comp_def]
  · refine (walk_ascends node).filterMap _ fun first second before => ?_
    intro _ read _ later
    obtain ⟨_, -, rfl⟩ := Option.map_eq_some_iff.mp read
    obtain ⟨_, -, rfl⟩ := Option.map_eq_some_iff.mp later
    exact before
  · intro address value
    simp only [List.mem_filterMap, Option.map_eq_some_iff, Prod.mk.injEq]
    constructor
    · rintro ⟨⟨_, other⟩, member, _, read, rfl, rfl⟩
      exact ⟨other, mem_walk.mp member, read⟩
    · rintro ⟨other, there, read⟩
      exact ⟨(address, other), mem_walk.mpr there, value, read, rfl, rfl⟩

end Lists

/-! Character data -/

def characters? : Node → Option String
  | text content => some content
  | _ => none

theorem characters?_eq_some {node : Node} {content : String} :
    node.characters? = some content ↔ node = text content := by
  cases node <;> simp [characters?]

mutual
theorem stringValue_eq : ∀ node : Node, node.stringValue = String.join (node.gather characters?)
  | element _ _ _ children => by
      rw [stringValue, contentValue_eq, gather_eq]
      rfl
  | reference _ expansion => by
      rw [stringValue, contentValue_eq, gather_eq]
      rfl
  | text content => by
      have single : (text content).gather characters? = [content] := rfl
      simp [stringValue, single]
  | comment _ => rfl
  | instruction _ _ => rfl

theorem contentValue_eq : ∀ nodes : List Node,
    contentValue nodes = String.join (nodes.flatMap fun node => node.gather characters?)
  | [] => rfl
  | node :: rest => by
      rw [contentValue, stringValue_eq node, contentValue_eq rest, List.flatMap_cons,
        String.join_append]
end

/-- The character data below a node is that of its text nodes, in document order. -/
theorem stringValue_of_lists {node : Node} {pieces : List (Address × String)}
    (lists : node.Lists (fun other content => other = text content) pieces) :
    node.stringValue = String.join (pieces.map (·.2)) := by
  obtain ⟨found, values, also⟩ := node.lists_gather characters?
  simp only [characters?_eq_some] at also
  rw [stringValue_eq, ← values, also.unique lists]

end Node

end Schematron.Xml
