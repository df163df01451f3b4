import CoordStore.Tree.Node
import CoordStore.Error
/-!
# The node tree

The tree keeps its nodes by number. Node `0` is the root, with the empty path; every other
node is created below a parent under a name, gets the next unused number, and is found again
by walking names down from a node through the children tables.

The mutating operations return a `Change` that says what they did, so that a batch can take
its changes back in reverse order (`Tree.revert`). Numbers are never handed out twice, not even
when a creation is taken back, and a parent's sequential counter only goes up.
-/

namespace CoordStore

/-- One change made to the tree, with what is needed to take it back. -/
inductive Change where
  /-- `id` was created as child `name` of `parent`. -/
  | created (parent : Nat) (name : String) (id : Nat)
  /-- The payload of `id` was replaced; `previous` is the one it had. -/
  | dataChanged (id : Nat) (previous : Option (List UInt8))
  /-- `id`, child `name` of `parent`, was removed; `node` is what it was. -/
  | deleted (parent : Nat) (name : String) (id : Nat) (node : Node)

/-- The nodes by number, and the number the next created node gets. -/
structure Tree where
  nodes : Std.ExtTreeMap Nat Node
  nextId : Nat

namespace Tree

/-- The number of the root node. -/
def rootId : Nat := 0

/-- The tree with only its root: empty path, no payload, persistent, no owner. -/
def empty : Tree :=
  { nodes := (∅ : Std.ExtTreeMap Nat Node).insert rootId (Node.fresh "" none .persistent none)
    nextId := 1 }

/-- How many nodes the tree holds, the root included. -/
def size (t : Tree) : Nat :=
  t.nodes.size

/-- The node with the given number; a missing one is reported by its number. -/
def node (t : Tree) (id : Nat) : Except DirError Node :=
  match t.nodes[id]? with
  | some n => .ok n
  | none => .error (.missingNode id)

/-- Walks the names down from a node already found; a missing child is reported by the path
it would have. -/
def descend (t : Tree) : Node → Nat → List String → Except DirError Nat
  | _, id, [] => .ok id
  | n, _, name :: rest =>
    match n.children[name]? with
    | none => .error (.notFound (Path.join n.path name))
    | some c => do
      let m ← t.node c
      t.descend m c rest

/-- The number of the node reached from `start` by the given names. -/
def resolve (t : Tree) (start : Nat) (names : List String) : Except DirError Nat := do
  let n ← t.node start
  t.descend n start names

/-- The tree with one node stored (or replaced) under its number. -/
def setNode (t : Tree) (id : Nat) (n : Node) : Tree :=
  { t with nodes := t.nodes.insert id n }

/-- Creates a child of `parentId`. A name already taken, or an ephemeral parent, is refused;
a sequential name takes the parent's counter as suffix, and the counter moves on even when the
suffixed name then turns out to be taken. The owner is kept only for ephemeral nodes. Gives the
new node's absolute path. -/
def addChild (parentId : Nat) (name : String) (data : Option (List UInt8)) (mode : CreateMode)
    (owner : Int) : EStateM DirError Tree (String × Change) := fun t =>
  match t.nodes[parentId]? with
  | none => .error (.missingNode parentId) t
  | some parent =>
    if !mode.isSequential && parent.children.contains name then
      .error (.alreadyExists (Path.join parent.path name)) t
    else if parent.mode.isEphemeral then
      .error (.ephemeralParent (Path.join parent.path name)) t
    else
      let (name', parent') := parent.childName name mode
      if parent'.children.contains name' then
        .error (.alreadyExists (Path.join parent.path name')) (t.setNode parentId parent')
      else
        let path := Path.join parent.path name'
        let id := t.nextId
        let owner' := if mode.isEphemeral then some owner else none
        let parent'' := { parent' with children := parent'.children.insert name' id }
        .ok (path, .created parentId name' id)
          { nodes := (t.nodes.insert parentId parent'').insert id (Node.fresh path data mode owner')
            nextId := id + 1 }

/-- Replaces the payload of a node. -/
def setData (id : Nat) (data : Option (List UInt8)) : EStateM DirError Tree Change := fun t =>
  match t.nodes[id]? with
  | none => .error (.missingNode id) t
  | some n => .ok (.dataChanged id n.data) (t.setNode id { n with data })

/-- Removes the child `name` of `parentId`; it must exist and have no children. -/
def deleteChild (parentId : Nat) (name : String) : EStateM DirError Tree Change := fun t =>
  match t.nodes[parentId]? with
  | none => .error (.missingNode parentId) t
  | some parent =>
    let childPath := Path.join parent.path name
    match parent.children[name]? with
    | none => .error (.notFound childPath) t
    | some id =>
      match t.nodes[id]? with
      | none => .error (.missingNode id) t
      | some child =>
        if child.children.isEmpty then
          let parent' := { parent with children := parent.children.erase name }
          .ok (.deleted parentId name id child)
            { t with nodes := (t.nodes.insert parentId parent').erase id }
        else .error (.notEmpty childPath) t

/-- Takes one change back: a created node goes, a replaced payload returns, a removed node
comes back under its name. Counters and the next number stay as they are. -/
def revert (t : Tree) : Change → Tree
  | .created parent name id =>
    let nodes := match t.nodes[parent]? with
      | some p => t.nodes.insert parent { p with children := p.children.erase name }
      | none => t.nodes
    { t with nodes := nodes.erase id }
  | .dataChanged id previous =>
    match t.nodes[id]? with
    | some n => t.setNode id { n with data := previous }
    | none => t
  | .deleted parent name id node =>
    let nodes := match t.nodes[parent]? with
      | some p => t.nodes.insert parent { p with children := p.children.insert name id }
      | none => t.nodes
    { t with nodes := nodes.insert id node }

/-- Expiry order: longer paths (in bytes) first, so that children go before their parents;
equal lengths in ascending order of path. -/
def expiresBefore (a b : Nat × Node) : Bool :=
  b.2.path.utf8ByteSize < a.2.path.utf8ByteSize ||
    (a.2.path.utf8ByteSize == b.2.path.utf8ByteSize && decide (a.2.path ≤ b.2.path))

/-- The nodes owned by a session, in expiry order. -/
def ownedBy (t : Tree) (session : Int) : List Nat :=
  ((t.nodes.toList.filter fun p => p.2.owner == some session).mergeSort expiresBefore).map
    Prod.fst

/-- The parent path and the last name of a stored path: the text around its last separator. -/
def lastSplit (path : String) : Option (List Char × String) :=
  let rev := path.toList.reverse
  if rev.contains '/' then
    some ((rev.dropWhile (· ≠ '/')).tail.reverse,
      String.ofList (rev.takeWhile (· ≠ '/')).reverse)
  else none

/-- The parent's number and the name of a node, found again from its stored path. -/
def locate (t : Tree) (id : Nat) : Except DirError (Nat × String) := do
  let n ← t.node id
  match lastSplit n.path with
  | none => .error (.badPath .rootParent)
  | some (parentPath, name) =>
    let names := (Path.pieces parentPath).filter (!·.isEmpty) |>.map String.ofList
    let parent ← t.resolve rootId names
    pure (parent, name)

end Tree

end CoordStore
