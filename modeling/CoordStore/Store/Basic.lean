import CoordStore.Tree.Basic
import CoordStore.Watch.Registry
/-!
# The store and its edits

A store is the node tree with its watch registry. An edit runs against a store together with
a record of what it did so far: the tree changes, newest first, and the watcher sets that its
changes took out of the registry. From that record an edit is either kept, and the taken
sets that fire are delivered once each, or taken back, and the tree is reverted change by
change with the taken sets put back on the nodes that are still there.

A change takes watchers as follows: a created node fires its parent's children watchers; a
replaced payload fires the node's data watchers; a deleted node fires its own data watchers and
its parent's children watchers, and drops its own children watchers without firing them.

Paths given to edits are relative to a handle's root node; the paths in errors and in the
tree are absolute.
-/

namespace CoordStore

/-- A watcher set taken out of the registry by a change. -/
structure Taken where
  node : Nat
  kind : WatchKind
  watchers : List Nat
  /-- Whether the set is delivered when the edit is kept. -/
  fire : Bool

/-- What an edit did so far: its changes, newest first, and the sets it took, oldest first. -/
structure Batch where
  journal : List Change
  taken : List Taken

/-- The node tree with its watch registry. -/
structure Store where
  tree : Tree
  watches : Registry

namespace Store

/-- A store with only the root node and no watchers. -/
def empty : Store :=
  { tree := Tree.empty, watches := Registry.empty }

/-- The node a path leads to, from a handle's root. -/
def resolve (s : Store) (root : Nat) (path : String) : Except DirError Nat := do
  let names ← (Path.segments path).mapError .badPath
  s.tree.resolve root names

/-- An absolute path written relative to a handle's root: the root's path taken off. -/
def relative (s : Store) (root : Nat) (absolute : String) : Except DirError String := do
  let n ← s.tree.node root
  pure (String.ofList (absolute.toList.drop n.path.length))

/-- The payload at a path; a given watcher is registered for its next change. -/
def getData (s : Store) (root : Nat) (path : String) (w : Option Nat) :
    Except DirError (Option (List UInt8) × Store) := do
  let id ← s.resolve root path
  let s' := match w with
    | some w => { s with watches := s.watches.register id .data w }
    | none => s
  let n ← s'.tree.node id
  pure (n.data, s')

/-- The names of the children at a path, ascending; a given watcher is registered for the
next change of that set. -/
def getChildren (s : Store) (root : Nat) (path : String) (w : Option Nat) :
    Except DirError (List String × Store) := do
  let id ← s.resolve root path
  let s' := match w with
    | some w => { s with watches := s.watches.register id .children w }
    | none => s
  let n ← s'.tree.node id
  pure (n.childNames, s')

end Store

/-- A store in the middle of an edit, with the record of what the edit did. -/
structure Txn where
  store : Store
  batch : Batch

/-- An edit: runs on a store with its record, and may fail, keeping what it did up to then. -/
abbrev Edit := EStateM DirError Txn

namespace Txn

/-- Starts an edit with an empty record. -/
def start (s : Store) : Txn :=
  { store := s, batch := { journal := [], taken := [] } }

/-- Takes the watcher set of a node and kind out of the registry and into the record. -/
def take (node : Nat) (kind : WatchKind) (fire : Bool) (x : Txn) : Txn :=
  let (ws, watches) := x.store.watches.take node kind
  let store := { x.store with watches }
  if ws.isEmpty then { x with store }
  else { store, batch := { x.batch with taken := x.batch.taken ++ [⟨node, kind, ws, fire⟩] } }

/-- Records a change: takes the watchers it concerns, and journals it. -/
def record (c : Change) (x : Txn) : Txn :=
  let x := match c with
    | .created parent _ _ => x.take parent .children true
    | .dataChanged id _ => x.take id .data true
    | .deleted parent _ id _ =>
      ((x.take id .data true).take id .children false).take parent .children true
  { x with batch := { x.batch with journal := c :: x.batch.journal } }

/-- The store with every recorded change taken back, newest first, and the taken watcher sets
put back on the nodes that exist afterwards. -/
def rollback (x : Txn) : Store :=
  let tree := x.batch.journal.foldl Tree.revert x.store.tree
  let watches := x.batch.taken.foldl
    (fun r tk => if tree.nodes.contains tk.node then r.restore tk.node tk.kind tk.watchers else r)
    x.store.watches
  { tree, watches }

/-- The watchers to deliver when the edit is kept: those of the firing sets, each once. -/
def pending (x : Txn) : List Nat :=
  ((x.batch.taken.filter (·.fire)).flatMap (·.watchers)).eraseDups

end Txn

namespace Edit

/-- Fails with the error of a failed computation, or goes on with its value. -/
def ofExcept {α : Type} : Except DirError α → Edit α
  | .ok a => pure a
  | .error e => throw e

/-- Runs a tree operation on the store's tree. -/
def onTree {α : Type} (m : EStateM DirError Tree α) : Edit α := fun x =>
  match m x.store.tree with
  | .ok a t => .ok a { x with store := { x.store with tree := t } }
  | .error e t => .error e { x with store := { x.store with tree := t } }

/-- The store as it is now. -/
def store : Edit Store := fun x => .ok x.store x

/-- Records a change. -/
def record (c : Change) : Edit Unit := fun x => .ok () (x.record c)

/-- Creates a node at a path below a handle's root; gives its path relative to that root. -/
def create (root : Nat) (path : String) (data : Option (List UInt8)) (mode : CreateMode)
    (session : Int) : Edit String := do
  let (parentNames, name) ← ofExcept ((Path.splitParent path).mapError .badPath)
  let s ← store
  let parent ← ofExcept (s.tree.resolve root parentNames)
  let (absolute, change) ← onTree (Tree.addChild parent name data mode session)
  let assigned ← ofExcept ((← store).relative root absolute)
  record change
  pure assigned

/-- Replaces the payload at a path below a handle's root. -/
def setData (root : Nat) (path : String) (data : Option (List UInt8)) : Edit Unit := do
  let id ← ofExcept ((← store).resolve root path)
  let change ← onTree (Tree.setData id data)
  record change

/-- Deletes the childless node at a path below a handle's root. -/
def delete (root : Nat) (path : String) : Edit Unit := do
  let (parentNames, name) ← ofExcept ((Path.splitParent path).mapError .badPath)
  let parent ← ofExcept ((← store).tree.resolve root parentNames)
  let change ← onTree (Tree.deleteChild parent name)
  record change

/-- Removes one node found by number, through its parent. -/
def expireNode (id : Nat) : Edit Unit := do
  let (parent, name) ← ofExcept ((← store).tree.locate id)
  let change ← onTree (Tree.deleteChild parent name)
  record change

/-- Removes every node a session owns, deepest first; gives how many. -/
def expire (session : Int) : Edit Nat := do
  let owned := (← store).tree.ownedBy session
  owned.forM expireNode
  pure owned.length

end Edit

end CoordStore
