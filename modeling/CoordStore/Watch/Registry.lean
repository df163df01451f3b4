import Std.Data.ExtTreeMap
/-!
# Watch registry

A watcher asks once to hear about one node: about its payload (a data watch) or about its
set of children (a children watch). The registry keeps, per node and kind, the set of watchers
waiting; a watcher is in a set at most once, however often it registers. Firing takes the whole
set out, so each registration is heard at most once; a batch that is taken back puts the sets
it took back in place.

Watchers are known by number; what a watcher does when it fires is not the registry's
concern.
-/

namespace CoordStore

/-- What a watch is about: the payload of a node, or its children. -/
inductive WatchKind where
  | data
  | children
  deriving DecidableEq, Repr

/-- The waiting watchers of every node, per kind. No stored set is empty. -/
structure Registry where
  data : Std.ExtTreeMap Nat (List Nat)
  children : Std.ExtTreeMap Nat (List Nat)

namespace Registry

/-- No watcher waits anywhere. -/
def empty : Registry :=
  { data := ∅, children := ∅ }

/-- The table of one kind. -/
def table (r : Registry) : WatchKind → Std.ExtTreeMap Nat (List Nat)
  | .data => r.data
  | .children => r.children

/-- The registry with the table of one kind replaced. -/
def withTable (r : Registry) : WatchKind → Std.ExtTreeMap Nat (List Nat) → Registry
  | .data, m => { r with data := m }
  | .children, m => { r with children := m }

/-- The watchers waiting on a node for one kind of change. -/
def waiting (r : Registry) (node : Nat) (kind : WatchKind) : List Nat :=
  (r.table kind)[node]?.getD []

/-- Adds a watcher to a set; one already there stays once. -/
def register (r : Registry) (node : Nat) (kind : WatchKind) (w : Nat) : Registry :=
  let ws := r.waiting node kind
  if ws.contains w then r else r.withTable kind ((r.table kind).insert node (ws ++ [w]))

/-- Takes out the whole set of a node and kind. -/
def take (r : Registry) (node : Nat) (kind : WatchKind) : List Nat × Registry :=
  (r.waiting node kind, r.withTable kind ((r.table kind).erase node))

/-- Puts watchers back on a node, next to any that wait there now. -/
def restore (r : Registry) (node : Nat) (kind : WatchKind) (ws : List Nat) : Registry :=
  if ws.isEmpty then r
  else
    let here := r.waiting node kind
    r.withTable kind ((r.table kind).insert node (here ++ ws.filter (!here.contains ·)))

/-- How many watchers wait on a node for one kind of change. -/
def count (r : Registry) (node : Nat) (kind : WatchKind) : Nat :=
  (r.waiting node kind).length

end Registry

end CoordStore
