import CoordStore.Store.Op
import CoordStore.Metrics
/-!
# Handles

A handle reaches the store through one of its nodes, its root, and acts for one session:
paths given to it are read below its root, and ephemeral nodes it creates belong to its
session. Several handles share one store. A handle whose root node has been deleted answers
every path with the root's number as the missing node.

Each operation runs as one edit. A single operation is kept as far as it went and delivers
the watchers it fired; a batch is kept whole, delivering the watchers it fired once each, or
taken back whole, delivering none. The service counts deliveries, batch outcomes and expired
nodes as it goes.
-/

namespace CoordStore

/-- The store behind all handles, with the counters of the running service. -/
structure Service where
  store : Store
  metrics : Metrics

/-- What an operation gives back: its result, the service after it, and the watchers to
call, each once. -/
structure Reply (α : Type) where
  result : Except DirError α
  service : Service
  notify : List Nat

/-- A way into the store: a root node and the session it acts for. -/
structure Handle where
  root : Nat
  session : Int
  deriving DecidableEq, Repr

namespace Service

/-- A fresh store with zeroed counters. -/
def empty : Service :=
  { store := Store.empty, metrics := {} }

/-- The service after delivering watchers: the deliveries are counted. -/
def delivered (sv : Service) (ws : List Nat) : Service :=
  { sv with
    metrics := { sv.metrics with watchersNotified := sv.metrics.watchersNotified + ws.length } }

/-- Runs an edit as a single operation: what it did is kept, also when it failed, and the
watchers it fired are delivered. -/
def single {α : Type} (sv : Service) (e : Edit α) : Reply α :=
  match e (Txn.start sv.store) with
  | .ok a x =>
    { result := .ok a, service := { sv with store := x.store }.delivered x.pending,
      notify := x.pending }
  | .error err x =>
    { result := .error err, service := { sv with store := x.store }.delivered x.pending,
      notify := x.pending }

/-- Removes every node a session owns, as one batch; gives how many. -/
def expire (sv : Service) (session : Int) : Reply Nat :=
  match (Edit.expire session) (Txn.start sv.store) with
  | .ok n x =>
    let sv' := { sv with store := x.store,
                         metrics := { sv.metrics with
                                      ephemeralsExpired := sv.metrics.ephemeralsExpired + n } }
    { result := .ok n, service := sv'.delivered x.pending, notify := x.pending }
  | .error e x => { result := .error e, service := { sv with store := x.rollback }, notify := [] }

end Service

namespace Handle

/-- The handle on the tree's root for a session. -/
def top (session : Int) : Handle :=
  { root := Tree.rootId, session }

variable (h : Handle) (sv : Service)

/-- Creates a node; gives its path relative to the handle's root. -/
def add (path : String) (data : Option (List UInt8)) (mode : CreateMode) : Reply String :=
  sv.single (Edit.create h.root path data mode h.session)

/-- Replaces the payload of a node. -/
def update (path : String) (data : Option (List UInt8)) : Reply Unit :=
  sv.single (Edit.setData h.root path data)

/-- Deletes a node without children. -/
def delete (path : String) : Reply Unit :=
  sv.single (Edit.delete h.root path)

/-- The payload of a node, registering a watcher for its next change if one is given. -/
def get (path : String) (w : Option Nat) : Except DirError (Option (List UInt8) × Service) :=
  (sv.store.getData h.root path w).map fun (d, s) => (d, { sv with store := s })

/-- The children's names of a node, registering a watcher for their next change if one is
given. -/
def children (path : String) (w : Option Nat) : Except DirError (List String × Service) :=
  (sv.store.getChildren h.root path w).map fun (ns, s) => (ns, { sv with store := s })

/-- Whether a path leads to a node. -/
def has (path : String) : Bool :=
  (sv.store.resolve h.root path).toBool

/-- Runs a batch: refused whole if it holds a check, else kept whole or taken back whole. -/
def multi (ops : List BatchOp) : Reply (List OpResult) :=
  match ops.mapM BatchOp.toWrite? with
  | none =>
    { result := .error .checkInBatch,
      service := { sv with metrics := sv.metrics.countBatch .rejected }, notify := [] }
  | some ws =>
    match (ws.mapM (Edit.apply h.root h.session)) (Txn.start sv.store) with
    | .ok rs x =>
      let sv' := { sv with store := x.store, metrics := sv.metrics.countBatch .committed }
      { result := .ok rs, service := sv'.delivered x.pending, notify := x.pending }
    | .error e x =>
      { result := .error e,
        service := { store := x.rollback, metrics := sv.metrics.countBatch .rolledBack },
        notify := [] }

/-- The handle rooted at the node a path leads to, for the same session. -/
def sub (path : String) : Except DirError Handle :=
  (sv.store.resolve h.root path).map fun id => { h with root := id }

/-- The handle on the same root for another session. -/
def withSession (session : Int) : Handle :=
  { h with session }

/-- How many watchers wait on the node a path leads to: data watchers, then children
watchers. -/
def watcherCount (path : String) : Except DirError (Nat × Nat) :=
  (sv.store.resolve h.root path).map fun id =>
    (sv.store.watches.count id .data, sv.store.watches.count id .children)

/-- The absolute path of the handle's root, if that node is still there. -/
def rootPath : Option String :=
  (sv.store.tree.node h.root).toOption.map (·.path)

/-- The handle described: its root's absolute path, quoted, or none, and its session. -/
def describe : String :=
  let root := match h.rootPath sv with
    | some p => "Some(" ++ Text.quote p ++ ")"
    | none => "None"
  "MemoryDirectory \x7b root_path: " ++ root ++ ", session_id: " ++ toString h.session ++ " \x7d"

end Handle

end CoordStore
