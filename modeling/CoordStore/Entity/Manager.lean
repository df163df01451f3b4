import CoordStore.Entity.Basic
import CoordStore.Entity.Id
import CoordStore.Store.Handle
import CoordStore.Failure
/-!
# Entity managers

A manager keeps entities of one kind below a root path of a directory handle: the entity with
id `i` is the node `root/i`, holding the entity's binary form. Listing reads the root's
children, in ascending order of name, and keeps the names that read as ids; getting an entity
takes a missing node or an empty payload as no entity.

A manager also writes batches: creating an entity together with the missing nodes on the way
to its root, and deleting one.
-/

namespace CoordStore

/-- A manager of entities of one kind, named by ids of one kind, below a root path. -/
structure Manager where
  handle : Handle
  root : String
  ids : IdKind
  kind : EntityKind
  /-- The names of the root, from the top. -/
  rootNames : List String
  /-- The root is a valid path, made of those names. -/
  segments_root : Path.segments root = .ok rootNames

namespace Manager

/-- A manager below a root, which must be a valid path. -/
def make (handle : Handle) (root : String) (ids : IdKind) (kind : EntityKind) :
    Except DirError Manager :=
  match h : Path.segments root with
  | .ok names => .ok { handle, root, ids, kind, rootNames := names, segments_root := h }
  | .error e => .error (.badPath e)

variable (m : Manager) (sv : Service)

/-- The path of an entity's node. -/
def entityPath (id : EntityId) : String :=
  Path.join m.root id.display

/-- Stores a new entity; gives its node's path relative to the handle. -/
def create (id : EntityId) (e : Entity) : Reply String :=
  m.handle.add sv (m.entityPath id) (some e.encode) .persistent

/-- Replaces a stored entity. -/
def update (id : EntityId) (e : Entity) : Reply Unit :=
  m.handle.update sv (m.entityPath id) (some e.encode)

/-- Deletes a stored entity. -/
def delete (id : EntityId) : Reply Unit :=
  m.handle.delete sv (m.entityPath id)

/-- Whether an entity's node exists. -/
def «exists» (id : EntityId) : Bool :=
  m.handle.has sv (m.entityPath id)

/-- The paths from the top down to the root: `/a`, `/a/b`, and so on. -/
def rootPrefixes : List String :=
  m.rootNames.foldl (fun acc n => acc ++ [Path.join (acc.getLastD "") n]) []

/-- The batch that creates an entity: a plain node for each missing path on the way to the
root, then the entity's node. -/
def prepareCreate (id : EntityId) (e : Entity) : List BatchOp :=
  (m.rootPrefixes.filter fun p => !m.handle.has sv p).map (fun p => .create p none .persistent) ++
    [.create (m.entityPath id) (some e.encode) .persistent]

/-- The batch that deletes an entity. -/
def prepareDelete (id : EntityId) : List BatchOp :=
  [.delete (m.entityPath id)]

/-- The ids below the root, in ascending order of name, names that are no id left out; a
given watcher is registered for the next change of the root's children. -/
def listAndWatch (w : Option Nat) : Except Failure (List EntityId × Service) :=
  match m.handle.children sv m.root w with
  | .ok (names, sv') => .ok (names.filterMap m.ids.parse, sv')
  | .error e => .error (.dir e)

/-- The entity with an id, none if its node is missing or has no payload; a given watcher is
registered for the next change of the node, and stays registered when the payload does not
read as an entity. -/
def getAndWatch (id : EntityId) (w : Option Nat) : Except Failure (Option Entity) × Service :=
  match m.handle.get sv (m.entityPath id) w with
  | .ok (some bs, sv') =>
    match m.kind.decode bs with
    | .ok e => (.ok (some e), sv')
    | .error e => (.error (.codec e), sv')
  | .ok (none, sv') => (.ok none, sv')
  | .error e => (if e.isNotFound then .ok none else .error (.dir e), sv)

/-- The manager described by its root. -/
def describe : String :=
  "DirectoryEntityManager \x7b root: " ++ Text.quote m.root ++ " \x7d"

end Manager

end CoordStore
