import CoordStore.Path
/-!
# Directory errors

What can go wrong when a directory operation runs: a path that names no node, a name already
taken, a node that still has children, a child asked of an ephemeral node, or an argument the
directory cannot use. Each error keeps the absolute path it concerns, so its message is the
same whichever handle the call came through.
-/

namespace CoordStore

/-- Why a directory operation failed. -/
inductive DirError where
  /-- No node is stored at the path. -/
  | notFound (path : String)
  /-- The node a handle stands on has been deleted; it is named by its number. -/
  | missingNode (id : Nat)
  /-- A node already exists at the path. -/
  | alreadyExists (path : String)
  /-- The node to delete still has children. -/
  | notEmpty (path : String)
  /-- The node would be the child of an ephemeral node. -/
  | ephemeralParent (path : String)
  /-- The path given is not usable. -/
  | badPath (reason : PathError)
  /-- A batch holds a version check, which batches do not run. -/
  | checkInBatch
  deriving DecidableEq, Repr

namespace DirError

/-- The sentence that reports the error. -/
def message : DirError → String
  | notFound p => "No node at path: " ++ p
  | missingNode n => "No node at path: NodeId(" ++ toString n ++ ")"
  | alreadyExists p => "Node already exists: " ++ p
  | notEmpty p => "Node is not empty: " ++ p
  | ephemeralParent p => "Ephemeral nodes cannot have children: " ++ p
  | badPath r => "Invalid argument: " ++ r.message
  | checkInBatch =>
    "Invalid argument: Only create, set_data and delete are supported in a batch, got 'check'"

/-- Whether the error says that no node is there, so that a reader may take it as absence. -/
def isNotFound : DirError → Bool
  | notFound _ | missingNode _ => true
  | _ => false

end DirError

end CoordStore
