import CoordStore.Store.Basic
/-!
# Batch operations

A batch is a list of operations run as one edit. Creations, payload replacements and
deletions can run in a batch; a version check can be written but a batch holding one is
refused as a whole before anything runs.
-/

namespace CoordStore

/-- An operation that can be written in a batch. -/
inductive BatchOp where
  | create (path : String) (data : Option (List UInt8)) (mode : CreateMode)
  | setData (path : String) (data : Option (List UInt8))
  | delete (path : String)
  /-- A version check, which a batch refuses. -/
  | check (path : String) (version : Int)
  deriving DecidableEq, Repr

/-- An operation a batch runs. -/
inductive Write where
  | create (path : String) (data : Option (List UInt8)) (mode : CreateMode)
  | setData (path : String) (data : Option (List UInt8))
  | delete (path : String)
  deriving DecidableEq, Repr

/-- What one operation of a kept batch gave. -/
inductive OpResult where
  /-- The created node's path, relative to the handle's root. -/
  | create (path : String)
  | setData
  | delete
  deriving DecidableEq, Repr

namespace BatchOp

/-- The operation a batch runs, or nothing for a version check. -/
def toWrite? : BatchOp → Option Write
  | create p d m => some (.create p d m)
  | setData p d => some (.setData p d)
  | delete p => some (.delete p)
  | check _ _ => none

end BatchOp

namespace Edit

/-- Runs one batch operation below a handle's root. -/
def apply (root : Nat) (session : Int) : Write → Edit OpResult
  | .create p d m => OpResult.create <$> create root p d m session
  | .setData p d => (fun _ => OpResult.setData) <$> setData root p d
  | .delete p => (fun _ => OpResult.delete) <$> delete root p

end Edit

end CoordStore
