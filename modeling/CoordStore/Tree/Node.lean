import Std.Data.ExtTreeMap
/-!
# Nodes

A node holds an optional payload, the way it was created, the session that owns it when it
is ephemeral, the counter that numbers its sequential children, and its children by name.
It also keeps its own absolute path, which error messages and expiry read.
-/

namespace CoordStore

/-- How a node is created: kept until deleted, or owned by the creating session
(ephemeral); and whether its name gets a numbered suffix (sequential). -/
inductive CreateMode where
  | persistent
  | persistentSequential
  | ephemeral
  | ephemeralSequential
  deriving DecidableEq, Repr

namespace CreateMode

/-- Whether the created name gets the parent's counter as a suffix. -/
def isSequential : CreateMode → Bool
  | persistentSequential | ephemeralSequential => true
  | _ => false

/-- Whether the node belongs to the session that created it, and may have no children. -/
def isEphemeral : CreateMode → Bool
  | ephemeral | ephemeralSequential => true
  | _ => false

end CreateMode

/-- The width to which a sequential suffix is padded with zeros. -/
def suffixWidth : Nat := 10

/-- The decimal digits of a counter, padded with zeros on the left to `suffixWidth`. -/
def sequenceSuffix (n : Nat) : String :=
  let digits := Nat.toDigits 10 n
  String.ofList (List.replicate (suffixWidth - digits.length) '0' ++ digits)

/-- A stored node. -/
structure Node where
  /-- The absolute path under which the node was created; the root's is empty. -/
  path : String
  /-- The payload, if any. -/
  data : Option (List UInt8)
  mode : CreateMode
  /-- The owning session; present exactly for ephemeral nodes. -/
  owner : Option Int
  /-- The number the next sequential child gets. -/
  sequence : Nat
  /-- The children, by name. -/
  children : Std.ExtTreeMap String Nat

namespace Node

/-- A node just created: no children, and its counter at zero. -/
def fresh (path : String) (data : Option (List UInt8)) (mode : CreateMode)
    (owner : Option Int) : Node :=
  { path, data, mode, owner, sequence := 0, children := ∅ }

/-- The names of the children, in ascending order. -/
def childNames (n : Node) : List String :=
  n.children.keys

/-- The name a new child gets, and its parent with the counter moved on when the name is
sequential. -/
def childName (parent : Node) (name : String) (mode : CreateMode) : String × Node :=
  if mode.isSequential then
    (name ++ sequenceSuffix parent.sequence, { parent with sequence := parent.sequence + 1 })
  else (name, parent)

end Node

end CoordStore
