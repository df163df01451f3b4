import CoordStore.Codec.Binary
/-!
# Entities

The values a manager keeps below its root, one per node: a plain text, an optional text, an
unsigned 64-bit number, or a pool (a name, whether it is administratively up, and its member
addresses). Each kind has its binary form (`Entity.encode`) and is read back by kind
(`EntityKind.decode`); reading ignores bytes after the value.
-/

namespace CoordStore

/-- A pool of members behind one name. -/
structure Pool where
  name : String
  adminStateUp : Bool
  members : List String
  deriving DecidableEq, Repr

/-- The kinds of entity a manager can keep. -/
inductive EntityKind where
  | text
  | pool
  | u64
  | optText
  deriving DecidableEq, Repr

/-- An entity of one of the kinds. -/
inductive Entity where
  | text (s : String)
  | pool (p : Pool)
  | u64 (n : Nat)
  | optText (s : Option String)
  deriving DecidableEq, Repr

namespace Entity

open Codec

/-- The binary form of an entity. -/
def encode : Entity → List UInt8
  | text s => Writer.text s
  | pool p => Writer.text p.name ++ Writer.bool p.adminStateUp ++ Writer.seq Writer.text p.members
  | u64 n => Writer.u64 n
  | optText s => Writer.option Writer.text s

end Entity

namespace EntityKind

open Codec

/-- Reads an entity of the kind. -/
def reader : EntityKind → Reader Entity
  | text => Entity.text <$> Reader.text
  | pool => do
    let name ← Reader.text
    let adminStateUp ← Reader.bool
    let members ← Reader.seq Reader.text
    pure (.pool { name, adminStateUp, members })
  | u64 => Entity.u64 <$> Reader.u64
  | optText => Entity.optText <$> Reader.option Reader.text

/-- Reads an entity of the kind from the front of the bytes; the rest is ignored. -/
def decode (k : EntityKind) (bs : List UInt8) : Except CodecError Entity :=
  Prod.fst <$> k.reader.run bs

end EntityKind

end CoordStore
