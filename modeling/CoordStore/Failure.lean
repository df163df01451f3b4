import CoordStore.Error
import CoordStore.Codec.Binary
/-!
# Failures

What an operation of the directory, of an entity manager or of a reactor can fail with: a
directory error, bytes that do not read as an entity, or a reactor that has been shut down.
-/

namespace CoordStore

/-- Why an operation failed. -/
inductive Failure where
  | dir (e : DirError)
  | codec (e : Codec.CodecError)
  /-- The reactor with this identifier has been shut down and takes no more tasks. -/
  | reactorDown (identifier : String)
  deriving DecidableEq, Repr

/-- The sentence that reports the failure. -/
def Failure.message : Failure → String
  | .dir e => e.message
  | .codec e => e.message
  | .reactorDown id => "Reactor " ++ id ++ " has been shut down"

end CoordStore
