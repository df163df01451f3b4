import CoordStore.Failure
import CoordStore.Text.Quoted
/-!
# Reactors

A reactor runs tasks on its workers and catches the ones that fail, counting them under its
identifier. Once shut down it refuses every task. Tasks are modelled as run to completion when
handed over, which is what a reader sees after waiting for the reactor to go idle.

Workers are threads named after the identifier, and a thread's name cannot hold a NUL
character: a reactor with such an identifier cannot start, and the service stops.
-/

namespace CoordStore

/-- A reactor: its identifier, and whether it has been shut down. -/
structure Reactor where
  identifier : String
  shutDown : Bool
  deriving DecidableEq, Repr

namespace Reactor

/-- A running reactor. -/
def make (identifier : String) : Reactor :=
  { identifier, shutDown := false }

/-- Whether workers can be named after an identifier: it holds no NUL character. -/
def canName (identifier : String) : Bool :=
  !identifier.toList.contains (Char.ofNat 0)

/-- Hands over a task: refused once the reactor is shut down. -/
def submit (r : Reactor) : Except Failure Unit :=
  if r.shutDown then .error (.reactorDown r.identifier) else .ok ()

/-- Shuts the reactor down. -/
def shutdown (r : Reactor) : Reactor :=
  { r with shutDown := true }

/-- The reactor described by its identifier and state. -/
def describe (r : Reactor) : String :=
  "TryCatchReactor \x7b identifier: " ++ Text.quote r.identifier ++ ", shut_down: " ++
    (if r.shutDown then "true" else "false") ++ " \x7d"

/-- Milliseconds since the epoch at which a clock counts as set (a moment in 2017). -/
def clockThreshold : Nat := 1500000000000

end Reactor

end CoordStore
