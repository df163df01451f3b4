import CoordStore.Entity.Monitor
import CoordStore.Reactor
/-!
# Script steps and answers

A script drives one directory through named handles, watchers, reactors, managers and
monitors. Every step names the objects it uses; a step answers with a value or an error, the
count of script watchers that ran during it, and the events each monitor received.

Entity values arrive as candidates: for every entity kind, the entity the value stands for or
why it does not fit that kind. The manager's kind picks one.
-/

namespace CoordStore

/-- What a rearming watcher registers again when it fires. -/
structure RearmSpec where
  /-- The handle to register through. -/
  handle : String
  kind : WatchKind
  path : String

/-- An entity value read against every entity kind. -/
abbrev EntityInput := EntityKind → Except String Entity

/-- One step of a script. `h` names a handle, `r` a reactor, `m` a manager and `mon` a
monitor; `watch` names a script watcher to register. -/
inductive Step where
  | add (h path : String) (data : Option (List UInt8)) (mode : CreateMode)
  | update (h path : String) (data : Option (List UInt8))
  | get (h path : String) (watch : Option String)
  | children (h path : String) (watch : Option String)
  | has (h path : String)
  | delete (h path : String)
  | multi (h : String) (ops : List BatchOp)
  | expire (h : String) (session : Int)
  | nodeCount (h : String)
  | watcherCount (h path : String)
  | sessionId (h : String)
  | describe (h : String)
  | sub (h path name : String)
  | subDyn (h path name : String)
  | withSession (h : String) (session : Int) (name : String)
  | metrics
  | watcher (name : String) (panics : Bool) (rearm : Option RearmSpec) (dispatch : Option String)
  | reactor (name identifier : String)
  | submit (r : String) (panics : Bool)
  | schedule (r : String) (delayMs : Nat) (panics : Bool)
  | shutdown (r : String)
  | isShutDown (r : String)
  | identifier (r : String)
  | describeReactor (r : String)
  | clockSet (r : String)
  | manager (name h root : String) (ids : IdKind) (kind : EntityKind)
  | managerRoot (m : String)
  | entityPath (m id : String)
  | create (m id : String) (value : EntityInput)
  | updateEntity (m id : String) (value : EntityInput)
  | deleteEntity (m id : String)
  | entityExists (m id : String)
  | describeManager (m : String)
  | list (m : String) (watch : Option String)
  | getEntity (m id : String) (watch : Option String)
  | prepareCreate (m id : String) (value : EntityInput) (commit : Bool)
  | prepareDelete (m id : String) (commit : Bool)
  | idSet (m name : String)
  | entityMonitor (m name : String)
  | idSetStart (mon : String)
  | idSetStop (mon : String)
  | idSetCurrent (mon : String)
  | idSetClose (mon : String)
  | entityClose (mon : String)
  | entityWatch (mon id : String)
  | entityUnwatch (mon id : String)
  | entityIsWatching (mon id : String)

/-- The value a step answers with. -/
inductive Value where
  | unit
  | text (s : String)
  | payload (data : Option (List UInt8))
  | names (ns : List String)
  | flag (b : Bool)
  | count (n : Nat)
  | int (i : Int)
  | counts (data children : Nat)
  | results (rs : List OpResult)
  | entity (e : Option Entity)
  | ids (ids : List EntityId)
  | prepared (ops : List BatchOp) (results : Option (List OpResult))
  /-- A task ran, on one of the reactor's workers. -/
  | ran
  | samples (s : List (String × Nat))

/-- Why a step gave no value: a failure of the program, a request the script cannot carry
out (an unknown name, an id or value that does not fit), or the service stopping, which ends
the whole script. -/
inductive StepError where
  | failure (f : Failure)
  | badInput (message : String)
  | abort

/-- An event received by a monitor. -/
inductive MonitorEvent where
  | idSet (e : IdSetEvent)
  | entity (e : EntityEvent)

/-- The answer to a step. -/
structure Answer where
  result : Except StepError Value
  /-- Script watchers that ran, by name in ascending order, with how often. -/
  fired : List (String × Nat)
  /-- Events received, by monitor name in ascending order. -/
  events : List (String × List MonitorEvent)

end CoordStore
