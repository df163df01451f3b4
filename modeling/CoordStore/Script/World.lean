import CoordStore.Script.Step
import CoordStore.Store.Action
import Std.Data.TreeMap
/-!
# Running a script

The world of a script: one service, the handles, watchers, reactors, managers and monitors the
script has named, and what the current step has seen happen. A step runs against the world
and may fail part way, keeping what it did up to then; every operation that fires watchers has
them called at once, each once.

A script watcher counts its calls, may register itself again, may run operations on the
directory, and may fail. A failure is counted as a watcher failure, or, for a watcher that hands
its work to a reactor, as a task failure of that reactor; a shut-down reactor takes no work, so
such a watcher then does nothing. The watchers an operation of a callback fires are called
inside that callback, before the callback's next operation and before the watchers still
waiting: the work of a step is done depth first from a list of pending work (`World.drain`).
Callbacks that write can fire each other without end; a step stops after `workLimit` pieces of
work and drops what is left. Defining a name again makes a new watcher; the calls a step reports under a name are
those of the watcher the name stands for now, though earlier ones still run when they fire.

Monitors' watchers refresh their monitor. Monitors are numbered like watchers, and each
manager keeps its own id-set monitor and its own entity monitor of each name: defining a name
again for the same manager and kind, or defining the manager again, closes the monitors it
replaces. A name used alone stands for the monitor of the asked kind of the manager that last
defined a monitor of that name; the monitors of that name of other managers keep running.
-/

namespace CoordStore

/-- A watcher defined by a script. -/
structure Reaction where
  name : String
  panics : Bool
  /-- The handle, kind and path to register on again when called. -/
  rearm : Option (Handle × WatchKind × String)
  /-- The reactor the work is handed to, by its place in the world. -/
  reactor : Option Nat
  /-- The operations the callback runs on the directory, in order, once it has counted its call
  and registered again. -/
  runs : List Action := []

/-- What a watcher does when called. -/
inductive Listener where
  | reaction (r : Reaction)
  /-- Refreshes the id-set monitor of a number. -/
  | idSet (monitor : Nat)
  /-- Refreshes an id of the entity monitor of a number. -/
  | entity (monitor : Nat) (id : EntityId)

/-- The kinds of monitor. -/
inductive MonitorKind where
  | idSet
  | entity
  deriving DecidableEq

/-- The name a monitor was given, the name of the manager it follows, and its kind. -/
structure MonitorTag where
  name : String
  manager : String
  kind : MonitorKind

/-- Which of two monitors of one name has its events reported when both send in a step: the
one whose manager's name comes later, and of one manager's, the entity monitor. -/
def MonitorTag.precedes (a b : MonitorTag) : Bool :=
  a.manager < b.manager || (a.manager == b.manager && a.kind == .idSet && b.kind == .entity)

/-- A named handle. A generic handle offers only the operations every directory has, not the
store's own (expiry, counts, description, sub-handles by session). -/
structure HandleEntry where
  handle : Handle
  generic : Bool

/-- Everything a script has made, and what the current step has seen. -/
structure World where
  service : Service
  handles : Std.TreeMap String HandleEntry
  watcherNames : Std.TreeMap String Nat
  listeners : Std.TreeMap Nat Listener
  nextWatcher : Nat
  reactors : Array Reactor
  reactorNames : Std.TreeMap String Nat
  managers : Std.TreeMap String Manager
  /-- Id-set monitors by number. -/
  idSets : Std.TreeMap Nat IdSetMonitor
  /-- Entity monitors by number. -/
  entityMonitors : Std.TreeMap Nat EntityMonitor
  /-- The names of monitors, by number. -/
  monitorTags : Std.TreeMap Nat MonitorTag
  /-- Each manager's id-set monitors, by name. -/
  idSetSlots : Std.TreeMap String (Std.TreeMap String Nat)
  /-- Each manager's entity monitors, by name. -/
  entitySlots : Std.TreeMap String (Std.TreeMap String Nat)
  /-- For each monitor name, the manager that defined it last. -/
  monitorIndex : Std.TreeMap String String
  nextMonitor : Nat
  /-- Milliseconds since the epoch when the script runs. -/
  clock : Nat
  /-- Calls of script watchers during the current step, by name. -/
  fired : Std.TreeMap String Nat
  /-- Events received during the current step, with the monitor's number, in order. -/
  events : List (Nat × MonitorEvent)

namespace World

/-- A fresh world with one handle, `root`, on the tree's root for a session. -/
def make (session : Int) (clock : Nat) : World :=
  { service := Service.empty
    handles := (∅ : Std.TreeMap String HandleEntry).insert "root"
      { handle := Handle.top session, generic := false }
    watcherNames := ∅, listeners := ∅, nextWatcher := 0
    reactors := #[], reactorNames := ∅, managers := ∅, idSets := ∅, entityMonitors := ∅
    monitorTags := ∅, idSetSlots := ∅, entitySlots := ∅, monitorIndex := ∅, nextMonitor := 0
    clock, fired := ∅, events := [] }

/-- Each manager's monitors of a kind, by name. -/
def slots (w : World) : MonitorKind → Std.TreeMap String (Std.TreeMap String Nat)
  | .idSet => w.idSetSlots
  | .entity => w.entitySlots

/-- The monitor of a kind of a manager's that a name stands for, by number. -/
def slot? (w : World) (kind : MonitorKind) (manager name : String) : Option Nat :=
  (w.slots kind)[manager]? >>= fun s => s[name]?

/-- The monitor of a kind a name stands for: the one of that name of the manager that defined a
monitor of that name last. -/
def monitorOf? (w : World) (kind : MonitorKind) (name : String) : Option Nat :=
  w.monitorIndex[name]? >>= fun m => w.slot? kind m name

/-- The watcher a name stands for now, if any. -/
def isCurrent (w : World) (name : String) (wid : Nat) : Bool :=
  w.watcherNames[name]? == some wid

/-- A script watcher's call: counted under its name if the name still stands for it, then
registered again if it rearms. -/
def react (w : World) (wid : Nat) (r : Reaction) : World :=
  let w := if w.isCurrent r.name wid then
      { w with fired := w.fired.insert r.name ((w.fired[r.name]?.getD 0) + 1) }
    else w
  match r.rearm with
  | none => w
  | some (h, kind, path) =>
    let again : Except DirError Service := match kind with
      | .data => (h.get w.service path (some wid)).map Prod.snd
      | .children => (h.children w.service path (some wid)).map Prod.snd
    match again with
    | .ok sv => { w with service := sv }
    | .error _ => w

/-- The world with a counter of the service changed. -/
def withMetrics (w : World) (f : Metrics → Metrics) : World :=
  { w with service := { w.service with metrics := f w.service.metrics } }

/-- Calls one watcher: the world after the call, and the operations its callback goes on to
run. -/
def call (w : World) (wid : Nat) : World × List Action :=
  match w.listeners[wid]? with
  | none => (w, [])
  | some (.reaction r) =>
    match r.reactor with
    | none =>
      let w := w.react wid r
      (if r.panics then w.withMetrics fun m => { m with watcherFailures := m.watcherFailures + 1 }
        else w, r.runs)
    | some i =>
      match w.reactors[i]? with
      | none => (w, [])
      | some rx =>
        if rx.shutDown then (w, [])
        else
          let w := w.react wid r
          (if r.panics then w.withMetrics (·.countTaskFailure rx.identifier) else w, r.runs)
  | some (.idSet n) =>
    match w.idSets[n]? with
    | none => (w, [])
    | some mon =>
      let (res, mon', sv') := mon.refresh w.service
      let w := { w with service := sv', idSets := w.idSets.insert n mon' }
      match res with
      | .ok (_, evs) =>
        ({ w with events := w.events ++ evs.map fun e => (n, .idSet e) }, [])
      | .error _ => (w, [])
  | some (.entity n id) =>
    match w.entityMonitors[n]? with
    | none => (w, [])
    | some mon =>
      let (res, mon', sv') := mon.refresh w.service id true
      let w := { w with service := sv', entityMonitors := w.entityMonitors.insert n mon' }
      match res with
      | .ok (_, evs) =>
        ({ w with events := w.events ++ evs.map fun e => (n, .entity e) }, [])
      | .error _ => (w, [])

end World

/-- A piece of work left inside a step: a watcher to call, or an operation a callback runs. -/
inductive Work where
  | call (wid : Nat)
  | run (a : Action)

namespace World

/-- Does one piece of work: the world after it, and the work it gives, which comes before the
work already pending. An operation hands over the watchers it fires; a call, the operations its
callback runs. -/
def work (w : World) : Work → World × List Work
  | .call wid => let r := w.call wid; (r.1, r.2.map .run)
  | .run a => let r := a.step w.service; ({ w with service := r.1 }, r.2.map .call)

/-- Does pending work a piece at a time, the work each piece gives first, for at most `n`
pieces: the world after them and the work still pending. -/
def drain : Nat → World → List Work → World × List Work
  | 0, w, ws => (w, ws)
  | _ + 1, w, [] => (w, [])
  | n + 1, w, x :: ws => let r := w.work x; drain n r.1 (r.2 ++ ws)

/-- The most pieces of work one step does. -/
def workLimit : Nat := Nat.pow 2 32

/-- Calls watchers in turn, each with the work of its callback done before the next. -/
def deliver (w : World) (ws : List Nat) : World :=
  (w.drain workLimit (ws.map .call)).1

end World

/-- A step's computation: it may fail, keeping what it did. -/
abbrev ScriptM := EStateM StepError World

namespace ScriptM

/-- Refuses a request the script cannot carry out. -/
def bad {α : Type} (msg : String) : ScriptM α :=
  throw (.badInput msg)

/-- Goes on with a value, or fails with the failure. -/
def orFail {α : Type} : Except Failure α → ScriptM α
  | .ok a => pure a
  | .error f => throw (.failure f)

/-- Goes on with a value, or fails with the directory error. -/
def orDirFail {α : Type} : Except DirError α → ScriptM α
  | .ok a => pure a
  | .error e => throw (.failure (.dir e))

/-- The service as it is now. -/
def service : ScriptM Service := do
  pure (← get).service

/-- Replaces the service. -/
def setService (sv : Service) : ScriptM Unit :=
  modify fun w => { w with service := sv }

/-- Takes an operation's reply: its service, then its watchers called, then its result. -/
def reply {α : Type} (r : Reply α) : ScriptM α := do
  modify fun w => ({ w with service := r.service }).deliver r.notify
  orDirFail r.result

/-- A named handle. -/
def handleEntry (name : String) : ScriptM HandleEntry := do
  match (← get).handles[name]? with
  | some e => pure e
  | none => bad ("unknown handle " ++ name)

/-- A named handle that offers the store's own operations. -/
def storeHandle (name : String) : ScriptM Handle := do
  let e ← handleEntry name
  if e.generic then bad "step needs a MemoryDirectory handle, not a sub_dyn one"
  else pure e.handle

/-- Names a handle. -/
def nameHandle (name : String) (e : HandleEntry) : ScriptM Unit :=
  modify fun w => { w with handles := w.handles.insert name e }

/-- A fresh watcher number, with what the watcher does. -/
def newWatcher (l : Listener) : ScriptM Nat := do
  let w ← get
  set { w with nextWatcher := w.nextWatcher + 1, listeners := w.listeners.insert w.nextWatcher l }
  pure w.nextWatcher

/-- The watcher a step names, made as a plain counting watcher on first use. -/
def watcherFor : Option String → ScriptM (Option Nat)
  | none => pure none
  | some name => do
    match (← get).watcherNames[name]? with
    | some id => pure (some id)
    | none =>
      let id ← newWatcher (.reaction { name, panics := false, rearm := none, reactor := none })
      modify fun w => { w with watcherNames := w.watcherNames.insert name id }
      pure (some id)

/-- A named reactor, with its place. -/
def reactor (name : String) : ScriptM (Nat × Reactor) := do
  let w ← get
  match w.reactorNames[name]? with
  | some i =>
    match w.reactors[i]? with
    | some r => pure (i, r)
    | none => bad ("unknown reactor " ++ name)
  | none => bad ("unknown reactor " ++ name)

/-- A named manager. -/
def manager (name : String) : ScriptM Manager := do
  match (← get).managers[name]? with
  | some m => pure m
  | none => bad "unknown manager"

/-- A named id-set monitor, with its number. -/
def idSet (name : String) : ScriptM (Nat × IdSetMonitor) := do
  let w ← get
  match w.monitorOf? .idSet name >>= fun n => (w.idSets[n]?).map (n, ·) with
  | some m => pure m
  | none => bad "unknown monitor"

/-- A named entity monitor, with its number. -/
def entityMonitor (name : String) : ScriptM (Nat × EntityMonitor) := do
  let w ← get
  match w.monitorOf? .entity name >>= fun n => (w.entityMonitors[n]?).map (n, ·) with
  | some m => pure m
  | none => bad "unknown monitor"

/-- Closes the id-set monitor of a number. -/
def closeIdSet (n : Nat) : ScriptM Unit :=
  modify fun w => { w with idSets := w.idSets.modify n IdSetMonitor.close }

/-- Closes the entity monitor of a number. -/
def closeEntityMonitor (n : Nat) : ScriptM Unit :=
  modify fun w => { w with entityMonitors := w.entityMonitors.modify n EntityMonitor.close }

/-- Closes the monitor of a number, whichever kind it is. -/
def closeMonitor (n : Nat) : ScriptM Unit := do
  closeIdSet n
  closeEntityMonitor n

/-- A fresh monitor number for a manager's monitor name of a kind; the monitor of that name and
kind the manager had is closed, and the name now stands for the manager's monitors. -/
def defineMonitor (tag : MonitorTag) : ScriptM Nat := do
  if let some old := (← get).slot? tag.kind tag.manager tag.name then closeMonitor old
  let w ← get
  let n := w.nextMonitor
  let own := (((w.slots tag.kind)[tag.manager]?).getD ∅).insert tag.name n
  let w := match tag.kind with
    | .idSet => { w with idSetSlots := w.idSetSlots.insert tag.manager own }
    | .entity => { w with entitySlots := w.entitySlots.insert tag.manager own }
  set { w with nextMonitor := n + 1, monitorTags := w.monitorTags.insert n tag,
               monitorIndex := w.monitorIndex.insert tag.name tag.manager }
  pure n

/-- Closes the monitors of a manager's name and forgets them. -/
def dropMonitorsOf (manager : String) : ScriptM Unit := do
  let w ← get
  for (_, n) in ((w.idSetSlots[manager]?).getD ∅).toList ++ ((w.entitySlots[manager]?).getD ∅).toList do
    closeMonitor n
  modify fun w => { w with idSetSlots := w.idSetSlots.erase manager,
                           entitySlots := w.entitySlots.erase manager }

/-- Reads an id of a kind. -/
def parseId (k : IdKind) (s : String) : ScriptM EntityId :=
  match k.parse s with
  | some id => pure id
  | none => bad ("id " ++ Text.quote s ++ " does not parse")

/-- Picks the entity of a kind from a value. -/
def entityOf (k : EntityKind) (v : EntityInput) : ScriptM Entity :=
  match v k with
  | .ok e => pure e
  | .error msg => bad ("bad entity value: " ++ msg)

/-- Stores the id-set monitor of a number and the events it sent. -/
def putIdSet (n : Nat) (mon : IdSetMonitor) (evs : List IdSetEvent) : ScriptM Unit :=
  modify fun w => { w with idSets := w.idSets.insert n mon,
                           events := w.events ++ evs.map fun e => (n, .idSet e) }

/-- Stores the entity monitor of a number. -/
def putEntityMonitor (n : Nat) (mon : EntityMonitor) : ScriptM Unit :=
  modify fun w => { w with entityMonitors := w.entityMonitors.insert n mon }

/-- Changes a reactor. -/
def putReactor (i : Nat) (r : Reactor) : ScriptM Unit :=
  modify fun w => { w with reactors := w.reactors.set! i r }

/-- Counts a task of a reactor that failed. -/
def taskFailed (r : Reactor) : ScriptM Unit :=
  modify (·.withMetrics (·.countTaskFailure r.identifier))

end ScriptM

end CoordStore
