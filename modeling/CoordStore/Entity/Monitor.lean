import CoordStore.Entity.Manager
/-!
# Monitors

Monitors follow a manager's entities and send events to a channel that a reader may close.

An id-set monitor follows which ids exist. Each refresh lists the ids, arming the monitor's
one watcher on the root's children again, and sends a `created` event for every listed id it
did not know, in listing order, then a `deleted` event for every known id no longer listed.
Its watcher refreshes it; a stopped monitor, or one whose channel is closed, does not refresh,
and so lets its watcher lapse.

An entity monitor follows single entities. Watching an id arms a watcher of its own on the
entity's node; when it fires, the monitor sends the entity as `updated`, stays silent while the
node exists without a payload, or sends `deleted` and forgets the id once the node is gone.
An unwatched id is forgotten the next time its watcher fires.
-/

namespace CoordStore

/-- An event of an id-set monitor. -/
inductive IdSetEvent where
  | created (id : EntityId)
  | deleted (id : EntityId)
  deriving DecidableEq, Repr

/-- An event of an entity monitor. -/
inductive EntityEvent where
  | updated (id : EntityId) (e : Entity)
  | deleted (id : EntityId)
  deriving DecidableEq, Repr

/-- A monitor of the set of ids below a manager's root. -/
structure IdSetMonitor where
  manager : Manager
  /-- The monitor's one watcher. -/
  watcher : Nat
  /-- The ids seen at the last refresh, each once. -/
  known : List EntityId
  stopped : Bool
  /-- Whether the channel still has a reader. -/
  isOpen : Bool

namespace IdSetMonitor

/-- A new monitor: not stopped, knowing no ids, its watcher armed by the first refresh. -/
def make (manager : Manager) (watcher : Nat) : IdSetMonitor :=
  { manager, watcher, known := [], stopped := false, isOpen := true }

/-- The events of a refresh that lists `ids`: the new ones in listing order, then the ones
gone. -/
def changes (known ids : List EntityId) : List IdSetEvent :=
  (ids.filter (!known.contains ·)).map .created ++ (known.filter (!ids.contains ·)).map .deleted

/-- What a refresh gives: the ids listed with the events to send, or why listing failed;
and the monitor and service after it. -/
abbrev Refreshed := Except Failure (List EntityId × List IdSetEvent) × IdSetMonitor × Service

/-- Lists the ids again, arming the watcher, and gives the ids with the events to send; a
stopped monitor, or one without a reader (which stops it), lists nothing. -/
def refresh (mon : IdSetMonitor) (sv : Service) : Refreshed :=
  let mon := if mon.isOpen then mon else { mon with stopped := true }
  if mon.stopped then (.ok ([], []), mon, sv)
  else
    match mon.manager.listAndWatch sv (some mon.watcher) with
    | .error e => (.error e, mon, sv)
    | .ok (ids, sv') => (.ok (ids, changes mon.known ids), { mon with known := ids.eraseDups }, sv')

/-- Starts the monitor and refreshes it. -/
def start (mon : IdSetMonitor) (sv : Service) : Refreshed :=
  refresh { mon with stopped := false } sv

/-- Stops the monitor; its watcher is not armed again. -/
def stop (mon : IdSetMonitor) : IdSetMonitor :=
  { mon with stopped := true }

/-- Drops the channel's reader. -/
def close (mon : IdSetMonitor) : IdSetMonitor :=
  { mon with isOpen := false }

end IdSetMonitor

/-- How an entity monitor watches one id. -/
structure EntityWatch where
  watcher : Nat
  active : Bool

/-- A monitor of single entities of a manager. -/
structure EntityMonitor where
  manager : Manager
  /-- The ids the monitor knows, with their watches; each id once. -/
  entries : List (EntityId × EntityWatch)
  /-- Whether the channel still has a reader. -/
  isOpen : Bool

namespace EntityMonitor

/-- A new monitor watching nothing. -/
def make (manager : Manager) : EntityMonitor :=
  { manager, entries := [], isOpen := true }

/-- The watch of an id. -/
def entry? (mon : EntityMonitor) (id : EntityId) : Option EntityWatch :=
  mon.entries.lookup id

/-- The monitor with the watch of an id set. -/
def setEntry (mon : EntityMonitor) (id : EntityId) (w : EntityWatch) : EntityMonitor :=
  if mon.entries.any (·.1 == id) then
    { mon with entries := mon.entries.map fun p => if p.1 == id then (id, w) else p }
  else { mon with entries := mon.entries ++ [(id, w)] }

/-- The monitor with an id forgotten. -/
def forget (mon : EntityMonitor) (id : EntityId) : EntityMonitor :=
  { mon with entries := mon.entries.filter (·.1 != id) }

/-- What a refresh of one id gives: the entity with the events to send, or why reading
failed; and the monitor and service after it. -/
abbrev Refreshed := Except Failure (Option Entity × List EntityEvent) × EntityMonitor × Service

/-- Reads an entity again, arming its watcher, when it is watched. With `emit`, the change is
sent: an entity as `updated`; a node gone as `deleted`, forgetting the id. An id no longer
watched is forgotten; without a reader, a sending refresh forgets every id. -/
def refresh (mon : EntityMonitor) (sv : Service) (id : EntityId) (emit : Bool) : Refreshed :=
  if emit && !mon.isOpen then (.ok (none, []), { mon with entries := [] }, sv)
  else
    match mon.entry? id with
    | none => (.ok (none, []), mon, sv)
    | some w =>
      if !w.active then (.ok (none, []), mon.forget id, sv)
      else
        match mon.manager.getAndWatch sv id (some w.watcher) with
        | (.error e, sv') => (.error e, mon, sv')
        | (.ok (some e), sv') => (.ok (some e, if emit then [.updated id e] else []), mon, sv')
        | (.ok none, sv') =>
          if mon.manager.exists sv' id then (.ok (none, []), mon, sv')
          else (.ok (none, if emit then [.deleted id] else []), mon.forget id, sv')

/-- The monitor with the watch of an id made inactive, if it has one. -/
def deactivate (mon : EntityMonitor) (id : EntityId) : EntityMonitor :=
  match mon.entry? id with
  | some w => mon.setEntry id { w with active := false }
  | none => mon

/-- Starts watching an id, with `fresh` as its watcher if the id has none yet, and gives the
entity. An id already watched is read without arming anything; a failed first read leaves the
id unwatched. -/
def watch (mon : EntityMonitor) (sv : Service) (id : EntityId) (fresh : Nat) :
    Except Failure (Option Entity) × EntityMonitor × Service :=
  let armed := match mon.entry? id with
    | some w => if w.active then none else some (mon.setEntry id { w with active := true })
    | none => some (mon.setEntry id { watcher := fresh, active := true })
  match armed with
  | none =>
    let (res, sv') := mon.manager.getAndWatch sv id none
    (res, mon, sv')
  | some next =>
    match refresh next sv id false with
    | (.ok (e, _), after, sv') => (.ok e, after, sv')
    | (.error err, after, sv') => (.error err, after.deactivate id, sv')

/-- Stops watching an id; tells whether it was watched. -/
def unwatch (mon : EntityMonitor) (id : EntityId) : Bool × EntityMonitor :=
  match mon.entry? id with
  | some w => if w.active then (true, mon.setEntry id { w with active := false }) else (false, mon)
  | none => (false, mon)

/-- Whether an id is watched. -/
def isWatching (mon : EntityMonitor) (id : EntityId) : Bool :=
  (mon.entry? id).any (·.active)

/-- Drops the channel's reader. -/
def close (mon : EntityMonitor) : EntityMonitor :=
  { mon with isOpen := false }

end EntityMonitor

end CoordStore
