import CoordStore.Script.World
/-!
# Executing steps

Each step looks up the objects it names, refusing unknown names, runs its operation, and
answers. Events are reported per monitor name in a fixed order: an id-set monitor's events as
sent, except that each run of `deleted` events is in ascending order of id; an entity
monitor's events in ascending order of id, `updated` before `deleted`. When several monitors
of one name send events in the same step, those of the monitor whose manager's name comes last
are reported, and of that manager's two, the entity monitor's.
-/

namespace CoordStore

namespace ScriptM

open ScriptM

/-- Runs one step. -/
def exec : Step → ScriptM Value
  | .add h path data mode => do
    let e ← handleEntry h
    .text <$> reply (e.handle.add (← service) path data mode)
  | .update h path data => do
    let e ← handleEntry h
    let _ ← reply (e.handle.update (← service) path data)
    pure .unit
  | .get h path watch => do
    let e ← handleEntry h
    let wid ← watcherFor watch
    let (d, sv) ← orDirFail (e.handle.get (← service) path wid)
    setService sv
    pure (.payload d)
  | .children h path watch => do
    let e ← handleEntry h
    let wid ← watcherFor watch
    let (ns, sv) ← orDirFail (e.handle.children (← service) path wid)
    setService sv
    pure (.names ns)
  | .has h path => do
    let e ← handleEntry h
    pure (.flag (e.handle.has (← service) path))
  | .delete h path => do
    let e ← handleEntry h
    let _ ← reply (e.handle.delete (← service) path)
    pure .unit
  | .multi h ops => do
    let e ← handleEntry h
    .results <$> reply (e.handle.multi (← service) ops)
  | .expire h session => do
    let _ ← storeHandle h
    .count <$> reply ((← service).expire session)
  | .nodeCount h => do
    let _ ← storeHandle h
    pure (.count (← service).store.tree.size)
  | .watcherCount h path => do
    let hd ← storeHandle h
    let (d, c) ← orDirFail (hd.watcherCount (← service) path)
    pure (.counts d c)
  | .sessionId h => do
    let e ← handleEntry h
    pure (.int e.handle.session)
  | .describe h => do
    let hd ← storeHandle h
    pure (.text (hd.describe (← service)))
  | .sub h path name => do
    let hd ← storeHandle h
    let s ← orDirFail (hd.sub (← service) path)
    nameHandle name { handle := s, generic := false }
    pure .unit
  | .subDyn h path name => do
    let e ← handleEntry h
    let s ← orDirFail (e.handle.sub (← service) path)
    nameHandle name { handle := s, generic := true }
    pure .unit
  | .withSession h session name => do
    let hd ← storeHandle h
    nameHandle name { handle := hd.withSession session, generic := false }
    pure .unit
  | .metrics => do
    pure (.samples (← service).metrics.report)
  | .watcher name panics rearm dispatch => do
    let again ← match rearm with
      | none => pure none
      | some spec => do
        let e ← handleEntry spec.handle
        pure (some (e.handle, spec.kind, spec.path))
    let reactor ← match dispatch with
      | none => pure none
      | some r => do
        let (i, _) ← reactor r
        pure (some i)
    let id ← newWatcher (.reaction { name, panics, rearm := again, reactor })
    modify fun w => { w with watcherNames := w.watcherNames.insert name id }
    pure .unit
  | .reactor name identifier => do
    if !Reactor.canName identifier then throw .abort
    modify fun w => { w with reactors := w.reactors.push (Reactor.make identifier),
                             reactorNames := w.reactorNames.insert name w.reactors.size }
    pure .unit
  | .submit r panics => do
    let (_, rx) ← reactor r
    orFail rx.submit
    if panics then taskFailed rx
    pure .ran
  | .schedule r _ panics => do
    let (_, rx) ← reactor r
    orFail rx.submit
    if panics then taskFailed rx
    pure .ran
  | .shutdown r => do
    let (i, rx) ← reactor r
    putReactor i rx.shutdown
    pure .unit
  | .isShutDown r => do
    let (_, rx) ← reactor r
    pure (.flag rx.shutDown)
  | .identifier r => do
    let (_, rx) ← reactor r
    pure (.text rx.identifier)
  | .describeReactor r => do
    let (_, rx) ← reactor r
    pure (.text rx.describe)
  | .clockSet r => do
    let _ ← reactor r
    pure (.flag (decide (Reactor.clockThreshold < (← get).clock)))
  | .manager name h root ids kind => do
    let e ← handleEntry h
    let m ← orDirFail (Manager.make e.handle root ids kind)
    modify fun w => { w with managers := w.managers.insert name m }
    dropMonitorsOf name
    pure .unit
  | .managerRoot m => do
    pure (.text (← manager m).root)
  | .entityPath m id => do
    let mg ← manager m
    let i ← parseId mg.ids id
    pure (.text (mg.entityPath i))
  | .create m id value => do
    let mg ← manager m
    let i ← parseId mg.ids id
    let ent ← entityOf mg.kind value
    .text <$> reply (mg.create (← service) i ent)
  | .updateEntity m id value => do
    let mg ← manager m
    let i ← parseId mg.ids id
    let ent ← entityOf mg.kind value
    let _ ← reply (mg.update (← service) i ent)
    pure .unit
  | .deleteEntity m id => do
    let mg ← manager m
    let i ← parseId mg.ids id
    let _ ← reply (mg.delete (← service) i)
    pure .unit
  | .entityExists m id => do
    let mg ← manager m
    let i ← parseId mg.ids id
    pure (.flag (mg.exists (← service) i))
  | .describeManager m => do
    pure (.text (← manager m).describe)
  | .list m watch => do
    let mg ← manager m
    let wid ← watcherFor watch
    let (ids, sv) ← orFail (mg.listAndWatch (← service) wid)
    setService sv
    pure (.ids ids)
  | .getEntity m id watch => do
    let mg ← manager m
    let i ← parseId mg.ids id
    let wid ← watcherFor watch
    let (res, sv) := mg.getAndWatch (← service) i wid
    setService sv
    .entity <$> orFail res
  | .prepareCreate m id value commit => do
    let mg ← manager m
    let i ← parseId mg.ids id
    let ent ← entityOf mg.kind value
    let ops := mg.prepareCreate (← service) i ent
    if commit then
      let rs ← reply (mg.handle.multi (← service) ops)
      pure (.prepared ops (some rs))
    else pure (.prepared ops none)
  | .prepareDelete m id commit => do
    let mg ← manager m
    let i ← parseId mg.ids id
    let ops := mg.prepareDelete i
    if commit then
      let rs ← reply (mg.handle.multi (← service) ops)
      pure (.prepared ops (some rs))
    else pure (.prepared ops none)
  | .idSet m name => do
    let mg ← manager m
    let n ← defineMonitor { name, manager := m, kind := .idSet }
    let wid ← newWatcher (.idSet n)
    modify fun w => { w with idSets := w.idSets.insert n (IdSetMonitor.make mg wid) }
    pure .unit
  | .entityMonitor m name => do
    let mg ← manager m
    let n ← defineMonitor { name, manager := m, kind := .entity }
    putEntityMonitor n (EntityMonitor.make mg)
    pure .unit
  | .idSetStart name => do
    let (n, mon) ← idSet name
    let (res, mon', sv) := mon.start (← service)
    setService sv
    match res with
    | .ok (ids, evs) =>
      putIdSet n mon' evs
      pure (.ids ids)
    | .error f =>
      putIdSet n mon' []
      throw (.failure f)
  | .idSetStop name => do
    let (n, mon) ← idSet name
    putIdSet n mon.stop []
    pure .unit
  | .idSetCurrent name => do
    pure (.ids ((← idSet name).2.known.mergeSort EntityId.le))
  | .idSetClose name => do
    let (n, _) ← idSet name
    closeIdSet n
    pure .unit
  | .entityClose name => do
    let (n, _) ← entityMonitor name
    closeEntityMonitor n
    pure .unit
  | .entityWatch name id => do
    let (n, mon) ← entityMonitor name
    let i ← parseId mon.manager.ids id
    let fresh := (← get).nextWatcher
    if (mon.entry? i).isNone then
      let _ ← newWatcher (.entity n i)
    let (res, mon', sv) := mon.watch (← service) i fresh
    setService sv
    putEntityMonitor n mon'
    .entity <$> orFail res
  | .entityUnwatch name id => do
    let (n, mon) ← entityMonitor name
    let i ← parseId mon.manager.ids id
    let (was, mon') := mon.unwatch i
    putEntityMonitor n mon'
    pure (.flag was)
  | .entityIsWatching name id => do
    let (_, mon) ← entityMonitor name
    let i ← parseId mon.manager.ids id
    pure (.flag (mon.isWatching i))

end ScriptM

namespace MonitorEvent

/-- The id an event is about. -/
def id : MonitorEvent → EntityId
  | .idSet (.created i) | .idSet (.deleted i) | .entity (.updated i _) | .entity (.deleted i) => i

/-- Whether the event reports a removal. -/
def isDeleted : MonitorEvent → Bool
  | .idSet (.deleted _) | .entity (.deleted _) => true
  | _ => false

/-- Whether the event comes from an entity monitor. -/
def isEntity : MonitorEvent → Bool
  | .entity _ => true
  | _ => false

/-- Report order of entity events: by id, updates before removals. -/
def entityLe (a b : MonitorEvent) : Bool :=
  match a.id.compare b.id with
  | .lt => true
  | .gt => false
  | .eq => !a.isDeleted || b.isDeleted

/-- A run of removals in ascending order of id. -/
def sortRun (run : List MonitorEvent) : List MonitorEvent :=
  run.mergeSort fun a b => a.id.le b.id

/-- Each run of removals in ascending order of id, everything else where it stands. -/
def sortDeletedRuns (es : List MonitorEvent) : List MonitorEvent :=
  let (done, run) := es.foldl
    (fun (acc : List MonitorEvent × List MonitorEvent) e =>
      if e.isDeleted then (acc.1, acc.2 ++ [e]) else (acc.1 ++ sortRun acc.2 ++ [e], []))
    ([], [])
  done ++ sortRun run

/-- The events of one monitor in report order. -/
def reportOrder (es : List MonitorEvent) : List MonitorEvent :=
  if es.any isEntity then es.mergeSort entityLe else sortDeletedRuns es

end MonitorEvent

namespace World

/-- The events a step reports under each monitor name, in name order: of the monitors of that
name that sent events, those of the last by `MonitorTag.precedes`, in report order. -/
def reportedEvents (w : World) : List (String × List MonitorEvent) :=
  let tagged := w.events.map fun (n, e) => (w.monitorTags[n]?.getD ⟨"", "", .idSet⟩, e)
  let names := (tagged.map (·.1.name)).eraseDups.mergeSort (fun a b => decide (a ≤ b))
  names.map fun name =>
    let own := tagged.filter (·.1.name == name)
    let last := own.foldl (fun acc x => if acc.precedes x.1 then x.1 else acc)
      ((own.head?.map (·.1)).getD ⟨name, "", .idSet⟩)
    let chosen := own.filter fun x => x.1.manager == last.manager && x.1.kind == last.kind
    (name, MonitorEvent.reportOrder (chosen.map (·.2)))

/-- Runs a step and answers it; the world keeps what the step did, also when it failed. -/
def step (s : Step) (w : World) : Answer × World :=
  let w := { w with fired := ∅, events := [] }
  let (result, w') := match ScriptM.exec s w with
    | .ok v w' => (Except.ok v, w')
    | .error e w' => (Except.error e, w')
  ({ result, fired := w'.fired.toList, events := w'.reportedEvents }, w')

end World

end CoordStore
