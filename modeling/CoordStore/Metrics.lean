/-!
# Counters

The counters a running directory keeps: watcher deliveries and their failures, batch
outcomes, expired ephemeral nodes, and failed reactor tasks per reactor. A report lists each
counter as a sample named in the exposition format (name, then labels between braces) with
its value, and leaves out counters that are zero.
-/

namespace CoordStore

/-- How a batch ended. -/
inductive BatchOutcome where
  | committed
  | rolledBack
  | rejected
  deriving DecidableEq, Repr

/-- The label value of a batch outcome. -/
def BatchOutcome.label : BatchOutcome → String
  | committed => "committed"
  | rolledBack => "rolled_back"
  | rejected => "rejected"

/-- The counters, all starting at zero. -/
structure Metrics where
  /-- Watchers called, once per distinct watcher per delivering operation. -/
  watchersNotified : Nat := 0
  /-- Watchers that failed while being called directly. -/
  watcherFailures : Nat := 0
  committed : Nat := 0
  rolledBack : Nat := 0
  rejected : Nat := 0
  /-- Ephemeral nodes removed when their session expired. -/
  ephemeralsExpired : Nat := 0
  /-- Failed reactor tasks, by reactor identifier, in order of first failure. -/
  taskFailures : List (String × Nat) := []
  deriving DecidableEq, Repr

namespace Metrics

/-- Counts one batch outcome. -/
def countBatch (m : Metrics) : BatchOutcome → Metrics
  | .committed => { m with committed := m.committed + 1 }
  | .rolledBack => { m with rolledBack := m.rolledBack + 1 }
  | .rejected => { m with rejected := m.rejected + 1 }

/-- Adds one to the counter of a key in a list of keyed counters. -/
def bump (xs : List (String × Nat)) (key : String) : List (String × Nat) :=
  if xs.any (·.1 == key) then xs.map fun p => if p.1 == key then (p.1, p.2 + 1) else p
  else xs ++ [(key, 1)]

/-- Counts one failed task of the reactor with the given identifier. -/
def countTaskFailure (m : Metrics) (identifier : String) : Metrics :=
  { m with taskFailures := bump m.taskFailures identifier }

/-- A label value with backslash, double quote and line feed escaped. -/
def escapeLabel (s : String) : String :=
  String.ofList (s.toList.flatMap fun c =>
    if c = '\\' then ['\\', '\\'] else if c = '"' then ['\\', '"']
    else if c = '\n' then ['\\', 'n'] else [c])

/-- A sample name with one label. -/
def sample (name label value : String) : String :=
  name ++ "\x7b" ++ label ++ "=\"" ++ escapeLabel value ++ "\"\x7d"

/-- Every counter as a named sample, zeros included. -/
def samples (m : Metrics) : List (String × Nat) :=
  [("directory_watchers_notified", m.watchersNotified),
   ("directory_watcher_failures", m.watcherFailures),
   (sample "directory_batch_outcomes" "outcome" BatchOutcome.committed.label, m.committed),
   (sample "directory_batch_outcomes" "outcome" BatchOutcome.rolledBack.label, m.rolledBack),
   (sample "directory_batch_outcomes" "outcome" BatchOutcome.rejected.label, m.rejected),
   ("directory_ephemerals_expired", m.ephemeralsExpired)] ++
  m.taskFailures.map fun p => (sample "reactor_task_failures" "reactor" p.1, p.2)

/-- The samples that are not zero. -/
def report (m : Metrics) : List (String × Nat) :=
  m.samples.filter (·.2 != 0)

end Metrics

end CoordStore
