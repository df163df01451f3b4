import CoordStore.Store.Handle
/-!
# Operations on the service

An operation is issued to the service through a handle, or is the expiry of a session. Its step
gives the service after it and the watchers it hands over to be called; a read that fails leaves
the service as it was. Script watchers run such operations from their callbacks.
-/

namespace CoordStore

/-- One operation issued to the service: through a handle, or the expiry of a session. -/
inductive Action where
  | add (h : Handle) (path : String) (data : Option (List UInt8)) (mode : CreateMode)
  | update (h : Handle) (path : String) (data : Option (List UInt8))
  | delete (h : Handle) (path : String)
  | get (h : Handle) (path : String) (watcher : Option Nat)
  | children (h : Handle) (path : String) (watcher : Option Nat)
  | multi (h : Handle) (ops : List BatchOp)
  | expire (session : Int)

namespace Action

/-- The service after an operation, with the watchers it notifies. A read that fails leaves
the service as it was. -/
def step : Action → Service → Service × List Nat
  | add h p d m, sv => let r := h.add sv p d m; (r.service, r.notify)
  | update h p d, sv => let r := h.update sv p d; (r.service, r.notify)
  | delete h p, sv => let r := h.delete sv p; (r.service, r.notify)
  | get h p w, sv =>
    match h.get sv p w with
    | .ok (_, sv') => (sv', [])
    | .error _ => (sv, [])
  | children h p w, sv =>
    match h.children sv p w with
    | .ok (_, sv') => (sv', [])
    | .error _ => (sv, [])
  | multi h ops, sv => let r := h.multi sv ops; (r.service, r.notify)
  | expire s, sv => let r := sv.expire s; (r.service, r.notify)

/-- The service after a run of operations. -/
def run : List Action → Service → Service
  | [], sv => sv
  | a :: acts, sv => run acts (a.step sv).1

end Action

end CoordStore
