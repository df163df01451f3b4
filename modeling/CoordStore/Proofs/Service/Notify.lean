import CoordStore.Proofs.Service.Atomic
import Mathlib.Data.Finset.Card

/-!
# Watchers fire once

A watcher registered on a node waits for one change of it. An operation that changes the tree
and goes through delivers each watcher once, exactly those that waited, when the operation
started, on a set one of its changes fired: the data set of a node whose payload it replaced
or that it deleted, the children set of a node that gained or lost a child. Every set one of
its changes took is then empty, among them the children set of a node it deleted, which is
dropped without firing. An operation that fails delivers nothing and leaves the registry as it
was (`watchers_fire_once`).

Since a delivery empties a set the watcher was in, and only a read can put it into a set, a
watcher is never delivered more often than reads put it into a set that did not hold it.
-/

namespace CoordStore

/-! ## What an operation changed -/

namespace Edit

variable {α : Type}

/-- The record an edit ends with, run from a store. -/
def outcome (e : Edit α) (s : Store) : Txn :=
  match e (Txn.start s) with
  | .ok _ x => x
  | .error _ x => x

/-- A stepwise edit reaches its record by steps. -/
theorem steps_outcome {e : Edit α} (he : e.Stepwise) (s : Store) :
    Txn.Steps (Txn.start s) (outcome e s) := by
  unfold outcome
  cases hr : e (Txn.start s) with
  | ok a x => exact (he _).1 a x hr
  | error err x => exact (he _).2 err x hr

/-- An edit that, when it fails, has recorded nothing and left the registry alone. -/
def Clean (e : Edit α) : Prop :=
  ∀ x err y, e x = .error err y → y.batch = x.batch ∧ y.store.watches = x.store.watches

variable {root : Nat} {path : String} {data : Option (List UInt8)}

theorem clean_create (mode : CreateMode) (session : Int) :
    Clean (create root path data mode session) := by
  intro x err y h
  rcases create_eq_error h with ⟨-, rfl⟩ | ⟨-, -, -, ⟨-, rfl⟩ | ⟨-, -, -, -, rfl⟩⟩ <;>
    exact ⟨rfl, rfl⟩

theorem clean_setData : Clean (setData root path data) := by
  intro x err y h
  obtain ⟨-, rfl⟩ := setData_eq_error h
  exact ⟨rfl, rfl⟩

theorem clean_delete : Clean (delete root path) := by
  intro x err y h
  obtain ⟨-, rfl⟩ := delete_eq_error h
  exact ⟨rfl, rfl⟩

end Edit

namespace Action

/-- Whether the operation may change the tree: every operation but the reads. -/
def isWrite : Action → Bool
  | get .. | children .. => false
  | _ => true

/-- Whether the operation went through. -/
def succeeds : Action → Service → Bool
  | add h p d m, sv => (h.add sv p d m).result.toBool
  | update h p d, sv => (h.update sv p d).result.toBool
  | delete h p, sv => (h.delete sv p).result.toBool
  | get h p w, sv => (h.get sv p w).toBool
  | children h p w, sv => (h.children sv p w).toBool
  | multi h ops, sv => (h.multi sv ops).result.toBool
  | expire s, sv => (sv.expire s).result.toBool

/-- The changes an operation made to the tree, newest first; none for a read or a batch that
was refused. -/
def changes : Action → Service → List Change
  | add h p d m, sv => (Edit.outcome (Edit.create h.root p d m h.session) sv.store).batch.journal
  | update h p d, sv => (Edit.outcome (Edit.setData h.root p d) sv.store).batch.journal
  | delete h p, sv => (Edit.outcome (Edit.delete h.root p) sv.store).batch.journal
  | get .., _ => []
  | children .., _ => []
  | multi h ops, sv =>
    match ops.mapM BatchOp.toWrite? with
    | none => []
    | some ws => (Edit.outcome (ws.mapM (Edit.apply h.root h.session)) sv.store).batch.journal
  | expire s, sv => (Edit.outcome (Edit.expire s) sv.store).batch.journal

end Action

/-! ## One operation -/

namespace Service

variable {α : Type} {sv : Service}

/-- What a single operation that went through did: it ran its edit to some record, keeps its
store and delivers its pending watchers. -/
theorem single_of_ok {e : Edit α} (he : e.Stepwise) (hwf : sv.store.WF)
    (hok : (sv.single e).result.toBool = true) :
    ∃ x, x.Tracks sv.store ∧ x.store.WF ∧ (sv.single e).notify = x.pending ∧
      (sv.single e).service.store = x.store ∧ (Edit.outcome e sv.store) = x := by
  unfold single at hok ⊢
  cases hr : e (Txn.start sv.store) with
  | ok a x =>
    obtain ⟨ht, hxwf⟩ := tracks_of_stepwise he hwf (.inl ⟨a, hr⟩)
    exact ⟨x, ht, hxwf, rfl, rfl, by simp [Edit.outcome, hr]⟩
  | error err x => simp [hr, Except.toBool] at hok

/-- A single operation that failed delivered nothing and left the registry alone. -/
theorem single_of_error {e : Edit α} (he : e.Clean) (hfail : (sv.single e).result.toBool = false) :
    (sv.single e).notify = [] ∧ (sv.single e).service.store.watches = sv.store.watches := by
  unfold single at hfail ⊢
  cases hr : e (Txn.start sv.store) with
  | ok a x => simp [hr, Except.toBool] at hfail
  | error err x =>
    obtain ⟨hb, hw⟩ := he _ err x hr
    simp only
    rw [Txn.pending, hb]
    exact ⟨rfl, hw⟩

end Service

namespace Action

variable {sv : Service}

/-- A write that went through ran an edit by steps to a record: the service keeps the
record's store, delivers its pending watchers, and its changes are the record's journal. -/
theorem steps_of_succeeds {a : Action} (hwf : sv.store.WF) (hw : a.isWrite = true)
    (hok : a.succeeds sv = true) :
    ∃ x : Txn, Txn.Steps (Txn.start sv.store) x ∧ (a.step sv).2 = x.pending ∧
      (a.step sv).1.store = x.store ∧ a.changes sv = x.batch.journal := by
  cases a with
  | add h p d m =>
    obtain ⟨x, -, -, hn, hs, ho⟩ := Service.single_of_ok Edit.stepwise_create hwf hok
    exact ⟨x, ho ▸ Edit.steps_outcome Edit.stepwise_create _, hn,
      by simp only [step, Handle.add] at hs ⊢; rw [hs], by simp [changes, ho]⟩
  | update h p d =>
    obtain ⟨x, -, -, hn, hs, ho⟩ := Service.single_of_ok Edit.stepwise_setData hwf hok
    exact ⟨x, ho ▸ Edit.steps_outcome Edit.stepwise_setData _, hn,
      by simp only [step, Handle.update] at hs ⊢; rw [hs], by simp [changes, ho]⟩
  | delete h p =>
    obtain ⟨x, -, -, hn, hs, ho⟩ := Service.single_of_ok Edit.stepwise_delete hwf hok
    exact ⟨x, ho ▸ Edit.steps_outcome Edit.stepwise_delete _, hn,
      by simp only [step, Handle.delete] at hs ⊢; rw [hs], by simp [changes, ho]⟩
  | get => cases hw
  | children => cases hw
  | multi h ops =>
    simp only [succeeds] at hok
    simp only [step, changes]
    unfold Handle.multi at hok ⊢
    cases hm : ops.mapM BatchOp.toWrite? with
    | none => simp [hm, Except.toBool] at hok
    | some ws =>
      simp only [hm] at hok ⊢
      cases hr : (ws.mapM (Edit.apply h.root h.session)) (Txn.start sv.store) with
      | ok rs x =>
        exact ⟨x, (Edit.stepwise_batch ws _).1 rs x hr, rfl, rfl, by simp [Edit.outcome, hr]⟩
      | error e x => simp [hr, Except.toBool] at hok
  | expire s =>
    simp only [succeeds] at hok
    simp only [step, changes]
    unfold Service.expire at hok ⊢
    cases hr : Edit.expire s (Txn.start sv.store) with
    | ok n x =>
      exact ⟨x, (Edit.stepwise_expire s _).1 n x hr, rfl, rfl, by simp [Edit.outcome, hr]⟩
    | error e x => simp [hr, Except.toBool] at hok

/-- A write that went through ran an edit to a record that tracks it: the service keeps the
record's store, delivers its pending watchers, and its changes are the record's journal. -/
theorem write_of_succeeds {a : Action} (hwf : sv.store.WF) (hw : a.isWrite = true)
    (hok : a.succeeds sv = true) :
    ∃ x : Txn, x.Tracks sv.store ∧ (a.step sv).2 = x.pending ∧
      (a.step sv).1.store = x.store ∧ a.changes sv = x.batch.journal := by
  obtain ⟨x, hsteps, hn, hs, hc⟩ := steps_of_succeeds hwf hw hok
  exact ⟨x, (Txn.Tracks.start sv.store).steps hwf hsteps, hn, hs, hc⟩

/-- An operation that failed delivered nothing and left the registry alone; a batch or an
expiry that failed was taken back. -/
theorem of_fails (a : Action) (hwf : sv.store.WF) (hfail : a.succeeds sv = false) :
    (a.step sv).2 = [] ∧ (a.step sv).1.store.watches = sv.store.watches := by
  cases a with
  | add h p d m => exact Service.single_of_error (Edit.clean_create m h.session) hfail
  | update h p d => exact Service.single_of_error Edit.clean_setData hfail
  | delete h p => exact Service.single_of_error Edit.clean_delete hfail
  | get h p w =>
    simp only [succeeds] at hfail
    simp only [step]
    cases hg : h.get sv p w with
    | ok r => simp [hg, Except.toBool] at hfail
    | error e => exact ⟨rfl, rfl⟩
  | children h p w =>
    simp only [succeeds] at hfail
    simp only [step]
    cases hg : h.children sv p w with
    | ok r => simp [hg, Except.toBool] at hfail
    | error e => exact ⟨rfl, rfl⟩
  | multi h ops =>
    simp only [succeeds] at hfail
    simp only [step]
    unfold Handle.multi at hfail ⊢
    cases hm : ops.mapM BatchOp.toWrite? with
    | none => exact ⟨rfl, rfl⟩
    | some ws =>
      simp only [hm] at hfail ⊢
      cases hr : (ws.mapM (Edit.apply h.root h.session)) (Txn.start sv.store) with
      | ok rs x => simp [hr, Except.toBool] at hfail
      | error e x =>
        obtain ⟨ht, hxwf⟩ := Service.tracks_of_stepwise (Edit.stepwise_batch ws) hwf
          (.inr ⟨e, hr⟩)
        exact ⟨rfl, ht.rollback_watches hwf hxwf.sound⟩
  | expire s =>
    simp only [succeeds] at hfail
    simp only [step]
    unfold Service.expire at hfail ⊢
    cases hr : Edit.expire s (Txn.start sv.store) with
    | ok n x => simp [hr, Except.toBool] at hfail
    | error e x =>
      obtain ⟨ht, hxwf⟩ := Service.tracks_of_stepwise (Edit.stepwise_expire s) hwf (.inr ⟨e, hr⟩)
      exact ⟨rfl, ht.rollback_watches hwf hxwf.sound⟩

end Action

/-! ## Deliveries along a run -/

namespace Registry

/-- The sets a watcher waits in, by node and kind. -/
def armed (r : Registry) (w : Nat) : Finset (Nat × WatchKind) :=
  ((r.data.keys.map (·, WatchKind.data) ++ r.children.keys.map (·, WatchKind.children)).filter
    fun p => decide (w ∈ r.waiting p.1 p.2)).toFinset

theorem mem_armed {r : Registry} {w : Nat} {p : Nat × WatchKind} :
    p ∈ r.armed w ↔ w ∈ r.waiting p.1 p.2 := by
  obtain ⟨n, k⟩ := p
  simp only [armed, List.mem_toFinset, List.mem_filter, List.mem_append, List.mem_map,
    decide_eq_true_eq, and_iff_right_iff_imp]
  intro hw
  have hkey : n ∈ r.table k := by
    rw [Std.ExtTreeMap.mem_iff_isSome_getElem?]
    unfold waiting at hw
    cases ht : (r.table k)[n]? with
    | none => simp [ht] at hw
    | some ws => rfl
  cases k
  · exact Or.inl ⟨n, Std.ExtTreeMap.mem_keys.2 hkey, rfl⟩
  · exact Or.inr ⟨n, Std.ExtTreeMap.mem_keys.2 hkey, rfl⟩

end Registry

namespace Action

/-- Whether the operation is a read that puts the watcher into a set that did not hold it. -/
def arms (w : Nat) : Action → Service → Bool
  | get h p (some w'), sv =>
    w' == w && match sv.store.resolve h.root p with
      | .ok id => !(sv.store.watches.waiting id .data).contains w
      | .error _ => false
  | children h p (some w'), sv =>
    w' == w && match sv.store.resolve h.root p with
      | .ok id => !(sv.store.watches.waiting id .children).contains w
      | .error _ => false
  | _, _ => false

/-- How many watchers of a run are the watcher `w`. -/
def notifications (w : Nat) : List Action → Service → Nat
  | [], _ => 0
  | a :: acts, sv => (a.step sv).2.count w + notifications w acts (a.step sv).1

/-- How many operations of a run put the watcher `w` into a set that did not hold it. -/
def armings (w : Nat) : List Action → Service → Nat
  | [], _ => 0
  | a :: acts, sv => (if a.arms w sv then 1 else 0) + armings w acts (a.step sv).1

end Action

namespace Store

/-- Registering on a node puts the watcher in that one set at most. -/
theorem armed_arm_subset (s : Store) (id : Nat) (k : WatchKind) (w' : Option Nat) (w : Nat) :
    (s.arm id k w').watches.armed w ⊆ insert (id, k) (s.watches.armed w) := by
  intro p hp
  rw [Registry.mem_armed] at hp
  rw [Finset.mem_insert, Registry.mem_armed]
  cases w' with
  | none => exact Or.inr hp
  | some v =>
    simp only [arm, Registry.waiting_register] at hp
    split_ifs at hp with hslot
    · obtain ⟨rfl, rfl, -⟩ := hslot
      rcases List.mem_append.1 hp with hp | hp
      · exact Or.inr hp
      · exact Or.inl rfl
    · exact Or.inr hp

/-- Registering a watcher already there, or another one, adds no set of `w`. -/
theorem armed_arm_of_not_new (s : Store) (id : Nat) (k : WatchKind) (w' : Option Nat) (w : Nat)
    (hnew : w' = some w → w ∈ s.watches.waiting id k) :
    (s.arm id k w').watches.armed w ⊆ s.watches.armed w := by
  intro p hp
  rw [Registry.mem_armed] at hp ⊢
  cases w' with
  | none => exact hp
  | some v =>
    simp only [arm, Registry.waiting_register] at hp
    split_ifs at hp with hslot
    · obtain ⟨rfl, rfl, -⟩ := hslot
      rcases List.mem_append.1 hp with hp | hp
      · exact hp
      · obtain rfl := List.mem_singleton.1 hp
        exact hnew rfl
    · exact hp

end Store

namespace Action

variable {sv : Service}

/-- One operation: what it delivers to `w` and the sets `w` is left in are at most the sets
`w` was in, and the one a read may add. -/
theorem count_add_card_armed_le (a : Action) (hwf : sv.store.WF) (w : Nat) :
    (a.step sv).2.count w + ((a.step sv).1.store.watches.armed w).card ≤
      (if a.arms w sv then 1 else 0) + (sv.store.watches.armed w).card := by
  cases hsucc : a.succeeds sv
  · obtain ⟨hn, hreg⟩ := a.of_fails hwf hsucc
    rw [hn, hreg]
    simp
  · cases hw : a.isWrite
    · -- a read that went through registers on the node it found
      cases a with
      | get h p w' =>
        simp only [succeeds, step] at hsucc ⊢
        cases hg : h.get sv p w' with
        | error e => simp [hg, Except.toBool] at hsucc
        | ok r =>
          obtain ⟨id, m, hres, -, rfl⟩ := (Handle.get_eq_ok h).1 hg
          simp only [List.count_nil, Nat.zero_add]
          by_cases harm : arms w (get h p w') sv = true
          · rw [if_pos harm]
            exact (Finset.card_le_card (Store.armed_arm_subset _ _ _ _ _)).trans
              (by rw [Nat.add_comm]; exact Finset.card_insert_le _ _)
          · rw [if_neg harm, Nat.zero_add]
            refine Finset.card_le_card (Store.armed_arm_of_not_new _ _ _ _ _ ?_)
            rintro rfl
            by_contra hnot
            exact harm (by simp [arms, hres, hnot])
      | children h p w' =>
        simp only [succeeds, step] at hsucc ⊢
        cases hg : h.children sv p w' with
        | error e => simp [hg, Except.toBool] at hsucc
        | ok r =>
          obtain ⟨id, m, hres, -, rfl⟩ := (Handle.children_eq_ok h).1 hg
          simp only [List.count_nil, Nat.zero_add]
          by_cases harm : arms w (children h p w') sv = true
          · rw [if_pos harm]
            exact (Finset.card_le_card (Store.armed_arm_subset _ _ _ _ _)).trans
              (by rw [Nat.add_comm]; exact Finset.card_insert_le _ _)
          · rw [if_neg harm, Nat.zero_add]
            refine Finset.card_le_card (Store.armed_arm_of_not_new _ _ _ _ _ ?_)
            rintro rfl
            by_contra hnot
            exact harm (by simp [arms, hres, hnot])
      | _ => cases hw
    · -- a write that went through: a delivery to `w` empties a set `w` was in
      obtain ⟨x, ht, hn, hreg, -⟩ := write_of_succeeds hwf hw hsucc
      have harms : a.arms w sv = false := by cases a <;> first | rfl | cases hw
      rw [hn, hreg, harms, if_neg (by simp), Nat.zero_add]
      have hsub : x.store.watches.armed w ⊆ sv.store.watches.armed w := by
        intro p hp
        rw [Registry.mem_armed, ht.waiting] at hp
        rw [Registry.mem_armed]
        split_ifs at hp
        · cases hp
        · exact hp
      by_cases hmem : w ∈ x.pending
      · obtain ⟨n, k, hf, hwn⟩ := ht.mem_pending.1 hmem
        have hgone : (n, k) ∉ x.store.watches.armed w := by
          rw [Registry.mem_armed, ht.waiting, if_pos (consumedBy_of_firedBy hf)]
          exact List.not_mem_nil
        have hlt := Finset.card_lt_card
          (Finset.ssubset_iff_subset_ne.2 ⟨hsub, fun he => hgone (he ▸ Registry.mem_armed.2 hwn)⟩)
        rw [List.count_eq_one_of_mem (Txn.Tracks.nodup_pending x) hmem]
        omega
      · rw [List.count_eq_zero_of_not_mem hmem, Nat.zero_add]
        exact Finset.card_le_card hsub

/-- Along a run from a well-formed service, the deliveries to `w` and the sets `w` is left in
are at most the sets it started in and the reads that put it into a new set. -/
theorem notifications_add_card_armed_le (w : Nat) :
    ∀ (acts : List Action) {sv : Service}, sv.store.WF →
      notifications w acts sv + ((run acts sv).store.watches.armed w).card ≤
        armings w acts sv + (sv.store.watches.armed w).card
  | [], sv, _ => by simp [notifications, armings, run]
  | a :: acts, sv, hwf => by
    have hstep := a.count_add_card_armed_le hwf w
    have hrest := notifications_add_card_armed_le w acts (a.wf_step hwf)
    simp only [notifications, armings, run]
    omega

end Action

/-- One-shot watches. From a reachable service, a write that goes through delivers each
watcher once, exactly those that waited on a set one of its changes fired, and leaves empty
every set its changes took and every other set as it was; an operation that fails delivers
nothing and leaves the registry as it was. Along any run from the empty service, a watcher is
delivered at most as often as reads put it into a set that did not hold it. -/
theorem watchers_fire_once {sv : Service} (hsv : sv.Reachable) (a : Action) (w : Nat) :
    (a.isWrite = true → a.succeeds sv = true →
      (a.step sv).2.Nodup ∧
      (w ∈ (a.step sv).2 ↔
        ∃ n k, firedBy (a.changes sv) n k = true ∧ w ∈ sv.store.watches.waiting n k) ∧
      ∀ n k, (a.step sv).1.store.watches.waiting n k =
        if consumedBy (a.changes sv) n k then [] else sv.store.watches.waiting n k) ∧
    (a.succeeds sv = false →
      (a.step sv).2 = [] ∧ (a.step sv).1.store.watches = sv.store.watches) ∧
    ∀ acts : List Action,
      Action.notifications w acts Service.empty ≤ Action.armings w acts Service.empty := by
  have hwf := hsv.wf
  refine ⟨fun hw hok => ?_, a.of_fails hwf, fun acts => ?_⟩
  · obtain ⟨x, ht, hn, hreg, hch⟩ := Action.write_of_succeeds hwf hw hok
    rw [hn, hreg, hch]
    exact ⟨Txn.Tracks.nodup_pending x, ht.mem_pending, ht.waiting⟩
  · have h := Action.notifications_add_card_armed_le w acts Service.wf_empty
    have hempty : Service.empty.store.watches.armed w = ∅ := by
      ext p
      simp [Registry.mem_armed, Service.empty, Store.empty, Registry.empty, Registry.waiting,
        Registry.table]
      cases p.2 <;> simp
    rw [hempty, Finset.card_empty, Nat.add_zero] at h
    omega

/-- On the empty service, a creation through the top handle goes through and delivers nobody. -/
theorem watchers_fire_once_on_empty :
    Service.empty.Reachable ∧
      ((Action.add (Handle.top 0) "/a" none .persistent).step Service.empty).2.Nodup :=
  ⟨.empty, ((watchers_fire_once .empty (.add (Handle.top 0) "/a" none .persistent) 0).1 rfl
    (by decide)).1⟩

end CoordStore
