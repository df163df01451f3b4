import CoordStore.Proofs.Service.History

/-!
# The expiry of a session

Expiring a session removes, one after the other, the nodes the session owns. An owned node is
an ephemeral leaf below the root, so each removal goes through, and it touches nothing but the
node and its parent's link to it (`Tree.pruned_removeNode`). The whole expiry therefore leaves
every other node as it was but for its links to removed children (`Node.Pruned`), and its record
fires exactly the data watchers of the removed nodes and the children watchers of their
parents, taking the children watchers of the removed nodes without firing them
(`Edit.forM_expireNode_expired`). Read through the record's invariant (`Txn.Tracks`) this
gives what the expiry of a session does to the service (`expire_session_removes_owned`).

A node's owner is the session of the handle that created it when it was created ephemeral,
and it is kept for as long as the node lives.
-/

namespace CoordStore

/-! ## Nodes that lose some children -/

/-- `n'` is `n` with its links to the children among `ids` dropped: the same path, payload,
mode, owner and counter, and the same children but those. -/
structure Node.Pruned (ids : List Nat) (n n' : Node) : Prop where
  path : n'.path = n.path
  data : n'.data = n.data
  mode : n'.mode = n.mode
  owner : n'.owner = n.owner
  sequence : n'.sequence = n.sequence
  children : ∀ (name : String) (c : Nat),
    n'.children[name]? = some c ↔ n.children[name]? = some c ∧ c ∉ ids

namespace Node.Pruned

theorem refl (n : Node) : n.Pruned [] n where
  path := rfl
  data := rfl
  mode := rfl
  owner := rfl
  sequence := rfl
  children := fun _ _ => by simp

theorem trans {A B : List Nat} {n₁ n₂ n₃ : Node} (h₁ : n₁.Pruned A n₂) (h₂ : n₂.Pruned B n₃) :
    n₁.Pruned (A ++ B) n₃ where
  path := h₂.path.trans h₁.path
  data := h₂.data.trans h₁.data
  mode := h₂.mode.trans h₁.mode
  owner := h₂.owner.trans h₁.owner
  sequence := h₂.sequence.trans h₁.sequence
  children := fun name c => by
    rw [h₂.children, h₁.children, List.mem_append, not_or, and_assoc]

end Node.Pruned

/-! ## One removal -/

namespace Tree

variable {t : Tree} {p c : Nat} {pn n : Node} {name : String}

theorem childAt_iff {q : Nat} {m : Node} (hq : t.nodes[q]? = some m) {name : String} {d : Nat} :
    t.ChildAt q name d ↔ m.children[name]? = some d := by
  simp [ChildAt, hq]

variable (hwf : t.WF) (hp : t.nodes[p]? = some pn) (hch : pn.children[name]? = some c)
  (hn : t.nodes[c]? = some n) (hempty : n.children = ∅)
include hwf hp hch hn hempty

/-- Removing a childless child keeps every other node but for the parent's link to it. -/
theorem pruned_removeNode {q : Nat} {m : Node} (hq : t.nodes[q]? = some m) (hqc : q ≠ c) :
    ∃ m', (t.removeNode p pn name c).nodes[q]? = some m' ∧ m.Pruned [c] m' := by
  -- the one link dropped is the parent's link to `c`, the only link to `c`
  have hchildren : ∀ {m' : Node}, (t.removeNode p pn name c).nodes[q]? = some m' →
      ∀ (name' : String) (d : Nat),
        m'.children[name']? = some d ↔ m.children[name']? = some d ∧ d ∉ [c] := by
    intro m' hm' name' d
    rw [← childAt_iff hm', childAt_removeNode hwf hp hch hn hempty, childAt_iff hq,
      List.mem_singleton]
    constructor
    · rintro ⟨hd, hne⟩
      refine ⟨hd, fun hdc => hne ?_⟩
      subst hdc
      exact hwf.unique ((childAt_iff hq).2 hd) ⟨pn, hp, hch⟩
    · rintro ⟨hd, hdc⟩
      refine ⟨hd, fun hlink => hdc ?_⟩
      obtain ⟨rfl, rfl⟩ := hlink
      rw [hp] at hq
      cases hq
      rw [hch] at hd
      exact (Option.some.inj hd).symm
  have hlookup : (t.removeNode p pn name c).nodes[q]? = _ := getElem?_removeNode q
  rw [if_neg (Ne.symm hqc)] at hlookup
  by_cases hpq : p = q
  · subst hpq
    rw [if_pos rfl] at hlookup
    rw [hp] at hq
    cases hq
    exact ⟨_, hlookup, rfl, rfl, rfl, rfl, rfl, hchildren hlookup⟩
  · rw [if_neg hpq, hq] at hlookup
    exact ⟨m, hlookup, rfl, rfl, rfl, rfl, rfl, hchildren hlookup⟩

end Tree

/-! ## Removing the owned nodes one after the other -/

section Journal

variable {a b : List Change} {n : Nat} {k : WatchKind}

theorem firedBy_append : firedBy (a ++ b) n k = (firedBy a n k || firedBy b n k) :=
  List.any_append

theorem removedBy_append : removedBy (a ++ b) n = (removedBy a n || removedBy b n) :=
  List.any_append

theorem consumedBy_data (journal : List Change) (n : Nat) :
    consumedBy journal n .data = firedBy journal n .data := by
  induction journal with
  | nil => rfl
  | cons c journal ih => simp [Change.takes_data, ih]

/-- A children set is consumed when it is fired, or when its node is removed. -/
theorem consumedBy_children (journal : List Change) (n : Nat) :
    consumedBy journal n .children = (firedBy journal n .children || removedBy journal n) := by
  induction journal with
  | nil => rfl
  | cons c journal ih =>
    simp only [consumedBy_cons, firedBy_cons, removedBy_cons, Change.takes_children, ih]
    cases c.fires n .children <;> cases c.removes n <;> simp

end Journal

/-- What removing the nodes `ids` one after the other from `x` leaves in `y`, recording the
changes `cs`: the removed nodes are gone, every other node keeps all but its links to them, and
the record fires the data watchers of the removed nodes and the children watchers of their
parents, and removes exactly them. -/
structure Txn.Expired (ids : List Nat) (x y : Txn) (cs : List Change) : Prop where
  journal : y.batch.journal = cs ++ x.batch.journal
  nextId : y.store.tree.nextId = x.store.tree.nextId
  gone : ∀ q ∈ ids, y.store.tree.nodes[q]? = none
  absent : ∀ q : Nat, x.store.tree.nodes[q]? = none → y.store.tree.nodes[q]? = none
  kept : ∀ (q : Nat) (m : Node), x.store.tree.nodes[q]? = some m → q ∉ ids →
    ∃ m', y.store.tree.nodes[q]? = some m' ∧ m.Pruned ids m'
  removed : ∀ q : Nat, removedBy cs q = true ↔ q ∈ ids
  firedData : ∀ q : Nat, firedBy cs q .data = true ↔ q ∈ ids
  firedChildren : ∀ q : Nat, firedBy cs q .children = true ↔
    ∃ name, ∃ c ∈ ids, x.store.tree.ChildAt q name c

namespace Txn.Expired

theorem nil (x : Txn) : Expired [] x x [] where
  journal := rfl
  nextId := rfl
  gone := fun _ h => by cases h
  absent := fun _ h => h
  kept := fun _ m hm _ => ⟨m, hm, Node.Pruned.refl m⟩
  removed := fun _ => by simp
  firedData := fun _ => by simp
  firedChildren := fun _ => by simp

variable {x y : Txn} {ids : List Nat} {cs : List Change}

/-- Removing the childless child `id` of `p` first, and then the nodes `ids`. -/
theorem cons {id p : Nat} {pn n : Node} {name : String} (hwf : x.store.tree.WF)
    (hp : x.store.tree.nodes[p]? = some pn) (hch : pn.children[name]? = some id)
    (hn : x.store.tree.nodes[id]? = some n) (hempty : n.children = ∅) (hid : id ∉ ids)
    (h : Expired ids (x.applied (x.store.tree.removeNode p pn name id) (.deleted p name id n))
      y cs) :
    Expired (id :: ids) x y (cs ++ [.deleted p name id n]) where
  journal := by
    rw [h.journal]
    simp [Txn.applied]
  nextId := by
    rw [h.nextId, Txn.tree_applied]
    rfl
  gone := by
    intro q hq
    rcases List.mem_cons.1 hq with rfl | hq
    · exact h.absent q (by simp [Tree.getElem?_removeNode])
    · exact h.gone q hq
  absent := by
    intro q hq
    apply h.absent q
    rw [Txn.tree_applied, Tree.getElem?_removeNode]
    split_ifs with hidq hpq
    · rfl
    · subst hpq
      rw [hp] at hq
      cases hq
    · exact hq
  kept := by
    intro q m hm hq
    obtain ⟨m₁, hm₁, hpruned₁⟩ :=
      Tree.pruned_removeNode hwf hp hch hn hempty hm (fun he => hq (he ▸ List.mem_cons_self))
    obtain ⟨m', hm', hpruned⟩ := h.kept q m₁ (by simpa using hm₁)
      (fun hmem => hq (List.mem_cons_of_mem _ hmem))
    exact ⟨m', hm', hpruned₁.trans hpruned⟩
  removed := by
    intro q
    simp [removedBy_append, Change.removes, h.removed, or_comm]
  firedData := by
    intro q
    simp [firedBy_append, Change.fires, h.firedData, or_comm]
  firedChildren := by
    intro q
    -- a link to one of `ids` is kept by the first removal, which drops the link to `id` only
    have hlink : ∀ {name' : String} {c : Nat}, c ∈ ids →
        ((x.applied (x.store.tree.removeNode p pn name id)
          (.deleted p name id n)).store.tree.ChildAt q name' c ↔
            x.store.tree.ChildAt q name' c) := by
      intro name' c hc
      rw [Txn.tree_applied, Tree.childAt_removeNode hwf hp hch hn hempty]
      refine ⟨And.left, fun hqc => ⟨hqc, ?_⟩⟩
      rintro ⟨rfl, rfl⟩
      obtain ⟨pn', hp', hch'⟩ := hqc
      rw [hp] at hp'
      cases hp'
      rw [hch] at hch'
      cases hch'
      exact hid hc
    rw [firedBy_append]
    simp only [firedBy_cons, firedBy_nil, Change.fires, Bool.or_false, Bool.or_eq_true,
      h.firedChildren, beq_iff_eq]
    constructor
    · rintro (⟨name', c, hc, hqc⟩ | rfl)
      · exact ⟨name', c, List.mem_cons_of_mem _ hc, (hlink hc).1 hqc⟩
      · exact ⟨name, id, List.mem_cons_self, pn, hp, hch⟩
    · rintro ⟨name', c, hc, hqc⟩
      rcases List.mem_cons.1 hc with rfl | hc
      · exact .inr (hwf.unique hqc ⟨pn, hp, hch⟩).1
      · exact .inl ⟨name', c, hc, (hlink hc).2 hqc⟩

/-- The payload sets the removals consume are those of the removed nodes. -/
theorem consumed_data (h : Expired ids x y cs) (q : Nat) :
    consumedBy cs q .data = true ↔ q ∈ ids := by
  rw [consumedBy_data]
  exact h.firedData q

/-- The children sets the removals consume are those of the removed nodes and of their
parents. -/
theorem consumed_children (h : Expired ids x y cs) (q : Nat) :
    consumedBy cs q .children = true ↔
      q ∈ ids ∨ ∃ name, ∃ c ∈ ids, x.store.tree.ChildAt q name c := by
  rw [consumedBy_children, Bool.or_eq_true, h.firedChildren q, h.removed q, or_comm]

end Txn.Expired

namespace Edit

/-- Removing distinct owned nodes one after the other goes through, and does what
`Txn.Expired` says: each removal is of an ephemeral leaf, found again from its path. -/
theorem forM_expireNode_expired : ∀ (ids : List Nat) {x : Txn}, x.store.WF → ids.Nodup →
    Tree.rootId ∉ ids → (∀ id ∈ ids, ∃ n, x.store.tree.nodes[id]? = some n ∧ n.owner.isSome) →
    ∃ y cs, (ids.forM expireNode) x = .ok () y ∧ x.Expired ids y cs
  | [], x, _, _, _, _ => ⟨x, [], rfl, .nil x⟩
  | id :: ids, x, hwf, hnodup, hroot, howned => by
    obtain ⟨n, hn, hown⟩ := howned id List.mem_cons_self
    obtain ⟨p, pn, name, hp, hch, hleaf, hexp⟩ :=
      expireNode_of_owned hwf.tree hn (fun h => hroot (h ▸ List.mem_cons_self)) hown
    have hwf₁ := hwf.applied (Tree.Step.deleted hp hch hn hleaf)
    -- the nodes still to remove are still there, and still owned
    have howned₁ : ∀ i ∈ ids, ∃ m, (x.applied (x.store.tree.removeNode p pn name id)
        (.deleted p name id n)).store.tree.nodes[i]? = some m ∧ m.owner.isSome := by
      intro i hi
      obtain ⟨m, hm, hmown⟩ := howned i (List.mem_cons_of_mem _ hi)
      have hne : i ≠ id := fun he => (List.nodup_cons.1 hnodup).1 (he ▸ hi)
      obtain ⟨m', hm', hpruned⟩ := Tree.pruned_removeNode hwf.tree hp hch hn hleaf hm hne
      exact ⟨m', by simpa using hm', hpruned.owner ▸ hmown⟩
    obtain ⟨y, cs, hrun, hexpired⟩ := forM_expireNode_expired ids hwf₁
      (List.nodup_cons.1 hnodup).2 (fun h => hroot (List.mem_cons_of_mem _ h)) howned₁
    exact ⟨y, cs ++ [.deleted p name id n], Edit.bind_eq_ok.2 ⟨(), _, hexp, hrun⟩,
      Txn.Expired.cons hwf.tree hp hch hn hleaf (List.nodup_cons.1 hnodup).1 hexpired⟩

/-- A creation that goes through gives the new node, under the next number, the session as
owner if the node is ephemeral, and no owner otherwise. -/
theorem owner_of_create_eq_ok {root : Nat} {path : String} {data : Option (List UInt8)}
    {mode : CreateMode} {session : Int} {x y : Txn} {a : String}
    (h : create root path data mode session x = .ok a y) :
    ∃ n, y.store.tree.nodes[x.store.tree.nextId]? = some n ∧
      n.owner = if mode.isEphemeral then some session else none := by
  obtain ⟨names, name, parent, absolute, c, t, -, -, hadd, -, rfl⟩ := create_eq_ok.1 h
  obtain ⟨pn, -, -, -, -, -, -, rfl⟩ := Tree.addChild_eq_ok hadd
  exact ⟨Node.fresh (Path.join pn.path (pn.childName name mode).1) data mode
    (if mode.isEphemeral then some session else none), by simp [Tree.getElem?_addNode], rfl⟩

end Edit

namespace Service

variable {sv : Service}

/-- The expiry of a session on a well-formed store whose root nobody owns goes through, and
removes the owned nodes as `Txn.Expired` says. -/
theorem expire_expired (hwf : sv.store.WF) (hroot : sv.store.tree.RootUnowned) (s : Int) :
    ∃ y cs, Edit.expire s (Txn.start sv.store) = .ok (sv.store.tree.ownedBy s).length y ∧
      (Txn.start sv.store).Expired (sv.store.tree.ownedBy s) y cs := by
  have hrootOut : Tree.rootId ∉ sv.store.tree.ownedBy s := fun h => by
    obtain ⟨n, hn, hown⟩ := Tree.mem_ownedBy.1 h
    simp [hroot n hn] at hown
  obtain ⟨y, cs, hrun, hexpired⟩ := Edit.forM_expireNode_expired (sv.store.tree.ownedBy s)
    (x := Txn.start sv.store) hwf (Tree.nodup_ownedBy s) hrootOut (fun id hid => by
      obtain ⟨n, hn, hown⟩ := Tree.mem_ownedBy.1 hid
      exact ⟨n, hn, by simp [hown]⟩)
  exact ⟨y, cs, Edit.bind_eq_ok.2 ⟨sv.store, _, rfl, Edit.bind_eq_ok.2 ⟨(), y, hrun, rfl⟩⟩,
    hexpired⟩

end Service

/-- The expiry of a session, in every reachable state. The nodes the session owns are those
`ownedBy` lists, each once; the expiry goes through and gives their number. Afterwards they
are gone, no node has come, and every other node keeps its path, payload, mode, owner and
counter, and all its children but the removed ones; the next number stays. The watchers
notified, each once, are those that waited on the payload of a removed node or on the children
of its parent: these sets are emptied, the children sets of removed nodes are emptied without
being notified, and every other set stays. A node's owner is set when it is created, to the
creating session if the node is ephemeral, and it is kept along every run. -/
theorem expire_session_removes_owned {sv : Service} (hsv : sv.Reachable) (s : Int) :
    (∀ q : Nat, q ∈ sv.store.tree.ownedBy s ↔
      ∃ n, sv.store.tree.nodes[q]? = some n ∧ n.owner = some s) ∧
    (sv.store.tree.ownedBy s).Nodup ∧
    (sv.expire s).result = .ok (sv.store.tree.ownedBy s).length ∧
    (∀ q ∈ sv.store.tree.ownedBy s, (sv.expire s).service.store.tree.nodes[q]? = none) ∧
    (∀ q : Nat, sv.store.tree.nodes[q]? = none →
      (sv.expire s).service.store.tree.nodes[q]? = none) ∧
    (∀ (q : Nat) (n : Node), sv.store.tree.nodes[q]? = some n → q ∉ sv.store.tree.ownedBy s →
      ∃ n', (sv.expire s).service.store.tree.nodes[q]? = some n' ∧
        n.Pruned (sv.store.tree.ownedBy s) n') ∧
    (sv.expire s).service.store.tree.nextId = sv.store.tree.nextId ∧
    (sv.expire s).notify.Nodup ∧
    (∀ w : Nat, w ∈ (sv.expire s).notify ↔ ∃ q ∈ sv.store.tree.ownedBy s,
      w ∈ sv.store.watches.waiting q .data ∨
        ∃ p name, sv.store.tree.ChildAt p name q ∧ w ∈ sv.store.watches.waiting p .children) ∧
    (∀ q ∈ sv.store.tree.ownedBy s, ∀ k : WatchKind,
      (sv.expire s).service.store.watches.waiting q k = []) ∧
    (∀ (p : Nat) (name : String) (q : Nat), sv.store.tree.ChildAt p name q →
      q ∈ sv.store.tree.ownedBy s →
      (sv.expire s).service.store.watches.waiting p .children = []) ∧
    (∀ (n : Nat) (k : WatchKind), n ∉ sv.store.tree.ownedBy s →
      (k = .children → ∀ name q, sv.store.tree.ChildAt n name q → q ∉ sv.store.tree.ownedBy s) →
      (sv.expire s).service.store.watches.waiting n k = sv.store.watches.waiting n k) ∧
    (∀ (root : Nat) (path : String) (data : Option (List UInt8)) (mode : CreateMode)
        (session : Int) (x y : Txn) (a : String),
      Edit.create root path data mode session x = .ok a y →
      ∃ n, y.store.tree.nodes[x.store.tree.nextId]? = some n ∧
        n.owner = if mode.isEphemeral then some session else none) ∧
    (∀ (acts : List Action) (q : Nat) (n n' : Node), sv.store.tree.nodes[q]? = some n →
      (Action.run acts sv).store.tree.nodes[q]? = some n' → n'.owner = n.owner) := by
  have hwf := hsv.wf
  obtain ⟨y, cs, hrun, hE⟩ := Service.expire_expired hwf hsv.rootUnowned s
  have htracks := (Service.tracks_of_stepwise (Edit.stepwise_expire s) hwf (.inl ⟨_, hrun⟩)).1
  have hjournal : y.batch.journal = cs := by
    rw [hE.journal]
    simp [Txn.start]
  have hres : (sv.expire s).result = .ok (sv.store.tree.ownedBy s).length := by
    simp [Service.expire, hrun]
  have hstore : (sv.expire s).service.store = y.store := by
    simp [Service.expire, hrun, Service.delivered]
  have hnotify : (sv.expire s).notify = y.pending := by
    simp [Service.expire, hrun]
  refine ⟨fun q => Tree.mem_ownedBy, Tree.nodup_ownedBy s, hres, ?_, ?_, ?_, ?_, ?_, ?_, ?_, ?_,
    ?_, fun root path data mode session x y a h => Edit.owner_of_create_eq_ok h, ?_⟩
  · intro q hq
    rw [hstore]
    exact hE.gone q hq
  · intro q hq
    rw [hstore]
    exact hE.absent q hq
  · intro q n hn hq
    rw [hstore]
    exact hE.kept q n hn hq
  · rw [hstore]
    exact hE.nextId
  · rw [hnotify]
    exact Txn.Tracks.nodup_pending y
  · intro w
    rw [hnotify, htracks.mem_pending, hjournal]
    constructor
    · rintro ⟨n, k, hf, hw⟩
      cases k with
      | data => exact ⟨n, (hE.firedData n).1 hf, .inl hw⟩
      | children =>
        obtain ⟨name, c, hc, hnc⟩ := (hE.firedChildren n).1 hf
        exact ⟨c, hc, .inr ⟨n, name, hnc, hw⟩⟩
    · rintro ⟨q, hq, hw | ⟨p, name, hpq, hw⟩⟩
      · exact ⟨q, .data, (hE.firedData q).2 hq, hw⟩
      · exact ⟨p, .children, (hE.firedChildren p).2 ⟨name, q, hq, hpq⟩, hw⟩
  -- a watch set is emptied when the removals consumed it, and kept otherwise
  · intro q hq k
    rw [hstore, htracks.waiting, hjournal, if_pos]
    cases k with
    | data => exact (hE.consumed_data q).2 hq
    | children => exact (hE.consumed_children q).2 (.inl hq)
  · intro p name q hpq hq
    rw [hstore, htracks.waiting, hjournal,
      if_pos ((hE.consumed_children p).2 (.inr ⟨name, q, hq, hpq⟩))]
  · intro n k hn hk
    rw [hstore, htracks.waiting, hjournal, if_neg]
    cases k with
    | data => exact fun h => hn ((hE.consumed_data n).1 h)
    | children =>
      rintro h
      rcases (hE.consumed_children n).1 h with hmem | ⟨name, q, hq, hnq⟩
      · exact hn hmem
      · exact hk rfl name q hnq hq
  · intro acts q n n' hn hn'
    exact ((Action.later_run acts hwf).kept hn hn').2.2.1

/-- A service where session one owns one node, `/a/e`, below the persistent node `/a`. -/
def Service.ephemeralBelow : Service :=
  Action.run [.add (Handle.top 0) "/a" none .persistent,
    .add (Handle.top 1) "/a/e" none .ephemeral] Service.empty

theorem Service.reachable_ephemeralBelow : Service.ephemeralBelow.Reachable :=
  Service.reachable_run _ Service.Reachable.empty

/-- The expiry of session one there removes one node. -/
theorem expire_session_removes_owned_one :
    Service.ephemeralBelow.Reachable ∧ (Service.ephemeralBelow.expire 1).result = .ok 1 := by
  have hres := (expire_session_removes_owned Service.reachable_ephemeralBelow 1).2.2.1
  have hlen : (Service.ephemeralBelow.store.tree.ownedBy 1).length = 1 := by
    decide +kernel
  rw [hlen] at hres
  exact ⟨Service.reachable_ephemeralBelow, hres⟩

/-- The expiry of a session changes a node it does not own: the persistent parent of an expired
node loses its child. -/
theorem expire_session_changes_parent :
    Service.ephemeralBelow.Reachable ∧
      (Service.ephemeralBelow.store.tree.nodes[1]?).map Node.owner = some none ∧
      (Service.ephemeralBelow.store.tree.nodes[1]?).map Node.childNames = some ["e"] ∧
      ((Service.ephemeralBelow.expire 1).service.store.tree.nodes[1]?).map Node.childNames =
        some [] := by
  refine ⟨Service.reachable_ephemeralBelow, ?_, ?_, ?_⟩ <;> decide +kernel

end CoordStore
