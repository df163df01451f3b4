import CoordStore.Proofs.Service.History
import CoordStore.Proofs.Tree.Counter

/-!
# Counters along a run

Seen through a handle, a creation moves at most one counter, and by one: that of the parent its
path names, when the parent is persistent and the child sequential (`Handle.sequence_add`).
Such a creation hands out the counter as the suffix of the child's name and fails only if that
name is taken (`Handle.add_of_sequential`); replacing a payload and deleting keep every counter.

Over a whole run no counter goes down (`Action.later_run`), whatever is deleted, fails, or
is taken back, so once a sequential creation has handed out a counter, every later suffix under
the same parent comes from a larger counter: it is another suffix, and a later one in the order
of texts while counters stay below ten to the power `suffixWidth` (`sequence_counters`).
-/

namespace CoordStore

namespace Service

variable {α : Type} {sv : Service} {e : Edit α} {x : Txn}

theorem single_of_eq_ok {a : α} (h : e (Txn.start sv.store) = .ok a x) :
    (sv.single e).result = .ok a ∧ (sv.single e).service.store = x.store := by
  simp [single, h, delivered]

theorem single_of_eq_error {err : DirError} (h : e (Txn.start sv.store) = .error err x) :
    (sv.single e).result = .error err ∧ (sv.single e).service.store = x.store := by
  simp [single, h, delivered]

end Service

/-! ## A creation and the counters -/

namespace Edit

variable {root : Nat} {path : String} {data : Option (List UInt8)} {mode : CreateMode}
  {session : Int}

/-- A creation leaves the tree as it was, or as the tree's creation under the parent its path
names leaves it. -/
theorem outcome_create (s : Store) :
    (outcome (create root path data mode session) s).store.tree = s.tree ∨
      ∃ parents name q, Path.splitParent path = .ok (parents, name) ∧
        s.tree.resolve root parents = .ok q ∧
        (outcome (create root path data mode session) s).store.tree =
          Tree.after (Tree.addChild q name data mode session) s.tree := by
  unfold outcome
  cases hc : create root path data mode session (Txn.start s) with
  | ok a y =>
    obtain ⟨parents, name, q, absolute, c, t, hs, hq, ha, -, rfl⟩ := create_eq_ok.1 hc
    refine .inr ⟨parents, name, q, hs, hq, ?_⟩
    rw [Txn.tree_applied]
    exact (Tree.after_of_eq_ok ha).symm
  | error e y =>
    rcases create_eq_error hc with ⟨-, rfl⟩ | ⟨parents, name, hs, ⟨-, rfl⟩ | ⟨q, t, hq, ha, rfl⟩⟩
    · exact .inl rfl
    · exact .inl rfl
    · exact .inr ⟨parents, name, q, hs, hq, (Tree.after_of_eq_error ha).symm⟩

variable {x : Txn} {parents : List String} {name : String} {q : Nat} {pn : Node}

section Sequential

variable (hsplit : Path.splitParent path = .ok (parents, name))
  (hq : x.store.tree.resolve root parents = .ok q) (hpn : x.store.tree.nodes[q]? = some pn)
  (heph : pn.mode.isEphemeral = false) (hseq : mode.isSequential = true)
include hsplit hq hpn heph hseq

/-- A sequential creation under a persistent parent whose suffixed name is taken fails on that
name, with the parent's counter moved on. -/
theorem create_of_sequential_taken
    (htaken : pn.children.contains (name ++ sequenceSuffix pn.sequence) = true) :
    create root path data mode session x =
      .error (.alreadyExists (Path.join pn.path (name ++ sequenceSuffix pn.sequence)))
        { x with store := { x.store with
          tree := x.store.tree.setNode q { pn with sequence := pn.sequence + 1 } } } := by
  have hadd : Tree.addChild q name data mode session x.store.tree =
      .error (.alreadyExists (Path.join pn.path (name ++ sequenceSuffix pn.sequence)))
        (x.store.tree.setNode q { pn with sequence := pn.sequence + 1 }) := by
    rw [Tree.addChild_of_sequential hpn heph hseq, if_pos htaken]
  simp [create, hsplit, hq, hadd, bind, EStateM.bind, ofExcept, store, onTree, Except.mapError,
    pure, EStateM.pure]

/-- A sequential creation under a persistent parent whose suffixed name is free creates the
child under that name, with the next number, the parent's counter moved on. -/
theorem create_of_sequential_free
    (hfree : pn.children.contains (name ++ sequenceSuffix pn.sequence) = false) :
    ∃ a, create root path data mode session x =
      .ok a (x.applied
        (x.store.tree.addNode q pn (name ++ sequenceSuffix pn.sequence) (pn.sequence + 1) data mode
          (if mode.isEphemeral then some session else none))
        (.created q (name ++ sequenceSuffix pn.sequence) x.store.tree.nextId)) := by
  have hadd : Tree.addChild q name data mode session x.store.tree =
      .ok (Path.join pn.path (name ++ sequenceSuffix pn.sequence),
          .created q (name ++ sequenceSuffix pn.sequence) x.store.tree.nextId)
        (x.store.tree.addNode q pn (name ++ sequenceSuffix pn.sequence) (pn.sequence + 1) data
          mode (if mode.isEphemeral then some session else none)) := by
    rw [Tree.addChild_of_sequential hpn heph hseq, if_neg (by simp [hfree])]
  -- the handle's root is there before, so also after: the path given back is found
  obtain ⟨rn, hrn⟩ := Tree.get_of_resolve_eq_ok hq
  obtain ⟨rn', hrn'⟩ : ∃ rn', (x.store.tree.addNode q pn (name ++ sequenceSuffix pn.sequence)
      (pn.sequence + 1) data mode (if mode.isEphemeral then some session else none)).nodes[root]? =
      some rn' := by
    rw [Tree.getElem?_addNode]
    split_ifs <;> simp [hrn]
  exact ⟨_, create_eq_ok.2 ⟨parents, name, q, _, _, _, hsplit, hq, hadd,
    Store.relative_of_get (s := { x.store with tree := _ }) hrn' _, rfl⟩⟩

end Sequential

end Edit

namespace Handle

variable {sv : Service} (h : Handle) {path : String} {data : Option (List UInt8)}
  {mode : CreateMode}

/-- A creation through a handle moves no counter but, by one, that of the persistent parent
its path names, when the child is sequential. -/
theorem sequence_add (hwf : sv.store.WF) {q : Nat} {n n' : Node}
    (hn : sv.store.tree.nodes[q]? = some n)
    (hn' : (h.add sv path data mode).service.store.tree.nodes[q]? = some n') :
    n'.sequence = n.sequence ∨
      n'.sequence = n.sequence + 1 ∧ mode.isSequential = true ∧ n.mode.isEphemeral = false ∧
        ∃ parents name, Path.splitParent path = .ok (parents, name) ∧
          sv.store.tree.resolve h.root parents = .ok q := by
  rw [add, Service.store_single] at hn'
  rcases Edit.outcome_create sv.store with htree | ⟨parents, name, p, hs, hp, htree⟩
  · rw [htree, hn] at hn'
    cases hn'
    exact .inl rfl
  · rw [htree] at hn'
    have hlaw := Tree.sequence_after_addChild hwf.tree hn hn'
    by_cases hcond : q = p ∧ mode.isSequential = true ∧ n.mode.isEphemeral = false
    · rw [if_pos hcond] at hlaw
      obtain ⟨rfl, hseq, heph⟩ := hcond
      exact .inr ⟨hlaw, hseq, heph, parents, name, hs, hp⟩
    · rw [if_neg hcond, Nat.add_zero] at hlaw
      exact .inl hlaw

section Sequential

variable {parents : List String} {name : String} {q : Nat} {pn : Node}
  (hsplit : Path.splitParent path = .ok (parents, name))
  (hq : sv.store.tree.resolve h.root parents = .ok q) (hpn : sv.store.tree.nodes[q]? = some pn)
  (heph : pn.mode.isEphemeral = false) (hseq : mode.isSequential = true)
include hsplit hq hpn heph hseq

/-- A sequential creation through a handle under a present persistent parent moves the parent's
counter on by one. It fails on the name suffixed with the counter if that is taken, and
otherwise creates the child under that name, with the next number and a counter of its own at
zero. -/
theorem add_of_sequential (hwf : sv.store.WF) :
    ∃ n', (h.add sv path data mode).service.store.tree.nodes[q]? = some n' ∧
      n'.sequence = pn.sequence + 1 ∧
      ((h.add sv path data mode).result =
          .error (.alreadyExists (Path.join pn.path (name ++ sequenceSuffix pn.sequence))) ∨
        (h.add sv path data mode).result.toBool = true ∧
          n'.children[name ++ sequenceSuffix pn.sequence]? = some sv.store.tree.nextId ∧
          ∃ c, (h.add sv path data mode).service.store.tree.nodes[sv.store.tree.nextId]? =
            some c ∧ c.sequence = 0) := by
  cases htaken : pn.children.contains (name ++ sequenceSuffix pn.sequence) with
  | false =>
    obtain ⟨a, ha⟩ := Edit.create_of_sequential_free (x := Txn.start sv.store) hsplit hq hpn heph
      hseq htaken
    obtain ⟨hres, hstore⟩ := Service.single_of_eq_ok ha
    rw [add, hres, hstore]
    -- the parent is not the new node: present numbers are below the next one
    have hne : sv.store.tree.nextId ≠ q := Nat.ne_of_gt (hwf.tree.fresh hpn)
    refine ⟨{ pn with
        sequence := pn.sequence + 1
        children := pn.children.insert (name ++ sequenceSuffix pn.sequence) sv.store.tree.nextId },
      ?_, rfl, .inr ⟨rfl, ?_, Node.fresh (Path.join pn.path (name ++ sequenceSuffix pn.sequence))
        data mode (if mode.isEphemeral then some h.session else none), ?_, rfl⟩⟩
    · simp [Txn.start, Tree.getElem?_addNode, hne]
    · simp
    · simp [Txn.start, Tree.getElem?_addNode]
  | true =>
    have hc : Edit.create h.root path data mode h.session (Txn.start sv.store) = _ :=
      Edit.create_of_sequential_taken hsplit hq hpn heph hseq htaken
    obtain ⟨hres, hstore⟩ := Service.single_of_eq_error hc
    rw [add, hres, hstore]
    exact ⟨{ pn with sequence := pn.sequence + 1 }, by simp [Txn.start, Tree.getElem?_setNode], rfl,
      .inl rfl⟩

/-- Once a sequential creation has handed out a parent's counter, the counter stays above it
for the rest of every run. -/
theorem sequence_gt_of_add (hwf : sv.store.WF) (acts : List Action) {n'' : Node}
    (hn'' : (Action.run acts (h.add sv path data mode).service).store.tree.nodes[q]? = some n'') :
    pn.sequence < n''.sequence := by
  obtain ⟨n', hn', hbump, -⟩ := h.add_of_sequential hsplit hq hpn heph hseq hwf
  have hwf' : (h.add sv path data mode).service.store.WF :=
    (Action.add h path data mode).wf_step hwf
  have hle := ((Action.later_run acts hwf').kept hn' hn'').2.2.2
  omega

end Sequential

end Handle

/-! ## Counters along a run -/

/-- The counters of a run. A sequential name takes as suffix the counter in decimal digits,
padded with zeros to `suffixWidth` of them. Of the operations of the tree only a creation moves
a counter: by one, its parent's, when the parent is persistent and the child sequential; taking
a change back keeps every counter, but for a deleted node put back with its own. Along every run
from a reachable service no counter goes down, and a creation through a handle moves only the
counter just said. A sequential creation under a persistent parent moves the parent's counter
on by one, whether it fails on a taken name or creates the child under the suffixed name, so
every suffix handed out later under that parent comes from a larger counter: it is another
suffix, and a later one in the order of texts while the counter is below ten to the power
`suffixWidth`. -/
theorem sequence_counters {sv : Service} (hsv : sv.Reachable) :
    (∀ v : Nat, (∀ c ∈ (sequenceSuffix v).toList, c.isDigit = true) ∧
      Nat.ofDigitChars 10 (sequenceSuffix v).toList 0 = v ∧
      (sequenceSuffix v).length = max suffixWidth (Nat.toDigits 10 v).length) ∧
    (∀ t : Tree, t.WF → ∀ (q : Nat) (n n' : Node), t.nodes[q]? = some n →
      (∀ p name data mode owner,
        (Tree.after (Tree.addChild p name data mode owner) t).nodes[q]? = some n' →
        n'.sequence = n.sequence +
          if q = p ∧ mode.isSequential = true ∧ n.mode.isEphemeral = false then 1 else 0) ∧
      (∀ id data, (Tree.after (Tree.setData id data) t).nodes[q]? = some n' →
        n'.sequence = n.sequence) ∧
      (∀ p name, (Tree.after (Tree.deleteChild p name) t).nodes[q]? = some n' →
        n'.sequence = n.sequence) ∧
      (∀ c, (t.revert c).nodes[q]? = some n' →
        n'.sequence = n.sequence ∨ ∃ p name, c = .deleted p name q n')) ∧
    (∀ (acts : List Action) (q : Nat) (n n' : Node), sv.store.tree.nodes[q]? = some n →
      (Action.run acts sv).store.tree.nodes[q]? = some n' → n.sequence ≤ n'.sequence) ∧
    (∀ (h : Handle) path data mode (q : Nat) (n n' : Node), sv.store.tree.nodes[q]? = some n →
      (h.add sv path data mode).service.store.tree.nodes[q]? = some n' →
      n'.sequence = n.sequence ∨
        n'.sequence = n.sequence + 1 ∧ mode.isSequential = true ∧ n.mode.isEphemeral = false ∧
          ∃ parents name, Path.splitParent path = .ok (parents, name) ∧
            sv.store.tree.resolve h.root parents = .ok q) ∧
    ∀ (h : Handle) path data mode parents name (q : Nat) (pn : Node),
      mode.isSequential = true → Path.splitParent path = .ok (parents, name) →
      sv.store.tree.resolve h.root parents = .ok q → sv.store.tree.nodes[q]? = some pn →
      pn.mode.isEphemeral = false →
      (∃ n', (h.add sv path data mode).service.store.tree.nodes[q]? = some n' ∧
        n'.sequence = pn.sequence + 1 ∧
        ((h.add sv path data mode).result =
            .error (.alreadyExists (Path.join pn.path (name ++ sequenceSuffix pn.sequence))) ∨
          (h.add sv path data mode).result.toBool = true ∧
            n'.children[name ++ sequenceSuffix pn.sequence]? = some sv.store.tree.nextId ∧
            ∃ c, (h.add sv path data mode).service.store.tree.nodes[sv.store.tree.nextId]? =
              some c ∧ c.sequence = 0)) ∧
      ∀ (acts : List Action) (n'' : Node),
        (Action.run acts (h.add sv path data mode).service).store.tree.nodes[q]? = some n'' →
        pn.sequence < n''.sequence ∧ sequenceSuffix pn.sequence ≠ sequenceSuffix n''.sequence ∧
        (n''.sequence < Nat.pow 10 suffixWidth →
          sequenceSuffix pn.sequence < sequenceSuffix n''.sequence) := by
  have hwf := hsv.wf
  refine ⟨fun v => ⟨fun _ => isDigit_of_mem_sequenceSuffix, ofDigitChars_sequenceSuffix v,
      length_sequenceSuffix v⟩,
    fun t htwf q n n' hn => ⟨fun p name data mode owner hn' =>
        Tree.sequence_after_addChild htwf hn hn',
      fun id data hn' => Tree.countersKept_setData id data hn hn',
      fun p name hn' => Tree.countersKept_deleteChild p name hn hn',
      fun c hn' => Tree.sequence_revert c hn hn'⟩,
    fun acts q n n' hn hn' => ((Action.later_run acts hwf).kept hn hn').2.2.2,
    fun h path data mode q n n' hn hn' => h.sequence_add hwf hn hn',
    fun h path data mode parents name q pn hseq hsplit hq hpn heph =>
      ⟨h.add_of_sequential hsplit hq hpn heph hseq hwf, fun acts n'' hn'' => ?_⟩⟩
  -- a later counter is a larger one, so its suffix is another, and a later one while it fits
  have hlt := h.sequence_gt_of_add hsplit hq hpn heph hseq hwf acts hn''
  exact ⟨hlt, fun heq => Nat.ne_of_lt hlt (sequenceSuffix_injective heq),
    fun hfits => sequenceSuffix_lt hlt hfits⟩

/-- On the empty service, the first sequential creation under the root moves the root's counter
from zero to one. -/
theorem sequence_counters_first_child :
    Service.empty.Reachable ∧
      ∃ n', ((Handle.top 0).add Service.empty "/a" none
        .persistentSequential).service.store.tree.nodes[Tree.rootId]? = some n' ∧
        n'.sequence = 1 := by
  have hroot : Service.empty.store.tree.nodes[Tree.rootId]? =
      some (Node.fresh "" none .persistent none) := by
    simp [Service.empty, Store.empty, Tree.getElem?_empty]
  have hres : Service.empty.store.tree.resolve (Handle.top 0).root [] = .ok Tree.rootId := by
    simp [Tree.resolve, Tree.node, Tree.descend, Handle.top, hroot, bind, Except.bind]
  obtain ⟨⟨n', hn', hseq, -⟩, -⟩ := (sequence_counters .empty).2.2.2.2 (Handle.top 0) "/a" none
    .persistentSequential [] "a" Tree.rootId _ rfl (by decide) hres hroot rfl
  exact ⟨.empty, n', hn', hseq⟩

end CoordStore
