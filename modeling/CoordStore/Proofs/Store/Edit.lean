import CoordStore.Store.Handle
import CoordStore.Proofs.Tree.Change
import CoordStore.Proofs.Watch.Registry
import Mathlib.Logic.Relation

/-!
# Edits step by step

An edit runs against a store and the record of what it did. Whatever it is made of, it
changes them in two ways only (`Txn.Step`): a tree step together with its record (the watchers
it concerns taken out, the change journaled), or a parent's counter moved on by a sequential
creation that then failed. Every edit of the store, and every batch of them, is stepwise
(`Edit.Stepwise`): it reaches its final state, whether it ends with a value or an error, by
such steps only. Invariants of whole operations are then proved once, for one step.

The first part takes the edit monad apart: a bound computation that ends well ran both parts
well (`Edit.bind_eq_ok`), and one that failed failed in its first part or in its second.
-/

namespace CoordStore

namespace Edit

variable {α β : Type}

theorem bind_eq_ok {e : Edit α} {f : α → Edit β} {x y : Txn} {b : β} :
    (e >>= f) x = .ok b y ↔ ∃ a z, e x = .ok a z ∧ f a z = .ok b y := by
  simp only [bind, EStateM.bind]
  cases e x <;> simp

theorem bind_eq_error {e : Edit α} {f : α → Edit β} {x y : Txn} {err : DirError} :
    (e >>= f) x = .error err y ↔
      e x = .error err y ∨ ∃ a z, e x = .ok a z ∧ f a z = .error err y := by
  simp only [bind, EStateM.bind]
  cases e x <;> simp

theorem map_eq_ok {e : Edit α} {f : α → β} {x y : Txn} {b : β} :
    (f <$> e) x = .ok b y ↔ ∃ a, e x = .ok a y ∧ f a = b := by
  simp only [Functor.map, EStateM.map]
  cases e x <;> simp [and_comm]

theorem map_eq_error {e : Edit α} {f : α → β} {x y : Txn} {err : DirError} :
    (f <$> e) x = .error err y ↔ e x = .error err y := by
  simp only [Functor.map, EStateM.map]
  cases e x <;> simp

theorem ofExcept_ok_apply (a : α) (x : Txn) : (ofExcept (.ok a) : Edit α) x = .ok a x := rfl

theorem ofExcept_error_apply (e : DirError) (x : Txn) :
    (ofExcept (.error e) : Edit α) x = .error e x := rfl

@[simp] theorem ofExcept_eq_ok {r : Except DirError α} {x y : Txn} {a : α} :
    ofExcept r x = .ok a y ↔ r = .ok a ∧ y = x := by
  cases r <;> simp [ofExcept_ok_apply, ofExcept_error_apply, eq_comm]

@[simp] theorem ofExcept_eq_error {r : Except DirError α} {x y : Txn} {e : DirError} :
    ofExcept r x = .error e y ↔ r = .error e ∧ y = x := by
  cases r <;> simp [ofExcept_ok_apply, ofExcept_error_apply, eq_comm]

@[simp] theorem store_eq_ok {x y : Txn} {s : Store} : store x = .ok s y ↔ s = x.store ∧ y = x := by
  simp [store, eq_comm]

@[simp] theorem store_ne_error {x y : Txn} {e : DirError} : store x ≠ .error e y := by
  simp [store]

@[simp] theorem onTree_eq_ok {m : EStateM DirError Tree α} {x y : Txn} {a : α} :
    onTree m x = .ok a y ↔
      ∃ t, m x.store.tree = .ok a t ∧ y = { x with store := { x.store with tree := t } } := by
  unfold onTree
  cases m x.store.tree <;> simp [eq_comm]

@[simp] theorem onTree_eq_error {m : EStateM DirError Tree α} {x y : Txn} {e : DirError} :
    onTree m x = .error e y ↔
      ∃ t, m x.store.tree = .error e t ∧ y = { x with store := { x.store with tree := t } } := by
  unfold onTree
  cases m x.store.tree <;> simp [eq_comm]

@[simp] theorem record_eq_ok {c : Change} {x y : Txn} {u : Unit} :
    record c x = .ok u y ↔ y = x.record c := by
  simp [record, eq_comm]

@[simp] theorem record_ne_error {c : Change} {x y : Txn} {e : DirError} :
    record c x ≠ .error e y := by
  simp [record]

@[simp] theorem pure_eq_ok {a b : α} {x y : Txn} : (pure a : Edit α) x = .ok b y ↔ a = b ∧ y = x := by
  simp [pure, EStateM.pure, eq_comm]

@[simp] theorem pure_ne_error {a : α} {x y : Txn} {e : DirError} :
    (pure a : Edit α) x ≠ .error e y := by
  simp [pure, EStateM.pure]

end Edit

@[simp] theorem Except.mapError_eq_ok {ε ε' α : Type} {f : ε → ε'} {r : Except ε α} {a : α} :
    r.mapError f = .ok a ↔ r = .ok a := by
  cases r <;> simp [Except.mapError]

@[simp] theorem Except.mapError_eq_error {ε ε' α : Type} {f : ε → ε'} {r : Except ε α} {e : ε'} :
    r.mapError f = .error e ↔ ∃ e₀, r = .error e₀ ∧ f e₀ = e := by
  cases r <;> simp [Except.mapError]

/-- Resolving from a node needs that node. -/
theorem Tree.get_of_resolve_eq_ok {t : Tree} {start : Nat} {names : List String} {id : Nat}
    (h : t.resolve start names = .ok id) : ∃ n, t.nodes[start]? = some n := by
  unfold resolve node at h
  cases hs : t.nodes[start]? with
  | none => simp [hs, bind, Except.bind] at h
  | some n => exact ⟨n, rfl⟩

/-- Resolving ends at a present node. -/
theorem Tree.get_of_descend_eq_ok {t : Tree} :
    ∀ {n : Node} {start : Nat} {names : List String} {id : Nat}, t.nodes[start]? = some n →
      t.descend n start names = .ok id → ∃ m, t.nodes[id]? = some m
  | n, start, [], id, hn, h => by
    simp only [descend, Except.ok.injEq] at h
    exact h ▸ ⟨n, hn⟩
  | n, start, name :: rest, id, _, h => by
    unfold descend at h
    cases hc : n.children[name]? with
    | none => simp [hc] at h
    | some c =>
      simp only [hc, node] at h
      cases hm : t.nodes[c]? with
      | none => simp [hm, bind, Except.bind] at h
      | some m =>
        simp only [hm, bind, Except.bind] at h
        exact get_of_descend_eq_ok hm h

theorem Tree.get_of_resolve_eq_ok' {t : Tree} {start : Nat} {names : List String} {id : Nat}
    (h : t.resolve start names = .ok id) : ∃ m, t.nodes[id]? = some m := by
  obtain ⟨n, hn⟩ := get_of_resolve_eq_ok h
  simp only [resolve, node, hn, bind, Except.bind] at h
  exact get_of_descend_eq_ok hn h

/-- An absolute path written below a present root: its first characters taken off. -/
theorem Store.relative_of_get {s : Store} {root : Nat} {n : Node} (h : s.tree.nodes[root]? = some n)
    (absolute : String) :
    s.relative root absolute = .ok (String.ofList (absolute.toList.drop n.path.length)) := by
  simp [relative, Tree.node, h, bind, Except.bind, pure, Except.pure]

namespace Txn

/-- The record with a tree step's result as its tree, and the step's change recorded. -/
def applied (x : Txn) (t : Tree) (c : Change) : Txn :=
  { x with store := { x.store with tree := t } }.record c

/-- The two ways an edit changes the store and its record. -/
inductive Step : Txn → Txn → Prop where
  /-- A tree step, recorded. -/
  | change {x : Txn} {c : Change} {t : Tree} : x.store.tree.Step c t → Step x (x.applied t c)
  /-- A parent's counter moved on by a sequential creation that then failed. -/
  | bump {x : Txn} {p : Nat} {pn : Node} : x.store.tree.nodes[p]? = some pn →
      Step x { x with store := { x.store with
        tree := x.store.tree.setNode p { pn with sequence := pn.sequence + 1 } } }

/-- Any number of steps. -/
abbrev Steps : Txn → Txn → Prop :=
  Relation.ReflTransGen Step

end Txn

namespace Edit

variable {α β : Type}

/-- An edit that changes the store and its record by steps only, whether it ends with a value
or with an error. -/
def Stepwise (e : Edit α) : Prop :=
  ∀ x, (∀ a y, e x = .ok a y → Txn.Steps x y) ∧ (∀ err y, e x = .error err y → Txn.Steps x y)

theorem Stepwise.pure (a : α) : Stepwise (pure a : Edit α) := by
  intro x
  refine ⟨fun b y h => ?_, fun err y h => absurd h pure_ne_error⟩
  obtain ⟨-, rfl⟩ := pure_eq_ok.1 h
  exact Relation.ReflTransGen.refl

theorem Stepwise.bind {e : Edit α} {f : α → Edit β} (he : Stepwise e) (hf : ∀ a, Stepwise (f a)) :
    Stepwise (e >>= f) := by
  intro x
  constructor
  · intro b y h
    obtain ⟨a, z, h₁, h₂⟩ := bind_eq_ok.1 h
    exact ((he x).1 a z h₁).trans ((hf a z).1 b y h₂)
  · intro err y h
    rcases bind_eq_error.1 h with h₁ | ⟨a, z, h₁, h₂⟩
    · exact (he x).2 err y h₁
    · exact ((he x).1 a z h₁).trans ((hf a z).2 err y h₂)

theorem Stepwise.map {e : Edit α} (f : α → β) (he : Stepwise e) : Stepwise (f <$> e) := by
  intro x
  constructor
  · intro b y h
    obtain ⟨a, h₁, -⟩ := map_eq_ok.1 h
    exact (he x).1 a y h₁
  · intro err y h
    exact (he x).2 err y (map_eq_error.1 h)

theorem Stepwise.mapM {f : α → Edit β} (hf : ∀ a, Stepwise (f a)) :
    ∀ as : List α, Stepwise (as.mapM f)
  | [] => by simpa using Stepwise.pure []
  | a :: as => by
    rw [List.mapM_cons]
    exact (hf a).bind fun b => (Stepwise.mapM hf as).bind fun bs => Stepwise.pure _

theorem Stepwise.forM {f : α → Edit PUnit} (hf : ∀ a, Stepwise (f a)) :
    ∀ as : List α, Stepwise (as.forM f)
  | [] => Stepwise.pure _
  | a :: as => (hf a).bind fun _ => Stepwise.forM hf as

/-! ## The store's edits -/

section Edits

variable {root : Nat} {path : String} {data : Option (List UInt8)} {mode : CreateMode}
  {session : Int} {x y : Txn}

theorem create_eq_ok {a : String} :
    create root path data mode session x = .ok a y ↔
      ∃ names name parent absolute c t, Path.splitParent path = .ok (names, name) ∧
        x.store.tree.resolve root names = .ok parent ∧
        Tree.addChild parent name data mode session x.store.tree = .ok (absolute, c) t ∧
        ({ x.store with tree := t } : Store).relative root absolute = .ok a ∧
        y = x.applied t c := by
  unfold create
  simp only [bind_eq_ok, ofExcept_eq_ok, store_eq_ok, onTree_eq_ok, record_eq_ok,
    Except.mapError_eq_ok]
  simp [Txn.applied]

/-- A creation fails on its path, on the way to the parent, or in the tree; only the last
can have changed anything, and only the tree. -/
theorem create_eq_error {e : DirError} (h : create root path data mode session x = .error e y) :
    ((∃ e₀, Path.splitParent path = .error e₀ ∧ e = .badPath e₀) ∧ y = x) ∨
      ∃ names name, Path.splitParent path = .ok (names, name) ∧
        ((x.store.tree.resolve root names = .error e ∧ y = x) ∨
          ∃ parent t, x.store.tree.resolve root names = .ok parent ∧
            Tree.addChild parent name data mode session x.store.tree = .error e t ∧
            y = { x with store := { x.store with tree := t } }) := by
  unfold create at h
  simp only [bind_eq_error, ofExcept_eq_error, ofExcept_eq_ok, store_eq_ok, onTree_eq_ok,
    onTree_eq_error, Except.mapError_eq_error, Except.mapError_eq_ok] at h
  simp at h
  rcases h with ⟨⟨e₀, hs, rfl⟩, rfl⟩ | ⟨names, name, hs, ⟨hr, rfl⟩ | ⟨parent, hr, h⟩⟩
  · exact Or.inl ⟨⟨e₀, hs, rfl⟩, rfl⟩
  · exact Or.inr ⟨names, name, hs, Or.inl ⟨hr, rfl⟩⟩
  · rcases h with ⟨t, ha, rfl⟩ | ⟨absolute, c, t, ha, hrel, -⟩
    · exact Or.inr ⟨names, name, hs, Or.inr ⟨parent, t, hr, ha, rfl⟩⟩
    · -- the root was there before the creation, so it is there after it
      exfalso
      obtain ⟨n, hn⟩ := Tree.get_of_resolve_eq_ok hr
      obtain ⟨pn, -, -, -, -, -, -, rfl⟩ := Tree.addChild_eq_ok ha
      obtain ⟨n', hn'⟩ : ∃ n', (x.store.tree.addNode parent pn (pn.childName name mode).1
          (pn.childName name mode).2.sequence data mode
          (if mode.isEphemeral then some session else none)).nodes[root]? = some n' := by
        rw [Tree.getElem?_addNode]
        split_ifs <;> simp [hn]
      simp [Store.relative, Tree.node, hn', bind, Except.bind, pure, Except.pure] at hrel

theorem setData_eq_ok {u : Unit} :
    setData root path data x = .ok u y ↔
      ∃ id c t, x.store.resolve root path = .ok id ∧ Tree.setData id data x.store.tree = .ok c t ∧
        y = x.applied t c := by
  unfold setData
  simp only [bind_eq_ok, ofExcept_eq_ok, store_eq_ok, onTree_eq_ok, record_eq_ok]
  simp [Txn.applied]

/-- A payload replacement fails only on the way to its node, and changes nothing. -/
theorem setData_eq_error {e : DirError} (h : setData root path data x = .error e y) :
    x.store.resolve root path = .error e ∧ y = x := by
  unfold setData at h
  simp only [bind_eq_error, ofExcept_eq_error, ofExcept_eq_ok, store_eq_ok, onTree_eq_ok,
    onTree_eq_error] at h
  simp at h
  rcases h with h | ⟨id, hr, t, hset, rfl⟩
  · exact h
  · exfalso
    obtain ⟨names, -, hnames⟩ : ∃ names, (Path.segments path).mapError DirError.badPath =
        .ok names ∧ x.store.tree.resolve root names = .ok id := by
      unfold Store.resolve at hr
      cases hs : (Path.segments path).mapError DirError.badPath with
      | error e => simp [hs, bind, Except.bind] at hr
      | ok names => exact ⟨names, rfl, by simpa [hs, bind, Except.bind] using hr⟩
    obtain ⟨m, hm⟩ := Tree.get_of_resolve_eq_ok' hnames
    simp [Tree.setData, hm] at hset

theorem delete_eq_ok {u : Unit} :
    delete root path x = .ok u y ↔
      ∃ names name parent c t, Path.splitParent path = .ok (names, name) ∧
        x.store.tree.resolve root names = .ok parent ∧
        Tree.deleteChild parent name x.store.tree = .ok c t ∧ y = x.applied t c := by
  unfold delete
  simp only [bind_eq_ok, ofExcept_eq_ok, store_eq_ok, onTree_eq_ok, record_eq_ok,
    Except.mapError_eq_ok]
  simp [Txn.applied]

/-- A deletion that fails changes nothing. -/
theorem delete_eq_error {e : DirError} (h : delete root path x = .error e y) :
    ((∃ e₀, Path.splitParent path = .error e₀ ∧ e = .badPath e₀) ∨
      ∃ names name, Path.splitParent path = .ok (names, name) ∧
        (x.store.tree.resolve root names = .error e ∨
          ∃ parent t, x.store.tree.resolve root names = .ok parent ∧
            Tree.deleteChild parent name x.store.tree = .error e t)) ∧ y = x := by
  unfold delete at h
  simp only [bind_eq_error, ofExcept_eq_error, ofExcept_eq_ok, store_eq_ok, onTree_eq_ok,
    onTree_eq_error, Except.mapError_eq_error, Except.mapError_eq_ok] at h
  simp at h
  rcases h with ⟨⟨e₀, hs, rfl⟩, rfl⟩ | ⟨names, name, hs, ⟨hr, rfl⟩ | ⟨parent, hr, t, hd, rfl⟩⟩
  · exact ⟨Or.inl ⟨e₀, hs, rfl⟩, rfl⟩
  · exact ⟨Or.inr ⟨names, name, hs, Or.inl hr⟩, rfl⟩
  · obtain rfl := Tree.deleteChild_eq_error hd
    exact ⟨Or.inr ⟨names, name, hs, Or.inr ⟨parent, _, hr, hd⟩⟩, rfl⟩

theorem expireNode_eq_ok {id : Nat} {u : Unit} :
    expireNode id x = .ok u y ↔
      ∃ parent name c t, x.store.tree.locate id = .ok (parent, name) ∧
        Tree.deleteChild parent name x.store.tree = .ok c t ∧ y = x.applied t c := by
  unfold expireNode
  simp only [bind_eq_ok, ofExcept_eq_ok, store_eq_ok, onTree_eq_ok, record_eq_ok]
  simp [Txn.applied]

/-- Removing a node by number that fails changes nothing. -/
theorem expireNode_eq_error {id : Nat} {e : DirError} (h : expireNode id x = .error e y) :
    y = x := by
  unfold expireNode at h
  simp only [bind_eq_error, ofExcept_eq_error, ofExcept_eq_ok, store_eq_ok, onTree_eq_ok,
    onTree_eq_error] at h
  simp at h
  rcases h with ⟨-, rfl⟩ | ⟨parent, name, -, t, hd, rfl⟩
  · rfl
  · obtain rfl := Tree.deleteChild_eq_error hd
    rfl

/-! ## Every edit is stepwise -/

theorem stepwise_create : Stepwise (create root path data mode session) := by
  intro x
  constructor
  · intro a y h
    obtain ⟨names, name, parent, absolute, c, t, hs, -, ha, -, rfl⟩ := create_eq_ok.1 h
    exact Relation.ReflTransGen.single
      (Txn.Step.change (Tree.step_of_addChild_eq_ok (Path.isName_of_splitParent hs).2 ha))
  · intro e y h
    rcases create_eq_error h with ⟨-, rfl⟩ | ⟨names, name, -, ⟨-, rfl⟩ | ⟨parent, t, -, ha, rfl⟩⟩
    · exact Relation.ReflTransGen.refl
    · exact Relation.ReflTransGen.refl
    · rcases Tree.addChild_eq_error ha with rfl | ⟨pn, hp, rfl⟩
      · exact Relation.ReflTransGen.refl
      · exact Relation.ReflTransGen.single (Txn.Step.bump hp)

theorem stepwise_setData : Stepwise (setData root path data) := by
  intro x
  constructor
  · intro u y h
    obtain ⟨id, c, t, -, hset, rfl⟩ := setData_eq_ok.1 h
    exact Relation.ReflTransGen.single (Txn.Step.change (Tree.step_of_setData_eq_ok hset))
  · intro e y h
    obtain ⟨-, rfl⟩ := setData_eq_error h
    exact Relation.ReflTransGen.refl

theorem stepwise_delete : Stepwise (delete root path) := by
  intro x
  constructor
  · intro u y h
    obtain ⟨names, name, parent, c, t, -, -, hd, rfl⟩ := delete_eq_ok.1 h
    exact Relation.ReflTransGen.single (Txn.Step.change (Tree.step_of_deleteChild_eq_ok hd))
  · intro e y h
    obtain ⟨-, rfl⟩ := delete_eq_error h
    exact Relation.ReflTransGen.refl

theorem stepwise_expireNode (id : Nat) : Stepwise (expireNode id) := by
  intro x
  constructor
  · intro u y h
    obtain ⟨parent, name, c, t, -, hd, rfl⟩ := expireNode_eq_ok.1 h
    exact Relation.ReflTransGen.single (Txn.Step.change (Tree.step_of_deleteChild_eq_ok hd))
  · intro e y h
    obtain rfl := expireNode_eq_error h
    exact Relation.ReflTransGen.refl

theorem stepwise_store : Stepwise store := by
  intro x
  refine ⟨fun s y h => ?_, fun e y h => absurd h store_ne_error⟩
  obtain ⟨-, rfl⟩ := store_eq_ok.1 h
  exact Relation.ReflTransGen.refl

theorem stepwise_expire (session : Int) : Stepwise (expire session) :=
  stepwise_store.bind fun _ =>
    (Stepwise.forM stepwise_expireNode _).bind fun _ => Stepwise.pure _

theorem stepwise_apply (w : Write) : Stepwise (apply root session w) := by
  cases w with
  | create p d m => exact Stepwise.map _ stepwise_create
  | setData p d => exact Stepwise.map _ stepwise_setData
  | delete p => exact Stepwise.map _ stepwise_delete

/-- A batch of writes is stepwise. -/
theorem stepwise_batch (ws : List Write) : Stepwise (ws.mapM (apply root session)) :=
  Stepwise.mapM stepwise_apply ws

end Edits

end Edit

end CoordStore
