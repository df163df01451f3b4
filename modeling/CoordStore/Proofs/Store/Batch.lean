import CoordStore.Proofs.Store.Rollback

/-!
# Batches

A batch runs its writes one after the other as one edit. The edits read and write the store
alone: how one ends, and the store it leaves, do not depend on what the record already holds
(`Edit.Local`), so a write fails inside a batch exactly as it fails as a batch of its own. A
batch that fails, fails at its first failing write, after every write before it went through
(`Edit.mapM_eq_error`); each write that went through journaled one change, a creation for a
creation.
-/

namespace CoordStore

namespace Txn

theorem store_take (x : Txn) (node : Nat) (kind : WatchKind) (fire : Bool) :
    (x.take node kind fire).store = { x.store with watches := (x.store.watches.take node kind).2 } := by
  by_cases h : (x.store.watches.waiting node kind).isEmpty <;> simp [take, Registry.take, h]

/-- What recording a change does to the store depends on the store alone. -/
theorem store_record (c : Change) (s : Store) (b b' : Batch) :
    (Txn.mk s b |>.record c).store = (Txn.mk s b' |>.record c).store := by
  cases c <;> simp [record, store_take]

end Txn

namespace Edit

variable {α β : Type}

/-- An edit that reads and writes the store alone: how it ends, and the store it leaves, do not
depend on the record it starts with. -/
def Local (e : Edit α) : Prop :=
  ∀ (s : Store) (b b' : Batch),
    (∀ a y, e ⟨s, b⟩ = .ok a y → ∃ y', e ⟨s, b'⟩ = .ok a y' ∧ y'.store = y.store) ∧
    (∀ err y, e ⟨s, b⟩ = .error err y → ∃ y', e ⟨s, b'⟩ = .error err y' ∧ y'.store = y.store)

namespace Local

theorem pure (a : α) : Local (pure a : Edit α) := by
  intro s b b'
  refine ⟨fun a' y h => ?_, fun err y h => absurd h pure_ne_error⟩
  obtain ⟨rfl, rfl⟩ := pure_eq_ok.1 h
  exact ⟨_, rfl, rfl⟩

theorem bind {e : Edit α} {f : α → Edit β} (he : Local e) (hf : ∀ a, Local (f a)) :
    Local (e >>= f) := by
  intro s b b'
  -- the continuation starts from the same store in both runs
  have hcont : ∀ a (y y' : Txn), y'.store = y.store →
      (∀ c z, f a y = .ok c z → ∃ z', f a y' = .ok c z' ∧ z'.store = z.store) ∧
      (∀ err z, f a y = .error err z → ∃ z', f a y' = .error err z' ∧ z'.store = z.store) := by
    rintro a ⟨sy, bt⟩ ⟨sy', bt'⟩ hs
    simp only at hs
    subst hs
    exact hf a sy' bt bt'
  constructor
  · intro c z h
    obtain ⟨a, y, h₁, h₂⟩ := bind_eq_ok.1 h
    obtain ⟨y', h₁', hy⟩ := (he s b b').1 a y h₁
    obtain ⟨z', h₂', hz⟩ := (hcont a y y' hy).1 c z h₂
    exact ⟨z', bind_eq_ok.2 ⟨a, y', h₁', h₂'⟩, hz⟩
  · intro err z h
    rcases bind_eq_error.1 h with h₁ | ⟨a, y, h₁, h₂⟩
    · obtain ⟨z', h₁', hz⟩ := (he s b b').2 err z h₁
      exact ⟨z', bind_eq_error.2 (Or.inl h₁'), hz⟩
    · obtain ⟨y', h₁', hy⟩ := (he s b b').1 a y h₁
      obtain ⟨z', h₂', hz⟩ := (hcont a y y' hy).2 err z h₂
      exact ⟨z', bind_eq_error.2 (Or.inr ⟨a, y', h₁', h₂'⟩), hz⟩

theorem map {e : Edit α} (f : α → β) (he : Local e) : Local (f <$> e) := by
  intro s b b'
  constructor
  · intro c y h
    obtain ⟨a, h₁, rfl⟩ := map_eq_ok.1 h
    obtain ⟨y', h₁', hy⟩ := (he s b b').1 a y h₁
    exact ⟨y', map_eq_ok.2 ⟨a, h₁', rfl⟩, hy⟩
  · intro err y h
    obtain ⟨y', h₁', hy⟩ := (he s b b').2 err y (map_eq_error.1 h)
    exact ⟨y', map_eq_error.2 h₁', hy⟩

theorem mapM {f : α → Edit β} (hf : ∀ a, Local (f a)) : ∀ as : List α, Local (as.mapM f)
  | [] => by simpa using Local.pure []
  | a :: as => by
    rw [List.mapM_cons]
    exact (hf a).bind fun _ => (Local.mapM hf as).bind fun _ => Local.pure _

theorem forM {f : α → Edit PUnit} (hf : ∀ a, Local (f a)) : ∀ as : List α, Local (as.forM f)
  | [] => Local.pure _
  | a :: as => (hf a).bind fun _ => Local.forM hf as

theorem store : Local store := by
  intro s b b'
  refine ⟨fun a y h => ?_, fun err y h => absurd h store_ne_error⟩
  obtain ⟨rfl, rfl⟩ := store_eq_ok.1 h
  exact ⟨_, rfl, rfl⟩

theorem ofExcept (r : Except DirError α) : Local (ofExcept r) := by
  intro s b b'
  constructor
  · intro a y h
    obtain ⟨hr, rfl⟩ := ofExcept_eq_ok.1 h
    exact ⟨_, ofExcept_eq_ok.2 ⟨hr, rfl⟩, rfl⟩
  · intro err y h
    obtain ⟨hr, rfl⟩ := ofExcept_eq_error.1 h
    exact ⟨_, ofExcept_eq_error.2 ⟨hr, rfl⟩, rfl⟩

theorem onTree (m : EStateM DirError Tree α) : Local (onTree m) := by
  intro s b b'
  constructor
  · intro a y h
    obtain ⟨t, hm, rfl⟩ := onTree_eq_ok.1 h
    exact ⟨_, onTree_eq_ok.2 ⟨t, hm, rfl⟩, rfl⟩
  · intro err y h
    obtain ⟨t, hm, rfl⟩ := onTree_eq_error.1 h
    exact ⟨_, onTree_eq_error.2 ⟨t, hm, rfl⟩, rfl⟩

theorem record (c : Change) : Local (record c) := by
  intro s b b'
  refine ⟨fun u y h => ?_, fun err y h => absurd h record_ne_error⟩
  obtain rfl := record_eq_ok.1 h
  exact ⟨_, record_eq_ok.2 rfl, Txn.store_record c s b' b⟩

end Local

section Writes

variable {root : Nat} {session : Int}

theorem local_create (path : String) (data : Option (List UInt8)) (mode : CreateMode) :
    Local (create root path data mode session) := by
  unfold create
  exact (Local.ofExcept _).bind fun _ => Local.store.bind fun _ =>
    (Local.ofExcept _).bind fun _ => (Local.onTree _).bind fun _ => Local.store.bind fun _ =>
      (Local.ofExcept _).bind fun _ => (Local.record _).bind fun _ => Local.pure _

theorem local_setData (path : String) (data : Option (List UInt8)) :
    Local (setData root path data) := by
  unfold setData
  exact Local.store.bind fun _ => (Local.ofExcept _).bind fun _ =>
    (Local.onTree _).bind fun _ => Local.record _

theorem local_delete (path : String) : Local (delete root path) := by
  unfold delete
  exact (Local.ofExcept _).bind fun _ => Local.store.bind fun _ =>
    (Local.ofExcept _).bind fun _ => (Local.onTree _).bind fun _ => Local.record _

theorem local_apply (w : Write) : Local (apply root session w) := by
  cases w with
  | create p d m => exact Local.map _ (local_create p d m)
  | setData p d => exact Local.map _ (local_setData p d)
  | delete p => exact Local.map _ (local_delete p)

/-- A write fails inside a batch with the error it gives as the first write of a batch on the
same store. -/
theorem apply_start_of_eq_error {w : Write} {x y : Txn} {e : DirError}
    (h : apply root session w x = .error e y) :
    ∃ y', apply root session w (Txn.start x.store) = .error e y' ∧ y'.store = y.store :=
  (local_apply w x.store x.batch _).2 e y h

end Writes

/-- A run of edits over a list that fails, fails at some element, every element before it having
gone through. -/
theorem mapM_eq_error {f : α → Edit β} :
    ∀ {as : List α} {x y : Txn} {e : DirError}, (as.mapM f) x = .error e y →
      ∃ k, ∃ hk : k < as.length, ∃ rs z, (as.take k).mapM f x = .ok rs z ∧
        f (as.get ⟨k, hk⟩) z = .error e y
  | [], x, y, e, h => by simp [pure, EStateM.pure] at h
  | a :: as, x, y, e, h => by
    rw [List.mapM_cons] at h
    rcases bind_eq_error.1 h with h₁ | ⟨b, z, h₁, h₂⟩
    · exact ⟨0, by simp, [], x, by simp [pure, EStateM.pure], h₁⟩
    · rcases bind_eq_error.1 h₂ with h₂ | ⟨bs, z', -, h₃⟩
      · obtain ⟨k, hk, rs, z'', hpre, hk'⟩ := mapM_eq_error h₂
        refine ⟨k + 1, by simpa using hk, b :: rs, z'', ?_, by simpa using hk'⟩
        rw [List.take_succ_cons, List.mapM_cons]
        exact bind_eq_ok.2 ⟨b, z, h₁, bind_eq_ok.2 ⟨rs, z'', hpre, pure_eq_ok.2 ⟨rfl, rfl⟩⟩⟩
      · exact absurd h₃ pure_ne_error

end Edit

/-! ## What each write journals -/

namespace Write

/-- Whether the write is a creation. -/
def isCreate : Write → Bool
  | .create .. => true
  | _ => false

end Write

namespace Edit

variable {root : Nat} {session : Int}

/-- A write that went through journaled one change, a creation exactly for a creation. -/
theorem journal_of_apply_eq_ok {w : Write} {x y : Txn} {r : OpResult}
    (h : apply root session w x = .ok r y) :
    ∃ c, y.batch.journal = c :: x.batch.journal ∧ c.isCreated = w.isCreate := by
  cases w with
  | create p d m =>
    obtain ⟨a, h, -⟩ := map_eq_ok.1 h
    obtain ⟨names, name, parent, absolute, c, t, -, -, ha, -, rfl⟩ := create_eq_ok.1 h
    obtain ⟨pn, -, -, -, -, -, rfl, -⟩ := Tree.addChild_eq_ok ha
    exact ⟨.created parent (pn.childName name m).1 x.store.tree.nextId, by simp [Txn.applied], rfl⟩
  | setData p d =>
    obtain ⟨a, h, -⟩ := map_eq_ok.1 h
    obtain ⟨id, c, t, -, hset, rfl⟩ := setData_eq_ok.1 h
    obtain ⟨n, -, rfl, -⟩ := Tree.setData_eq_ok hset
    exact ⟨.dataChanged id n.data, by simp [Txn.applied], rfl⟩
  | delete p =>
    obtain ⟨a, h, -⟩ := map_eq_ok.1 h
    obtain ⟨names, name, parent, c, t, -, -, hd, rfl⟩ := delete_eq_ok.1 h
    obtain ⟨pn, c', n, -, -, -, -, rfl, -⟩ := Tree.deleteChild_eq_ok hd
    exact ⟨.deleted parent name c' n, by simp [Txn.applied], rfl⟩

/-- A write that failed journaled nothing. -/
theorem journal_of_apply_eq_error {w : Write} {x y : Txn} {e : DirError}
    (h : apply root session w x = .error e y) : y.batch.journal = x.batch.journal := by
  cases w with
  | create p d m =>
    rcases create_eq_error (map_eq_error.1 h) with ⟨-, rfl⟩ | ⟨-, -, -, ⟨-, rfl⟩ | ⟨-, -, -, -, rfl⟩⟩ <;> rfl
  | setData p d => rw [(setData_eq_error (map_eq_error.1 h)).2]
  | delete p => rw [(delete_eq_error (map_eq_error.1 h)).2]

/-- A batch that went through journaled one creation per creation it holds. -/
theorem created_of_mapM_eq_ok :
    ∀ {ws : List Write} {x y : Txn} {rs : List OpResult},
      (ws.mapM (apply root session)) x = .ok rs y →
        (y.batch.journal.filter Change.isCreated).length =
          (x.batch.journal.filter Change.isCreated).length + (ws.filter Write.isCreate).length
  | [], x, y, rs, h => by
    obtain ⟨-, rfl⟩ := pure_eq_ok.1 h
    simp
  | w :: ws, x, y, rs, h => by
    rw [List.mapM_cons] at h
    obtain ⟨r, z, h₁, h₂⟩ := bind_eq_ok.1 h
    obtain ⟨rs', z', h₂, h₃⟩ := bind_eq_ok.1 h₂
    obtain ⟨-, rfl⟩ := pure_eq_ok.1 h₃
    obtain ⟨c, hj, hc⟩ := journal_of_apply_eq_ok h₁
    rw [created_of_mapM_eq_ok h₂, hj, List.filter_cons, List.filter_cons, hc]
    cases w.isCreate <;> simp [Nat.add_assoc, Nat.add_comm 1]

end Edit

end CoordStore
