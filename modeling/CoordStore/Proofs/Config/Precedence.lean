import Mathlib.Data.List.DropRight
import CoordStore.Proofs.Config.Layer
import CoordStore.Config.Load
/-!
# Which source a setting comes from

Settings load in layers: the defaults, the file at the settings path, the environment; an
override lays its file and the environment once more over the settings loaded. Each of the four
settings then holds what the highest of these sources that gives it a leaf gives it, read as the
setting's type. That needs every source to keep the two sections tables: a source that lays a
value other than a table at `directory` or `reactor`, or whose key steps into an array right
below one of those names, throws away what lower sources put there, field by field, and the
fields it did not set go back to their defaults. Index steps further down are free: an array
below a field only clears that field's leaf.

Checking the settings is the other half: it passes exactly when the base path makes a `Base`,
the identifier has a character that is not blank and there is a worker, and a base path that
makes no `Base` is reported whatever the reactor's settings.
-/

namespace CoordStore.Config

theorem except_bind_eq_ok {ε α β : Type} {x : Except ε α} {f : α → Except ε β} {b : β} :
    x >>= f = .ok b ↔ ∃ a, x = .ok a ∧ f a = .ok b := by
  cases x <;> simp [bind, Except.bind]

theorem except_map_eq_ok {ε α β : Type} {x : Except ε α} {f : α → β} {b : β} :
    f <$> x = .ok b ↔ ∃ a, x = .ok a ∧ f a = b := by
  cases x <;> simp [Functor.map, Except.map]

theorem except_eq_ok_of_toOption {ε α : Type} {x : Except ε α} {a : α} (h : x.toOption = some a) :
    x = .ok a := by
  cases x with
  | error e => cases h
  | ok a' =>
    cases h
    rfl

theorem except_exists_ok {ε α : Type} {x : Except ε α} {p : α → Bool}
    (h : x.toOption.map p = some true) : ∃ a, x = .ok a ∧ p a = true := by
  cases x with
  | error e => cases h
  | ok a =>
    refine ⟨a, rfl, ?_⟩
    simpa [Except.toOption] using h

/-- The four settings of a node. -/
inductive Key where
  | sessionId
  | basePath
  | identifier
  | threads
  deriving DecidableEq, Repr

namespace Key

/-- The section a setting sits in. -/
def sectionName : Key → String
  | sessionId | basePath => "directory"
  | identifier | threads => "reactor"

/-- The name of a setting inside its section. -/
def fieldName : Key → String
  | sessionId => "session_id"
  | basePath => "base_path"
  | identifier => "identifier"
  | threads => "threads"

/-- A value read as the setting gives what the settings hold for it. -/
def Reads : Key → Value → Settings → Prop
  | sessionId, w, s => w.toInt "directory.session_id" = .ok s.directory.sessionId
  | basePath, w, s => w.toText "directory.base_path" = .ok s.directory.basePath
  | identifier, w, s => w.toText "reactor.identifier" = .ok s.reactor.identifier
  | threads, w, s => w.toNat "reactor.threads" = .ok s.reactor.threads

/-- The value settings are laid with for a setting. -/
def valueOf : Key → Settings → Value
  | sessionId, s => .int none s.directory.sessionId
  | basePath, s => .text none s.directory.basePath
  | identifier, s => .text none s.reactor.identifier
  | threads, s => .int none s.reactor.threads

/-- Only a leaf reads as a setting. -/
theorem isLeaf_of_reads {k : Key} {w : Value} {s : Settings} (h : k.Reads w s) :
    w.isLeaf = true := by
  cases w with
  | table o es => cases k <;> cases h
  | array o xs => cases k <;> cases h
  | _ => rfl

/-- Settings laid and read again give the same setting, so the value they were laid with reads
as whatever read as the setting before. -/
theorem reads_of_valueOf {k : Key} {s₁ s : Settings} {w : Value} (hv : k.Reads (k.valueOf s₁) s)
    (hw : k.Reads w s₁) : k.Reads w s := by
  cases k <;> simp only [Reads, valueOf] at hv hw ⊢ <;> rw [hw]
  · exact hv
  · exact hv
  · exact hv
  · have hnat : ∀ n : Nat, (Value.int none n).toNat "reactor.threads" = .ok n := fun _ => rfl
    rw [hnat] at hv
    exact hv

end Key

/-! ## Reading settings field by field -/

section Reader

/- The readers of a section's fields and of the sections go through the entries of a table in
turn, each entry changing at most the one field its name stands for. -/
variable {σ α ε : Type} (read : σ → List (String × Value) → Except ε σ)
  (step : σ → String × Value → Except ε σ)
  (hnil : ∀ s, read s [] = .ok s) (hcons : ∀ s e es, read s (e :: es) = step s e >>= (read · es))
  (k : String) (get : σ → α) (conv : Value → Except ε α)
  (hset : ∀ s v s₁, step s (k, v) = .ok s₁ → conv v = .ok (get s₁))
  (hkeep : ∀ s k' v s₁, k' ≠ k → step s (k', v) = .ok s₁ → get s₁ = get s)
include hnil hcons hset hkeep

/-- Over a table with distinct names, a reader gives a field what the entry of its name reads
as, and leaves it alone when there is no such entry. -/
theorem read_field : ∀ {s s' : σ} {es : List (String × Value)}, (es.map Prod.fst).Nodup →
    read s es = .ok s' →
      match es.lookup k with
      | some w => conv w = .ok (get s')
      | none => get s' = get s
  | s, s', [], _, h => by
    rw [hnil] at h
    cases h
    rfl
  | s, s', (k', v) :: es, hnd, h => by
    rw [hcons, except_bind_eq_ok] at h
    obtain ⟨s₁, h₁, hrest⟩ := h
    have hnd' : (es.map Prod.fst).Nodup := (List.nodup_cons.1 hnd).2
    have ih := read_field hnd' hrest
    by_cases hk : k' = k
    · subst hk
      -- the name does not come again, so the rest leaves the field as the entry set it
      have hnone : es.lookup k' = none := by
        refine List.lookup_eq_none_iff.2 fun p hp => bne_iff_ne.2 fun he => ?_
        exact (List.nodup_cons.1 hnd).1 (List.mem_map.2 ⟨p, hp, he.symm⟩)
      rw [hnone] at ih
      simp only [Value.lookup_cons_if, if_true]
      rw [ih]
      exact hset s v s₁ h₁
    · simp only [Value.lookup_cons_if, Ne.symm hk, if_false]
      have hget := hkeep s k' v s₁ hk h₁
      cases hl : es.lookup k with
      | none =>
        rw [hl] at ih
        exact ih.trans hget
      | some w =>
        rw [hl] at ih
        exact ih

theorem read_field_of_lookup {s s' : σ} {es : List (String × Value)} {w : Value}
    (hnd : (es.map Prod.fst).Nodup) (h : read s es = .ok s') (hw : es.lookup k = some w) :
    conv w = .ok (get s') := by
  have hread := read_field read step hnil hcons k get conv hset hkeep hnd h
  rw [hw] at hread
  exact hread

end Reader

section Pick

variable {σ α β ε : Type} (a b : String) (setA : σ → α → σ) (convA : Value → Except ε α)
  (setB : σ → β → σ) (convB : Value → Except ε β)

/-- Reads an entry named `a` or `b` into its field, and passes over an entry of another name:
what each reader of settings does with one entry. -/
def pickEntry (s : σ) (e : String × Value) : Except ε σ :=
  if e.1 = a then setA s <$> convA e.2 else if e.1 = b then setB s <$> convB e.2 else pure s

variable {a b setA convA setB convB}

theorem pickEntry_first {getA : σ → α} (hA : ∀ s x, getA (setA s x) = x) {s s₁ : σ} {v : Value}
    (h : pickEntry a b setA convA setB convB s (a, v) = .ok s₁) : convA v = .ok (getA s₁) := by
  simp only [pickEntry, if_true] at h
  obtain ⟨x, hx, rfl⟩ := except_map_eq_ok.1 h
  rw [hA, hx]

theorem pickEntry_second {getB : σ → β} (hB : ∀ s y, getB (setB s y) = y) (hab : a ≠ b)
    {s s₁ : σ} {v : Value} (h : pickEntry a b setA convA setB convB s (b, v) = .ok s₁) :
    convB v = .ok (getB s₁) := by
  simp only [pickEntry, Ne.symm hab, if_false, if_true] at h
  obtain ⟨y, hy, rfl⟩ := except_map_eq_ok.1 h
  rw [hB, hy]

/-- An entry of another name than the first leaves the first field as it was. -/
theorem pickEntry_ne_first {getA : σ → α} (hB : ∀ s y, getA (setB s y) = getA s) {s s₁ : σ}
    {k : String} {v : Value} (hk : k ≠ a)
    (h : pickEntry a b setA convA setB convB s (k, v) = .ok s₁) : getA s₁ = getA s := by
  simp only [pickEntry, hk, if_false] at h
  split at h
  · obtain ⟨y, -, rfl⟩ := except_map_eq_ok.1 h
    exact hB s y
  · cases h
    rfl

/-- An entry of another name than the second leaves the second field as it was. -/
theorem pickEntry_ne_second {getB : σ → β} (hA : ∀ s x, getB (setA s x) = getB s) {s s₁ : σ}
    {k : String} {v : Value} (hk : k ≠ b)
    (h : pickEntry a b setA convA setB convB s (k, v) = .ok s₁) : getB s₁ = getB s := by
  simp only [pickEntry, hk, if_false] at h
  split at h
  · obtain ⟨x, -, rfl⟩ := except_map_eq_ok.1 h
    exact hA s x
  · cases h
    rfl

/-- A reader that takes each entry as `pickEntry` does gives each of its two fields what the
entry of that name reads as, over a table with distinct names. -/
theorem reads_of_pickEntry {read : σ → List (String × Value) → Except ε σ}
    (hnil : ∀ s, read s [] = .ok s)
    (hcons : ∀ s e es, read s (e :: es) = pickEntry a b setA convA setB convB s e >>= (read · es))
    (hab : a ≠ b) {getA : σ → α} {getB : σ → β} (hA : ∀ s x, getA (setA s x) = x)
    (hA' : ∀ s x, getB (setA s x) = getB s) (hB : ∀ s y, getB (setB s y) = y)
    (hB' : ∀ s y, getA (setB s y) = getA s) {s s' : σ} {es : List (String × Value)} {w : Value}
    (hnd : (es.map Prod.fst).Nodup) (h : read s es = .ok s') :
    (es.lookup a = some w → convA w = .ok (getA s')) ∧
      (es.lookup b = some w → convB w = .ok (getB s')) :=
  ⟨read_field_of_lookup read _ hnil hcons a getA convA (fun _ _ _ => pickEntry_first hA)
      (fun _ _ _ _ hk => pickEntry_ne_first hB' hk) hnd h,
    read_field_of_lookup read _ hnil hcons b getB convB (fun _ _ _ => pickEntry_second hB hab)
      (fun _ _ _ _ hk => pickEntry_ne_second hA' hk) hnd h⟩

end Pick

theorem DirectorySettings.readFields_cons (s : DirectorySettings) (e : String × Value)
    (es : List (String × Value)) :
    readFields s (e :: es) =
      pickEntry "session_id" "base_path" (fun s i => { s with sessionId := i })
        (·.toInt "directory.session_id") (fun s b => { s with basePath := b })
        (·.toText "directory.base_path") s e >>= (readFields · es) := by
  -- the reader binds the rest of the table inside each branch of its `if`
  obtain ⟨k, v⟩ := e
  rw [readFields, pickEntry]
  by_cases h₁ : k = "session_id" <;> by_cases h₂ : k = "base_path" <;> simp [h₁, h₂]

theorem ReactorSettings.readFields_cons (s : ReactorSettings) (e : String × Value)
    (es : List (String × Value)) :
    readFields s (e :: es) =
      pickEntry "identifier" "threads" (fun s i => { s with identifier := i })
        (·.toText "reactor.identifier") (fun s n => { s with threads := n })
        (·.toNat "reactor.threads") s e >>= (readFields · es) := by
  -- the reader binds the rest of the table inside each branch of its `if`
  obtain ⟨k, v⟩ := e
  rw [readFields, pickEntry]
  by_cases h₁ : k = "identifier" <;> by_cases h₂ : k = "threads" <;> simp [h₁, h₂]

theorem Settings.readSections_cons (s : Settings) (e : String × Value)
    (es : List (String × Value)) :
    readSections s (e :: es) =
      pickEntry "directory" "reactor" (fun s d => { s with directory := d })
        DirectorySettings.ofValue (fun s r => { s with reactor := r }) ReactorSettings.ofValue
        s e >>= (readSections · es) := by
  -- the reader binds the rest of the table inside each branch of its `if`
  obtain ⟨k, v⟩ := e
  rw [readSections, pickEntry]
  by_cases h₁ : k = "directory" <;> by_cases h₂ : k = "reactor" <;> simp [h₁, h₂]

section Fields

variable {es : List (String × Value)} {w : Value}

/-- The directory's fields read from a table with distinct names. -/
theorem DirectorySettings.reads_of_readFields {s s' : DirectorySettings}
    (hnd : (es.map Prod.fst).Nodup) (h : readFields s es = .ok s') :
    (es.lookup "session_id" = some w → w.toInt "directory.session_id" = .ok s'.sessionId) ∧
      (es.lookup "base_path" = some w → w.toText "directory.base_path" = .ok s'.basePath) :=
  reads_of_pickEntry (fun _ => rfl) readFields_cons (by decide) (by intros; rfl) (by intros; rfl)
    (by intros; rfl) (by intros; rfl) hnd h

/-- The reactor's fields read from a table with distinct names. -/
theorem ReactorSettings.reads_of_readFields {s s' : ReactorSettings}
    (hnd : (es.map Prod.fst).Nodup) (h : readFields s es = .ok s') :
    (es.lookup "identifier" = some w → w.toText "reactor.identifier" = .ok s'.identifier) ∧
      (es.lookup "threads" = some w → w.toNat "reactor.threads" = .ok s'.threads) :=
  reads_of_pickEntry (fun _ => rfl) readFields_cons (by decide) (by intros; rfl) (by intros; rfl)
    (by intros; rfl) (by intros; rfl) hnd h

/-- The two sections read from a table with distinct names. -/
theorem Settings.reads_of_readSections {s s' : Settings}
    (hnd : (es.map Prod.fst).Nodup) (h : readSections s es = .ok s') :
    (es.lookup "directory" = some w → DirectorySettings.ofValue w = .ok s'.directory) ∧
      (es.lookup "reactor" = some w → ReactorSettings.ofValue w = .ok s'.reactor) :=
  reads_of_pickEntry (fun _ => rfl) readSections_cons (by decide) (by intros; rfl)
    (by intros; rfl) (by intros; rfl) (by intros; rfl) hnd h

end Fields

/-! ## Configurations settings are read from -/

/-- Whether an entry keeps both sections tables: what it lays at a section's name alone is a
table, and its key does not step into an array right below a section's name. -/
def Plain (e : String × Value) : Bool :=
  Value.keepsTable "directory" e && Value.keepsTable "reactor" e

theorem Key.keepsTable_of_plain {e : String × Value} (h : Plain e = true) (k : Key) :
    Value.keepsTable k.sectionName e = true := by
  simp only [Plain, Bool.and_eq_true] at h
  cases k with
  | sessionId | basePath => exact h.1
  | identifier | threads => exact h.2

/-- A value read at a setting from a table with distinct names, whose section there is a table
with distinct names, reads as the settings hold it. -/
theorem Key.reads_of_slotAt {k : Key} {r w : Value} {s : Settings} (hkeys : r.keys.Nodup)
    (hsec : ∀ c, r.get? k.sectionName = some c → c.isTable ∧ c.keys.Nodup)
    (hslot : r.slotAt k.sectionName k.fieldName = some w) (hs : Settings.ofValue r = .ok s) :
    k.Reads w s := by
  obtain ⟨c, hc, hw⟩ := Option.bind_eq_some_iff.1 hslot
  obtain ⟨hct, hckeys⟩ := hsec c hc
  obtain ⟨o, es, rfl⟩ : ∃ o es, c = .table o es := by
    cases c <;> simp_all [Value.isTable]
  -- the section reads as its settings, and then the field as the setting
  cases k with
  | sessionId =>
    have hdir := (Settings.reads_of_readSections hkeys hs).1 hc
    exact (DirectorySettings.reads_of_readFields hckeys hdir).1 hw
  | basePath =>
    have hdir := (Settings.reads_of_readSections hkeys hs).1 hc
    exact (DirectorySettings.reads_of_readFields hckeys hdir).2 hw
  | identifier =>
    have hreactor := (Settings.reads_of_readSections hkeys hs).2 hc
    exact (ReactorSettings.reads_of_readFields hckeys hreactor).1 hw
  | threads =>
    have hreactor := (Settings.reads_of_readSections hkeys hs).2 hc
    exact (ReactorSettings.reads_of_readFields hckeys hreactor).2 hw

/-- A configuration shaped as settings are read from it: a table with distinct names whose
sections, where present, are tables with distinct names, with something at every setting. -/
structure Shaped (r : Value) : Prop where
  isTable : r.isTable
  keys_nodup : r.keys.Nodup
  section_table : ∀ (k : Key) c, r.get? k.sectionName = some c → c.isTable ∧ c.keys.Nodup
  slot : ∀ k : Key, (r.slotAt k.sectionName k.fieldName).isSome

namespace Shaped

variable {r r' : Value}

/-- A source laid alone over the empty table shapes it when it gives every setting a leaf. -/
theorem of_sourceLeaf {es : List (String × Value)} (hall : Value.LaidAll Value.emptyTable es r)
    (hplain : ∀ e ∈ es, Plain e = true)
    (hleaf : ∀ k : Key, (Value.sourceLeaf es k.sectionName k.fieldName).isSome) : Shaped r where
  isTable := hall.isTable rfl
  keys_nodup := hall.keys_nodup (show Value.emptyTable.keys.Nodup from List.nodup_nil)
  section_table k := hall.section_table (fun e he => Key.keepsTable_of_plain (hplain e he) k)
    (fun c hc => by cases hc)
  slot k := by
    -- the leaf the source gives is what the setting holds once it is laid
    have h : (r.leafAt k.sectionName k.fieldName).isSome := by
      rw [hall.leafAt]
      exact hleaf k
    rw [Value.leafAt, Option.isSome_bind] at h
    cases hs : r.slotAt k.sectionName k.fieldName with
    | none => simp [hs] at h
    | some _ => rfl

/-- Plain sources keep a configuration shaped. -/
theorem laidAll (h : Shaped r) {es : List (String × Value)} (hall : Value.LaidAll r es r')
    (hplain : ∀ e ∈ es, Plain e = true) : Shaped r' where
  isTable := hall.isTable h.isTable
  keys_nodup := hall.keys_nodup h.keys_nodup
  section_table k := hall.section_table (fun e he => Key.keepsTable_of_plain (hplain e he) k)
    (h.section_table k)
  slot k := hall.slotAt_isSome (fun e he => Key.keepsTable_of_plain (hplain e he) k) (h.slot k)

theorem laidSources (h : Shaped r) {sources : List (List (String × Value))}
    (hall : Value.LaidSources r sources r')
    (hplain : ∀ es ∈ sources, ∀ e ∈ es, Plain e = true) :
    Shaped r' := by
  induction hall with
  | nil => exact h
  | cons hes _ ih =>
    exact ih (h.laidAll hes (hplain _ List.mem_cons_self))
      (fun es hes' => hplain es (List.mem_cons_of_mem _ hes'))

/-- Settings read from a shaped configuration hold at each setting what its leaf reads as. -/
theorem reads (h : Shaped r) {s : Settings} (hs : Settings.ofValue r = .ok s) (k : Key) :
    ∃ w, r.leafAt k.sectionName k.fieldName = some w ∧ k.Reads w s := by
  obtain ⟨w, hw⟩ := Option.isSome_iff_exists.1 (h.slot k)
  have hreads := Key.reads_of_slotAt h.keys_nodup (h.section_table k) hw hs
  -- what reads as a setting is a leaf, so it is the leaf there
  refine ⟨w, ?_, hreads⟩
  simp [Value.leafAt, hw, Value.leaf?, Key.isLeaf_of_reads hreads]

end Shaped

/-! ## The sources of loaded settings -/

namespace Sources

/-- The entries of the file of a name, if a name is given; none otherwise. -/
def fileEntries (src : Sources) : Option String → Except LoadError (List (String × Value))
  | some name => src.folder.read name
  | none => pure []

/-- The sources settings are loaded from and an override is laid with, lowest first: the
defaults, the file at the settings path, the environment, the override's file and the
environment again. -/
def layers (src : Sources) (name : String) : Except LoadError (List (List (String × Value))) := do
  let defaults ← ({} : Settings).entries
  let file ← src.fileEntries src.settingsPath
  let overriding ← src.folder.read name
  let env := Environment.entries src.environment
  pure [defaults, file, env, overriding, env]

end Sources

namespace Settings

theorem laid_laidAll {root r : Value} {es : List (String × Value)} (hroot : root.isTable)
    (h : laid root es = .ok r) : Value.LaidAll root es r := by
  unfold laid at h
  split at h
  · rename_i r' hr'
    cases h
    exact Value.laidAll_of_layer hroot hr'
  · cases h

/-- Settings laid over a base are read from the base, then the file, then the environment,
each laid entry by entry. -/
theorem layerOver_laid {base fes : List (String × Value)} {src : Sources} {file : Option String}
    {s : Settings} (hfile : src.fileEntries file = .ok fes)
    (h : layerOver base src file = .ok s) :
    ∃ r₀ r, Value.LaidAll Value.emptyTable base r₀ ∧
      Value.LaidSources r₀ [fes, Environment.entries src.environment] r ∧ ofValue r = .ok s := by
  rw [layerOver] at h
  obtain ⟨r₀, h₀, h⟩ := except_bind_eq_ok.1 h
  have hall₀ := laid_laidAll rfl h₀
  -- below the environment stands the base, with the file laid over it if one is named
  obtain ⟨r₁, hall₁, h⟩ : ∃ r₁, Value.LaidAll r₀ fes r₁ ∧
      (laid r₁ (Environment.entries src.environment) >>= ofValue) = .ok s := by
    cases file with
    | none =>
      cases hfile
      exact ⟨r₀, .nil r₀, h⟩
    | some name =>
      rw [Sources.fileEntries] at hfile
      dsimp only at h
      obtain ⟨fes', hread, h⟩ := except_bind_eq_ok.1 h
      rw [hfile] at hread
      cases hread
      obtain ⟨r₁, h₁, h⟩ := except_bind_eq_ok.1 h
      exact ⟨r₁, laid_laidAll (hall₀.isTable rfl) h₁, h⟩
  obtain ⟨r, h₂, hs⟩ := except_bind_eq_ok.1 h
  have hall₂ := laid_laidAll (hall₁.isTable (hall₀.isTable rfl)) h₂
  exact ⟨r₀, r, hall₀, .cons hall₁ (.cons hall₂ (.nil r)), hs⟩

/-- Settings laid over a base that gives every setting a leaf hold at each setting what the
highest of the base, the file and the environment that gives it a leaf gives it. -/
theorem reads_of_layerOver {base fes : List (String × Value)} {src : Sources}
    {file : Option String} {s : Settings}
    (hleaf : ∀ k : Key, (Value.sourceLeaf base k.sectionName k.fieldName).isSome)
    (hfile : src.fileEntries file = .ok fes)
    (hplain : ∀ es ∈ [base, fes, Environment.entries src.environment], ∀ e ∈ es, Plain e = true)
    (h : layerOver base src file = .ok s) (k : Key) :
    ∃ w, Value.highestLeaf [base, fes, Environment.entries src.environment] k.sectionName
      k.fieldName = some w ∧ k.Reads w s := by
  obtain ⟨r₀, r, hall₀, hrest, hs⟩ := layerOver_laid hfile h
  have hshaped : Shaped r := (Shaped.of_sourceLeaf hall₀ (hplain base (by simp)) hleaf).laidSources
    hrest fun es hes => hplain es (List.mem_cons_of_mem _ hes)
  obtain ⟨w, hw, hreads⟩ := hshaped.reads hs k
  refine ⟨w, ?_, hreads⟩
  -- the empty table holds no leaf, so the leaf is one that a source gives
  have hsources : Value.LaidSources Value.emptyTable
      [base, fes, Environment.entries src.environment] r :=
    .cons hall₀ hrest
  rcases hsources.leafAt hw with hhigh | ⟨-, hnone⟩
  · exact hhigh
  · simp [Value.leafAt, Value.slotAt] at hnone

theorem reach_directory : (KeyPath.ofKey "directory").reach = .top "directory" := rfl

theorem reach_reactor : (KeyPath.ofKey "reactor").reach = .top "reactor" := rfl

/-- Settings as a source: the two sections, each a table of its fields. -/
theorem entries_eq_ok {s : Settings} {es : List (String × Value)} (h : s.entries = .ok es) :
    es = [("directory", s.directory.toValue), ("reactor", .table none
      [("identifier", .text none s.reactor.identifier),
        ("threads", .int none s.reactor.threads)])] := by
  simp only [entries, toValue, ReactorSettings.toValue] at h
  split at h
  · cases h
  · cases h
    rfl

theorem plain_of_entries {s : Settings} {es : List (String × Value)} (h : s.entries = .ok es) :
    ∀ e ∈ es, Plain e = true := by
  rw [entries_eq_ok h]
  simp [Plain, Value.keepsTable, Value.keepsSection, reach_directory, reach_reactor,
    DirectorySettings.toValue]

/-- Settings as a source give each setting the value they hold. -/
theorem sourceLeaf_entries {s : Settings} {es : List (String × Value)} (h : s.entries = .ok es)
    (k : Key) : Value.sourceLeaf es k.sectionName k.fieldName = some (k.valueOf s) := by
  rw [Value.sourceLeaf, entries_eq_ok h]
  cases k <;> simp [Value.sourceTouch, Value.entryTouch, reach_directory, reach_reactor,
    Value.touchAt, Value.touchPlaced, Value.touchEntries, Value.touchOf, Touch.andThen,
    Touch.apply, Key.valueOf, DirectorySettings.toValue, Key.sectionName, Key.fieldName]

end Settings

/-! ## Checking settings -/

theorem Text.trimBlanks_eq_empty_iff (s : String) :
    Text.trimBlanks s = "" ↔ ∀ c ∈ s.toList, Text.isBlank c = true := by
  -- trimming drops the blanks of the front, and then those of the back of what is left
  have htrim : Text.trimBlanks s =
      String.ofList ((s.toList.dropWhile Text.isBlank).rdropWhile Text.isBlank) := rfl
  rw [htrim, String.ofList_eq_empty_iff, List.rdropWhile_eq_nil_iff, ← List.dropWhile_eq_nil_iff,
    List.dropWhile_idempotent, List.dropWhile_eq_nil_iff]

namespace Settings

/-- Settings are valid when the base path makes a `Base`, the identifier has a character that is
not blank and there is at least one worker. -/
def Valid (s : Settings) : Prop :=
  (∃ b, Base.ofString s.directory.basePath = .ok b) ∧
    (∃ c ∈ s.reactor.identifier.toList, Text.isBlank c = false) ∧ 0 < s.reactor.threads

/-- Checking passes, and gives the settings back, exactly when they are valid. -/
theorem validate_eq_ok_iff (s r : Settings) : s.validate = .ok r ↔ r = s ∧ s.Valid := by
  unfold Valid
  have hblank : (Text.trimBlanks s.reactor.identifier).isEmpty = true ↔
      ∀ c ∈ s.reactor.identifier.toList, Text.isBlank c = true := by
    rw [String.isEmpty_iff, Text.trimBlanks_eq_empty_iff]
  unfold validate
  cases hb : Base.ofString s.directory.basePath with
  | error e =>
    constructor
    · intro h
      cases h
    · rintro ⟨-, ⟨b, hb'⟩, -⟩
      cases hb'
  | ok b =>
    by_cases hid : (Text.trimBlanks s.reactor.identifier).isEmpty = true
    · -- every character of the identifier is blank
      have hall := hblank.1 hid
      simp only [hid, if_true]
      constructor
      · intro h
        cases h
      · rintro ⟨-, -, ⟨c, hc, hcb⟩, -⟩
        rw [hall c hc] at hcb
        cases hcb
    · have hsome : ∃ c ∈ s.reactor.identifier.toList, Text.isBlank c = false := by
        by_contra hno
        refine hid (hblank.2 fun c hc => ?_)
        cases hcb : Text.isBlank c
        · exact absurd ⟨c, hc, hcb⟩ hno
        · rfl
      simp only [hid, if_false, Bool.false_eq_true]
      by_cases hn : s.reactor.threads = 0
      · simp only [hn, if_true]
        constructor
        · intro h
          cases h
        · rintro ⟨-, -, -, hpos⟩
          omega
      · simp only [hn, if_false]
        constructor
        · intro h
          cases h
          exact ⟨rfl, ⟨b, rfl⟩, hsome, Nat.pos_of_ne_zero hn⟩
        · rintro ⟨rfl, -⟩
          rfl

/-- A base path that makes no `Base` is reported, whatever the reactor's settings. -/
theorem validate_of_basePath_error {s : Settings} {e : PathError}
    (h : Base.ofString s.directory.basePath = .error e) :
    s.validate = .error (.basePath s.directory.basePath e) := by
  simp only [validate, h]

end Settings

/-- Settings hold at each setting what the highest of some sources that gives it a leaf gives
it, read as the setting; the sources are listed lowest first. -/
def Settings.FollowSources (s : Settings) (layers : List (List (String × Value))) : Prop :=
  ∀ k : Key, ∃ w, Value.highestLeaf layers k.sectionName k.fieldName = some w ∧ k.Reads w s

/-- Settings loaded and then laid over by an override hold at each setting what the highest of
their sources that gives it a leaf gives it, as long as every source keeps both sections
tables: it lays nothing but a table at a section's name, and no key of it steps into an array
right below one. Checking them then passes exactly when they are valid,
and a base path that makes no `Base` is what it reports. -/
theorem settings_follow_highest_source {src : Sources} {name : String}
    {layers : List (List (String × Value))} {s : Settings}
    (hlayers : src.layers name = .ok layers) (hplain : ∀ es ∈ layers, ∀ e ∈ es, Plain e = true)
    (hs : (Settings.load src >>= (·.withOverride src name)) = .ok s) :
    s.FollowSources layers ∧ (∀ r, s.validate = .ok r ↔ r = s ∧ s.Valid) ∧
      ∀ e, Base.ofString s.directory.basePath = .error e →
        s.validate = .error (.basePath s.directory.basePath e) := by
  refine ⟨fun k => ?_, Settings.validate_eq_ok_iff s, fun _ => Settings.validate_of_basePath_error⟩
  -- the five sources
  obtain ⟨d, hd, h⟩ := except_bind_eq_ok.1 hlayers
  obtain ⟨f, hf, h⟩ := except_bind_eq_ok.1 h
  obtain ⟨o, ho, h⟩ := except_bind_eq_ok.1 h
  cases h
  -- the load, then the override over the settings loaded
  obtain ⟨s₁, hload, hover⟩ := except_bind_eq_ok.1 hs
  obtain ⟨d', hd', hload⟩ := except_bind_eq_ok.1 hload
  rw [hd] at hd'
  cases hd'
  obtain ⟨e₁, he₁, hover⟩ := except_bind_eq_ok.1 hover
  have hleaf : ∀ {es} {s' : Settings}, s'.entries = .ok es →
      ∀ k : Key, (Value.sourceLeaf es k.sectionName k.fieldName).isSome := fun h k => by
    rw [Settings.sourceLeaf_entries h k]
    rfl
  obtain ⟨w₁, hw₁, hr₁⟩ := Settings.reads_of_layerOver (hleaf hd) hf
    (fun es hes => hplain es (List.mem_append_left [o, Environment.entries src.environment] hes))
    hload k
  have hplain₂ :
      ∀ es ∈ [e₁, o, Environment.entries src.environment], ∀ e ∈ es, Plain e = true := by
    simp only [List.mem_cons, List.not_mem_nil, or_false, forall_eq_or_imp, forall_eq]
    exact ⟨Settings.plain_of_entries he₁, hplain o (by simp), hplain _ (by simp)⟩
  obtain ⟨w, hw, hr⟩ := Settings.reads_of_layerOver (hleaf he₁)
    (show src.fileEntries (some name) = .ok o from ho) hplain₂ hover k
  -- the two upper sources decide, unless neither gives the setting a leaf: then the settings
  -- loaded carry the leaf that the three lower ones give
  have hsplit : [d, f, Environment.entries src.environment, o, Environment.entries src.environment] =
      [d, f, Environment.entries src.environment] ++ [o, Environment.entries src.environment] := rfl
  rw [hsplit, Value.highestLeaf_append]
  rw [Value.highestLeaf_cons, Settings.sourceLeaf_entries he₁] at hw
  cases hhigh : Value.highestLeaf [o, Environment.entries src.environment] k.sectionName
      k.fieldName with
  | some u =>
    rw [hhigh, Option.some_or] at hw
    rw [Option.some_or]
    exact ⟨w, hw, hr⟩
  | none =>
    rw [hhigh, Option.none_or] at hw
    cases hw
    rw [Option.none_or]
    exact ⟨w₁, hw₁, Key.reads_of_valueOf hr hr₁⟩

/-- A file that sets the base path, a variable that sets the worker count, an override whose
key makes an array below a field of the directory: the array leaves the base path alone, and
each setting comes from the one source that gives it, or from the defaults. -/
theorem settings_follow_highest_source_sample :
    let src : Sources :=
      { folder := (({ place := "cfg" } : Folder).write "directory.toml"
          "[directory]\nbase_path = \"/f\"\n").write "override.toml"
          "\"directory.extra[0]\" = 1\n",
        settingsPath := some "directory.toml",
        environment := [("DIRECTORY__REACTOR__THREADS", "4")] }
    let s : Settings := { directory := { basePath := "/f" }, reactor := { threads := 4 } }
    ∃ layers, src.layers "override.toml" = .ok layers ∧
      (∀ es ∈ layers, ∀ e ∈ es, Plain e = true) ∧
      (Settings.load src >>= (·.withOverride src "override.toml")) = .ok s ∧
      s.FollowSources layers ∧ (∀ r, s.validate = .ok r ↔ r = s ∧ s.Valid) ∧
      ∀ e, Base.ofString s.directory.basePath = .error e →
        s.validate = .error (.basePath s.directory.basePath e) := by
  intro src s
  obtain ⟨layers, hlayers, hplain⟩ := except_exists_ok (x := src.layers "override.toml")
    (p := fun layers => decide (∀ es ∈ layers, ∀ e ∈ es, Plain e = true)) (by decide +kernel)
  have hs := except_eq_ok_of_toOption
    (x := Settings.load src >>= (·.withOverride src "override.toml")) (a := s) (by decide +kernel)
  exact ⟨layers, hlayers, of_decide_eq_true hplain, hs,
    settings_follow_highest_source hlayers (of_decide_eq_true hplain) hs⟩

/-- An override that lays a number at the directory's name throws away the base path that the
file below it gives: the base path goes back to its default, though the file is the highest
source that gives it a leaf. -/
theorem override_section_number_resets_base_path :
    let src : Sources :=
      { folder := (({ place := "cfg" } : Folder).write "directory.toml"
          "[directory]\nbase_path = \"/f\"\n").write "override.toml" "directory = 5\n",
        settingsPath := some "directory.toml",
        environment := [("DIRECTORY__DIRECTORY__SESSION_ID", "3")] }
    let s : Settings := { directory := { sessionId := 3, basePath := "/" } }
    ∃ layers, src.layers "override.toml" = .ok layers ∧
      (Settings.load src >>= (·.withOverride src "override.toml")) = .ok s ∧
      ¬ s.FollowSources layers := by
  intro src s
  obtain ⟨layers, hlayers, hfile⟩ := except_exists_ok (x := src.layers "override.toml")
    (p := fun layers => ((Value.highestLeaf layers "directory" "base_path").map
      fun w => (w.toText "directory.base_path").toOption) == some (some "/f")) (by decide +kernel)
  have hs := except_eq_ok_of_toOption
    (x := Settings.load src >>= (·.withOverride src "override.toml")) (a := s) (by decide +kernel)
  refine ⟨layers, hlayers, hs, fun hfollow => ?_⟩
  -- the highest leaf at the base path reads as "/f", the settings hold "/"
  obtain ⟨w, hw, hreads⟩ := hfollow .basePath
  simp only [Key.sectionName, Key.fieldName] at hw
  simp only [hw, Option.map_some, beq_iff_eq, Option.some.injEq] at hfile
  simp only [Key.Reads] at hreads
  rw [hreads] at hfile
  exact absurd hfile (by decide)

end CoordStore.Config
