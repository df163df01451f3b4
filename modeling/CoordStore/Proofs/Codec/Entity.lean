import CoordStore.Proofs.Codec.Utf8
import CoordStore.Entity.Basic

/-!
# The entity format reads back exactly what it writes

Each field of the binary format has a reader and a writer, and each pair satisfies one law
(`Codec.Reads`): the reader takes a value from the front of some bytes, leaving the rest,
exactly when the value is one the format can hold and the bytes are its written form followed
by that rest. Fixed-width numbers below `2 ^ 64` (`reads_u64`), booleans (`reads_bool`) and
texts whose UTF-8 length fits the length field (`reads_text`) satisfy it, and options,
counted repetitions and sequences of a field that satisfies it do too (`Reads.option`,
`Reads.times`, `Reads.seq`).

For entities the law reads: bytes decode as an entity of a kind exactly when the entity has
that kind, every number and length in it fits 64 bits, and the bytes start with its encoding
(`EntityKind.decode_eq_ok_iff_prefix`). So writing and reading back with anything after gives the
entity, and what reads as an entity starts with that entity's encoding: one written form per
entity, every non-canonical boolean, tag or UTF-8 byte refused, and trailing bytes left unread.
-/

namespace CoordStore

namespace Codec

/-- A reader reads back exactly what a writer writes of the values satisfying `P`, and nothing
else: it takes `a` from the front of some bytes, leaving `rest`, exactly when `a` satisfies `P`
and the bytes are the written form of `a` followed by `rest`. -/
def Reads {α : Type} (r : Reader α) (w : α → List UInt8) (P : α → Prop) : Prop :=
  ∀ bs a rest, r bs = .ok (a, rest) ↔ P a ∧ bs = w a ++ rest

/-- A text whose UTF-8 length fits the 64-bit length field. -/
def TextFits (s : String) : Prop :=
  (encode s).length < Nat.pow 2 64


namespace Reader

variable {α β : Type}

theorem bind_eq_ok {x : Reader α} {f : α → Reader β} {bs : List UInt8} {b : β}
    {rest : List UInt8} :
    (x >>= f) bs = .ok (b, rest) ↔ ∃ a mid, x bs = .ok (a, mid) ∧ f a mid = .ok (b, rest) := by
  show (do let (a, mid) ← x bs; f a mid) = _ ↔ _
  rcases x bs with e | ⟨a, mid⟩
  · simp [bind, Except.bind]
  · simp only [bind, Except.bind, Except.ok.injEq, Prod.mk.injEq]
    constructor
    · intro h
      exact ⟨a, mid, ⟨rfl, rfl⟩, h⟩
    · rintro ⟨a', mid', ⟨rfl, rfl⟩, h⟩
      exact h

theorem pure_eq_ok {a b : α} {bs rest : List UInt8} :
    (pure a : Reader α) bs = .ok (b, rest) ↔ a = b ∧ bs = rest := by
  show Except.ok (a, bs) = .ok (b, rest) ↔ _
  simp

theorem map_eq_ok {f : α → β} {x : Reader α} {bs : List UInt8} {b : β} {rest : List UInt8} :
    (f <$> x) bs = .ok (b, rest) ↔ ∃ a, x bs = .ok (a, rest) ∧ f a = b := by
  show (do let (a, mid) ← x bs; pure (f a, mid)) = _ ↔ _
  rcases x bs with e | ⟨a, mid⟩
  · simp [bind, Except.bind]
  · simp only [bind, Except.bind, pure, Except.pure, Except.ok.injEq, Prod.mk.injEq]
    constructor
    · rintro ⟨rfl, rfl⟩
      exact ⟨a, ⟨rfl, rfl⟩, rfl⟩
    · rintro ⟨a', ⟨rfl, rfl⟩, rfl⟩
      exact ⟨rfl, rfl⟩

theorem byte_eq_ok {bs : List UInt8} {b : UInt8} {rest : List UInt8} :
    byte bs = .ok (b, rest) ↔ bs = b :: rest := by
  cases bs <;> simp [byte, eq_comm]

end Reader

/-! ## Numbers -/

/-- The low `k + 1` bytes of a number, lowest first: its lowest byte, then the low `k` bytes of
the rest. -/
theorem bytes_succ (k n : Nat) :
    (List.range (k + 1)).map (fun i => UInt8.ofNat (n / Nat.pow 256 i % 256)) =
      UInt8.ofNat (n % 256) ::
        (List.range k).map fun i => UInt8.ofNat (n / 256 / Nat.pow 256 i % 256) := by
  rw [List.range_succ_eq_map, List.map_cons, List.map_map]
  congr 2
  · show n / 1 % 256 = n % 256
    rw [Nat.div_one]
  · funext i
    -- dividing by 256 and then by `256 ^ i` divides by `256 ^ (i + 1)`
    simp only [Function.comp, Nat.div_div_eq_div_mul]
    rw [Nat.mul_comm]
    rfl

/-- The low `k` bytes of a number read back give the number modulo `256 ^ k`. -/
theorem littleEndian_bytes : ∀ (k n : Nat),
    Reader.littleEndian ((List.range k).map fun i => UInt8.ofNat (n / Nat.pow 256 i % 256)) =
      n % Nat.pow 256 k
  | 0, n => by simp [Reader.littleEndian, Nat.mod_one]
  | k + 1, n => by
    have hrest := littleEndian_bytes k (n / 256)
    have hpow : Nat.pow 256 (k + 1) = 256 * Nat.pow 256 k := Nat.mul_comm _ _
    simp only [Reader.littleEndian] at hrest ⊢
    rw [bytes_succ, List.foldr_cons, hrest, hpow, Nat.mod_mul, UInt8.toNat_ofNat']
    simp

/-- Bytes read as a number and written back are the same bytes, and the number is below
`256 ^ n` for `n` bytes. -/
theorem bytes_littleEndian : ∀ l : List UInt8,
    (List.range l.length).map (fun i => UInt8.ofNat (Reader.littleEndian l / Nat.pow 256 i % 256)) =
      l ∧ Reader.littleEndian l < Nat.pow 256 l.length
  | [] => ⟨rfl, Nat.one_pos⟩
  | b :: l => by
    obtain ⟨hbytes, hlt⟩ := bytes_littleEndian l
    have hb : b.toNat < 256 := b.toNat_lt
    have hle : Reader.littleEndian (b :: l) = b.toNat + 256 * Reader.littleEndian l := rfl
    have hmod : (b.toNat + 256 * Reader.littleEndian l) % 256 = b.toNat := by omega
    have hdiv : (b.toNat + 256 * Reader.littleEndian l) / 256 = Reader.littleEndian l := by omega
    refine ⟨?_, ?_⟩
    · rw [List.length_cons, bytes_succ, hle, hmod, hdiv, hbytes, UInt8.ofNat_toNat]
    · rw [hle, List.length_cons]
      show _ < Nat.pow 256 l.length * 256
      omega

theorem littleEndian_u64 {n : Nat} (hn : n < Nat.pow 2 64) :
    Reader.littleEndian (Writer.u64 n) = n :=
  (littleEndian_bytes 8 n).trans (Nat.mod_eq_of_lt hn)

theorem u64_littleEndian {l : List UInt8} (hl : l.length = 8) :
    Writer.u64 (Reader.littleEndian l) = l ∧ Reader.littleEndian l < Nat.pow 2 64 := by
  have h := bytes_littleEndian l
  rw [hl] at h
  exact h

theorem reads_u64 : Reads Reader.u64 Writer.u64 (· < Nat.pow 2 64) := by
  intro bs a rest
  have hlen : ∀ n, (Writer.u64 n).length = 8 := fun n => by simp [Writer.u64]
  unfold Reader.u64
  constructor
  · intro h
    split at h
    · rename_i h8
      cases h
      have htake : (bs.take 8).length = 8 := by simp; omega
      obtain ⟨hw, hlt⟩ := u64_littleEndian htake
      exact ⟨hlt, by rw [hw, List.take_append_drop]⟩
    · cases h
  · rintro ⟨ha, rfl⟩
    rw [if_pos (by simp [hlen]), List.take_left' (hlen a), List.drop_left' (hlen a),
      littleEndian_u64 ha]


theorem reads_bool : Reads Reader.bool Writer.bool (fun _ => True) := by
  intro bs a rest
  unfold Reader.bool
  rw [Reader.bind_eq_ok]
  constructor
  · rintro ⟨b, mid, hb, h⟩
    rw [Reader.byte_eq_ok] at hb
    subst hb
    split at h
    · obtain ⟨rfl, rfl⟩ := Reader.pure_eq_ok.1 h
      exact ⟨trivial, rfl⟩
    · obtain ⟨rfl, rfl⟩ := Reader.pure_eq_ok.1 h
      exact ⟨trivial, rfl⟩
    · cases h
  · rintro ⟨-, rfl⟩
    cases a <;> exact ⟨_, rest, rfl, rfl⟩

section Combinators

variable {α β : Type} {r : Reader α} {w : α → List UInt8} {P : α → Prop}

theorem Reads.map (hr : Reads r w P) (f : α → β) {g : β → List UInt8} {Q : β → Prop}
    (hQ : ∀ b, Q b ↔ ∃ a, P a ∧ b = f a) (hg : ∀ a, g (f a) = w a) : Reads (f <$> r) g Q := by
  intro bs b rest
  rw [Reader.map_eq_ok, hQ]
  constructor
  · rintro ⟨a, ha, rfl⟩
    obtain ⟨hp, rfl⟩ := (hr bs a rest).1 ha
    exact ⟨⟨a, hp, rfl⟩, by rw [hg]⟩
  · rintro ⟨⟨a, hp, rfl⟩, rfl⟩
    exact ⟨a, (hr _ a rest).2 ⟨hp, by rw [hg]⟩, rfl⟩

theorem Reads.option (hr : Reads r w P) :
    Reads (Reader.option r) (Writer.option w) (fun o => ∀ a ∈ o, P a) := by
  intro bs o rest
  unfold Reader.option
  rw [Reader.bind_eq_ok]
  constructor
  · rintro ⟨b, mid, hb, h⟩
    rw [Reader.byte_eq_ok] at hb
    subst hb
    split at h
    · obtain ⟨rfl, rfl⟩ := Reader.pure_eq_ok.1 h
      exact ⟨by simp, rfl⟩
    · obtain ⟨a, ha, rfl⟩ := Reader.map_eq_ok.1 h
      obtain ⟨hp, rfl⟩ := (hr mid a rest).1 ha
      exact ⟨by simpa using hp, rfl⟩
    · cases h
  · rintro ⟨hp, rfl⟩
    cases o with
    | none => exact ⟨0, rest, rfl, rfl⟩
    | some a =>
      exact ⟨1, w a ++ rest, rfl,
        Reader.map_eq_ok.2 ⟨a, (hr _ a rest).2 ⟨hp a rfl, rfl⟩, rfl⟩⟩

theorem Reads.times (hr : Reads r w P) :
    ∀ n, Reads (Reader.times r n) (fun xs => xs.flatMap w)
      (fun xs => xs.length = n ∧ ∀ a ∈ xs, P a)
  | 0 => by
    intro bs xs rest
    rw [Reader.times, Reader.pure_eq_ok]
    constructor
    · rintro ⟨rfl, rfl⟩
      simp
    · rintro ⟨⟨hlen, -⟩, rfl⟩
      rw [List.length_eq_zero_iff] at hlen
      subst hlen
      simp
  | n + 1 => by
    intro bs xs rest
    rw [Reader.times, Reader.bind_eq_ok]
    constructor
    · rintro ⟨a, mid, ha, h⟩
      obtain ⟨as, mid', has, h⟩ := Reader.bind_eq_ok.1 h
      obtain ⟨rfl, rfl⟩ := Reader.pure_eq_ok.1 h
      obtain ⟨hp, rfl⟩ := (hr bs a mid).1 ha
      obtain ⟨⟨hlen, hps⟩, rfl⟩ := (Reads.times hr n mid as mid').1 has
      refine ⟨⟨by simp [hlen], ?_⟩, by simp⟩
      intro x hx
      rcases List.mem_cons.1 hx with rfl | hx
      · exact hp
      · exact hps x hx
    · rintro ⟨⟨hlen, hps⟩, rfl⟩
      cases xs with
      | nil => cases hlen
      | cons a as =>
        refine ⟨a, as.flatMap w ++ rest, (hr _ a _).2 ⟨hps a (by simp), by simp⟩, ?_⟩
        refine Reader.bind_eq_ok.2 ⟨as, rest, (Reads.times hr n _ as rest).2
          ⟨⟨by simpa using hlen, fun x hx => hps x (by simp [hx])⟩, rfl⟩, ?_⟩
        exact Reader.pure_eq_ok.2 ⟨rfl, rfl⟩

theorem Reads.seq (hr : Reads r w P) :
    Reads (Reader.seq r) (Writer.seq w) (fun xs => xs.length < Nat.pow 2 64 ∧ ∀ a ∈ xs, P a) := by
  intro bs xs rest
  unfold Reader.seq
  rw [Reader.bind_eq_ok]
  constructor
  · rintro ⟨n, mid, hn, h⟩
    obtain ⟨hlt, rfl⟩ := (reads_u64 bs n mid).1 hn
    obtain ⟨⟨rfl, hps⟩, rfl⟩ := (hr.times _ mid xs rest).1 h
    exact ⟨⟨hlt, hps⟩, by simp [Writer.seq]⟩
  · rintro ⟨⟨hlt, hps⟩, rfl⟩
    exact ⟨xs.length, xs.flatMap w ++ rest, (reads_u64 _ _ _).2 ⟨hlt, by simp [Writer.seq]⟩,
      (hr.times _ _ xs rest).2 ⟨⟨rfl, hps⟩, rfl⟩⟩

end Combinators

/-! ## Texts -/

/-- A text is read back when its length fits: the length, then exactly that many bytes, which
must be the UTF-8 bytes of a text. -/
theorem reads_text : Reads Reader.text Writer.text TextFits := by
  intro bs s rest
  unfold Reader.text
  rw [Reader.bind_eq_ok]
  constructor
  · rintro ⟨n, mid, hn, h⟩
    obtain ⟨hlt, rfl⟩ := (reads_u64 bs n mid).1 hn
    obtain ⟨mid', mid'', hget, h⟩ := Reader.bind_eq_ok.1 h
    cases hget
    split at h
    · cases h
    · rename_i hge
      obtain ⟨u, mid3, hset, h⟩ := Reader.bind_eq_ok.1 h
      cases hset
      cases hdec : decode (List.take n mid) with
      | ok s' =>
        rw [hdec] at h
        obtain ⟨rfl, rfl⟩ := Reader.pure_eq_ok.1 h
        -- the bytes taken are the text's bytes, so their count is the length read
        have henc := eq_encode_of_decode hdec
        have hlen : (encode s').length = n := by
          rw [← henc, List.length_take]
          omega
        refine ⟨by unfold TextFits; omega, ?_⟩
        rw [Writer.text, hlen, List.append_assoc, ← henc, List.take_append_drop]
      | error err =>
        rw [hdec] at h
        cases h
  · rintro ⟨hfit, rfl⟩
    refine ⟨(encode s).length, encode s ++ rest,
      (reads_u64 _ _ _).2 ⟨hfit, by simp [Writer.text]⟩, ?_⟩
    refine Reader.bind_eq_ok.2 ⟨encode s ++ rest, encode s ++ rest, rfl, ?_⟩
    rw [if_neg (by simp)]
    refine Reader.bind_eq_ok.2 ⟨(), rest, by rw [List.drop_left' rfl]; rfl, ?_⟩
    rw [List.take_left' rfl, decode_encode]
    rfl

end Codec

/-! ## Entities -/

open Codec

namespace Entity

/-- The kind of an entity. -/
def kind : Entity → EntityKind
  | text _ => .text
  | pool _ => .pool
  | u64 _ => .u64
  | optText _ => .optText

/-- Every number and every length in the entity fits its 64-bit field, as in every value of
the stored types. -/
def Fits : Entity → Prop
  | text s => TextFits s
  | pool p => TextFits p.name ∧ p.members.length < Nat.pow 2 64 ∧ ∀ m ∈ p.members, TextFits m
  | u64 n => n < Nat.pow 2 64
  | optText s => ∀ x ∈ s, TextFits x

end Entity

namespace EntityKind

/-- The reader of a pool reads its name, flag and members in turn. -/
theorem reads_pool : Reads EntityKind.pool.reader Entity.encode
    (fun e => e.kind = .pool ∧ e.Fits) := by
  intro bs e rest
  unfold reader
  rw [Reader.bind_eq_ok]
  constructor
  · rintro ⟨name, mid, hname, h⟩
    obtain ⟨up, mid', hup, h⟩ := Reader.bind_eq_ok.1 h
    obtain ⟨members, mid'', hmembers, h⟩ := Reader.bind_eq_ok.1 h
    obtain ⟨rfl, rfl⟩ := Reader.pure_eq_ok.1 h
    obtain ⟨hfit, rfl⟩ := (reads_text bs name mid).1 hname
    obtain ⟨-, rfl⟩ := (reads_bool mid up mid').1 hup
    obtain ⟨⟨hlen, hfits⟩, rfl⟩ := (reads_text.seq mid' members mid'').1 hmembers
    exact ⟨⟨rfl, hfit, hlen, hfits⟩, by simp [Entity.encode]⟩
  · rintro ⟨⟨hk, hfits⟩, rfl⟩
    cases e with
    | pool p =>
      obtain ⟨hname, hlen, hmembers⟩ := hfits
      refine ⟨p.name, Writer.bool p.adminStateUp ++ Writer.seq Writer.text p.members ++ rest,
        (reads_text _ _ _).2 ⟨hname, by simp [Entity.encode]⟩, ?_⟩
      refine Reader.bind_eq_ok.2 ⟨p.adminStateUp, Writer.seq Writer.text p.members ++ rest,
        (reads_bool _ _ _).2 ⟨trivial, by simp⟩, ?_⟩
      refine Reader.bind_eq_ok.2 ⟨p.members, rest,
        (reads_text.seq _ _ _).2 ⟨⟨hlen, hmembers⟩, rfl⟩, ?_⟩
      exact Reader.pure_eq_ok.2 ⟨rfl, rfl⟩
    | text _ => cases hk
    | u64 _ => cases hk
    | optText _ => cases hk

/-- The reader of each kind reads back exactly the encodings of the entities of that kind whose
numbers and lengths fit. -/
theorem reads_reader : ∀ k : EntityKind, Reads k.reader Entity.encode (fun e => e.kind = k ∧ e.Fits)
  | text => reads_text.map Entity.text (fun e => by cases e <;> simp [Entity.kind, Entity.Fits])
      (fun _ => rfl)
  | pool => reads_pool
  | u64 => reads_u64.map Entity.u64 (fun e => by cases e <;> simp [Entity.kind, Entity.Fits])
      (fun _ => rfl)
  | optText => reads_text.option.map Entity.optText
      (fun e => by cases e <;> simp [Entity.kind, Entity.Fits]) (fun _ => rfl)

/-- Entities read back exactly as written. Bytes decode as the entity `e` by a kind exactly when
`e` has that kind, every number and length in `e` fits 64 bits, and the bytes are the encoding
of `e` followed by anything: writing an entity and reading it back, with any bytes after, gives
the entity, and whatever reads as an entity starts with that entity's encoding. -/
theorem decode_eq_ok_iff_prefix {k : EntityKind} {b : List UInt8} {e : Entity} :
    k.decode b = .ok e ↔ e.kind = k ∧ e.Fits ∧ ∃ t, b = e.encode ++ t := by
  unfold decode
  constructor
  · intro h
    rcases hr : k.reader b with err | ⟨e', rest⟩
    · simp only [StateT.run, hr] at h
      cases h
    · simp only [StateT.run, hr] at h
      have he : e' = e := by
        cases h
        rfl
      subst he
      obtain ⟨⟨hk, hfit⟩, hb⟩ := (reads_reader k b _ rest).1 hr
      exact ⟨hk, hfit, rest, hb⟩
  · rintro ⟨hk, hfit, t, rfl⟩
    have hr := (reads_reader k _ e t).2 ⟨⟨hk, hfit⟩, rfl⟩
    simp only [StateT.run, hr]
    rfl

end EntityKind

end CoordStore
