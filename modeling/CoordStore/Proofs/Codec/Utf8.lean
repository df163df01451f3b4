import CoordStore.Codec.Utf8

/-!
# UTF-8: the decoder reads back exactly the encoder's bytes

Texts are stored as the UTF-8 bytes of their characters (`encode`) and read back by a decoder
that accepts only the shortest form of each character and no surrogate (`decodeFrom`). The two
are inverse on the nose: decoding the bytes of a text gives the text
(`decode_encode`), and bytes that decode are the bytes of what they decode to
(`eq_encode_of_decode`), so every text has one written form.

Both directions go one character at a time. A character's code decides how many bytes it
takes, and the encoder's bytes lie in the ranges the decoder asks of a leading and a following
byte (`decodeFrom_utf8EncodeChar_append`); conversely, the ranges the decoder accepts give a
code that is a Unicode scalar value with exactly those bytes (`utf8EncodeChar_two` and its
siblings). All byte arithmetic is on the bytes' values as numbers.
-/

namespace CoordStore.Codec

/-! ## Bytes and characters as numbers -/


theorem isCont_iff {b : UInt8} : isCont b = true ↔ 0x80 ≤ b.toNat ∧ b.toNat ≤ 0xBF := by
  simp [isCont, UInt8.le_iff_toNat_le]

theorem range_iff {b lo hi : UInt8} : (lo ≤ b && b ≤ hi) = true ↔ lo.toNat ≤ b.toNat ∧ b.toNat ≤ hi.toNat := by
  simp [UInt8.le_iff_toNat_le]

theorem secondOfThree_iff {lead b : UInt8} :
    secondOfThree lead b = true ↔ (lead.toNat = 0xE0 → 0xA0 ≤ b.toNat) ∧
      (lead.toNat = 0xED → b.toNat ≤ 0x9F) ∧ 0x80 ≤ b.toNat ∧ b.toNat ≤ 0xBF := by
  unfold secondOfThree
  by_cases h0 : lead = 0xE0
  · subst h0
    simp [UInt8.le_iff_toNat_le]
    omega
  · by_cases h1 : lead = 0xED
    · subst h1
      simp [UInt8.le_iff_toNat_le]
      omega
    · have h0' : lead.toNat ≠ 0xE0 := fun h => h0 (UInt8.toNat_inj.1 h)
      have h1' : lead.toNat ≠ 0xED := fun h => h1 (UInt8.toNat_inj.1 h)
      simp [isCont_iff, h0, h1, h0', h1']

theorem secondOfFour_iff {lead b : UInt8} :
    secondOfFour lead b = true ↔ (lead.toNat = 0xF0 → 0x90 ≤ b.toNat) ∧
      (lead.toNat = 0xF4 → b.toNat ≤ 0x8F) ∧ 0x80 ≤ b.toNat ∧ b.toNat ≤ 0xBF := by
  unfold secondOfFour
  by_cases h0 : lead = 0xF0
  · subst h0
    simp [UInt8.le_iff_toNat_le]
    omega
  · by_cases h1 : lead = 0xF4
    · subst h1
      simp [UInt8.le_iff_toNat_le]
      omega
    · have h0' : lead.toNat ≠ 0xF0 := fun h => h0 (UInt8.toNat_inj.1 h)
      have h1' : lead.toNat ≠ 0xF4 := fun h => h1 (UInt8.toNat_inj.1 h)
      simp [isCont_iff, h0, h1, h0', h1']

theorem toNat_valid (c : Char) : c.toNat < 0xd800 ∨ (0xdfff < c.toNat ∧ c.toNat < 0x110000) := by
  have := c.valid
  simp only [UInt32.isValidChar, Nat.isValidChar] at this
  simp only [Char.toNat]
  omega

theorem toNat_ofNat_of_valid {n : Nat} (h : n < 0xd800 ∨ (0xdfff < n ∧ n < 0x110000)) :
    (Char.ofNat n).toNat = n := by
  rw [Char.ofNat, dif_pos h]
  rfl

theorem utf8EncodeChar_three {b c d : UInt8} (hb : (0xE0 ≤ b && b ≤ 0xEF) = true)
    (hc : secondOfThree b c = true) (hd : isCont d = true) :
    String.utf8EncodeChar (Char.ofNat ((b.toNat % 16) * 4096 + low6 c * 64 + low6 d)) = [b, c, d] := by
  rw [range_iff] at hb
  rw [secondOfThree_iff] at hc
  rw [isCont_iff] at hd
  simp only [UInt8.reduceToNat] at hb
  unfold low6
  have hv := toNat_ofNat_of_valid (n := (b.toNat % 16) * 4096 + c.toNat % 64 * 64 + d.toNat % 64) (by omega)
  simp only [String.utf8EncodeChar, Char.toNat_val] at *
  rw [hv, if_neg (by omega), if_neg (by omega), if_pos (by omega)]
  simp only [List.cons.injEq, ← UInt8.toNat_inj, UInt8.toNat_ofNat', and_true]
  omega

theorem utf8EncodeChar_four {b c d e : UInt8} (hb : (0xF0 ≤ b && b ≤ 0xF4) = true)
    (hc : secondOfFour b c = true) (hd : isCont d = true) (he : isCont e = true) :
    String.utf8EncodeChar (Char.ofNat ((b.toNat % 8) * 262144 + low6 c * 4096 + low6 d * 64 + low6 e)) = [b, c, d, e] := by
  rw [range_iff] at hb
  rw [secondOfFour_iff] at hc
  rw [isCont_iff] at hd he
  simp only [UInt8.reduceToNat] at hb
  unfold low6
  have hv := toNat_ofNat_of_valid (n := (b.toNat % 8) * 262144 + c.toNat % 64 * 4096 + d.toNat % 64 * 64 + e.toNat % 64) (by omega)
  simp only [String.utf8EncodeChar, Char.toNat_val] at *
  rw [hv, if_neg (by omega), if_neg (by omega), if_neg (by omega)]
  simp only [List.cons.injEq, ← UInt8.toNat_inj, UInt8.toNat_ofNat', and_true]
  omega


theorem utf8EncodeChar_one {b : UInt8} (hb : b < 0x80) :
    String.utf8EncodeChar (Char.ofNat b.toNat) = [b] := by
  rw [UInt8.lt_iff_toNat_lt] at hb
  simp only [UInt8.reduceToNat] at hb
  have hv := toNat_ofNat_of_valid (n := b.toNat) (by omega)
  simp only [String.utf8EncodeChar, Char.toNat_val] at *
  rw [hv, if_pos (by omega)]
  simp

theorem utf8EncodeChar_two {b c : UInt8} (hb : (0xC2 ≤ b && b ≤ 0xDF) = true)
    (hc : isCont c = true) :
    String.utf8EncodeChar (Char.ofNat ((b.toNat % 32) * 64 + low6 c)) = [b, c] := by
  rw [range_iff] at hb
  rw [isCont_iff] at hc
  simp only [UInt8.reduceToNat] at hb
  unfold low6
  have hv := toNat_ofNat_of_valid (n := (b.toNat % 32) * 64 + c.toNat % 64) (by omega)
  simp only [String.utf8EncodeChar, Char.toNat_val] at *
  rw [hv, if_neg (by omega), if_pos (by omega)]
  simp only [List.cons.injEq, ← UInt8.toNat_inj, UInt8.toNat_ofNat', and_true]
  omega

/-! ## One step of the decoder -/

theorem decodeFrom_one {b : UInt8} (hb : b < 0x80) (i : Nat) (rest : List UInt8) :
    decodeFrom i (b :: rest) = (Char.ofNat b.toNat :: ·) <$> decodeFrom (i + 1) rest := by
  rw [decodeFrom.eq_def]
  simp [hb]

theorem decodeFrom_two {b c : UInt8} (hb : (0xC2 ≤ b && b ≤ 0xDF) = true)
    (hc : isCont c = true) (i : Nat) (rest : List UInt8) :
    decodeFrom i (b :: c :: rest) =
      (Char.ofNat ((b.toNat % 32) * 64 + low6 c) :: ·) <$> decodeFrom (i + 2) rest := by
  have hb1 : ¬ b < 0x80 := by
    rw [range_iff] at hb
    simp [UInt8.lt_iff_toNat_lt] at hb ⊢
    omega
  rw [decodeFrom.eq_def]
  simp [hb1, hb, hc]

theorem decodeFrom_three {b c d : UInt8} (hb : (0xE0 ≤ b && b ≤ 0xEF) = true)
    (hc : secondOfThree b c = true) (hd : isCont d = true) (i : Nat) (rest : List UInt8) :
    decodeFrom i (b :: c :: d :: rest) =
      (Char.ofNat ((b.toNat % 16) * 4096 + low6 c * 64 + low6 d) :: ·) <$>
        decodeFrom (i + 3) rest := by
  rw [range_iff] at hb
  have hb1 : ¬ b < 0x80 := by
    simp [UInt8.lt_iff_toNat_lt] at hb ⊢
    omega
  have hb2 : (0xC2 ≤ b && b ≤ 0xDF) = false := by
    simp [UInt8.le_iff_toNat_le] at hb ⊢
    omega
  rw [decodeFrom.eq_def]
  simp [hb1, hb2, range_iff.2 hb, hc, hd]

theorem decodeFrom_four {b c d e : UInt8} (hb : (0xF0 ≤ b && b ≤ 0xF4) = true)
    (hc : secondOfFour b c = true) (hd : isCont d = true) (he : isCont e = true) (i : Nat)
    (rest : List UInt8) :
    decodeFrom i (b :: c :: d :: e :: rest) =
      (Char.ofNat ((b.toNat % 8) * 262144 + low6 c * 4096 + low6 d * 64 + low6 e) :: ·) <$>
        decodeFrom (i + 4) rest := by
  rw [range_iff] at hb
  have hb1 : ¬ b < 0x80 := by
    simp [UInt8.lt_iff_toNat_lt] at hb ⊢
    omega
  have hb2 : (0xC2 ≤ b && b ≤ 0xDF) = false := by
    simp [UInt8.le_iff_toNat_le] at hb ⊢
    omega
  have hb3 : (0xE0 ≤ b && b ≤ 0xEF) = false := by
    simp [UInt8.le_iff_toNat_le] at hb ⊢
    omega
  rw [decodeFrom.eq_def]
  simp [hb1, hb2, hb3, range_iff.2 hb, hc, hd, he]


/-! ## The bytes of a character -/

section Bytes

variable {c : Char}

theorem utf8EncodeChar_eq_one (h : c.toNat < 0x80) :
    ∃ b, String.utf8EncodeChar c = [b] ∧ b.toNat = c.toNat := by
  simp only [String.utf8EncodeChar, Char.toNat_val]
  rw [if_pos (by omega)]
  exact ⟨_, rfl, by simp; omega⟩

theorem utf8EncodeChar_eq_two (h1 : 0x80 ≤ c.toNat) (h2 : c.toNat < 0x800) :
    ∃ b d, String.utf8EncodeChar c = [b, d] ∧ b.toNat = c.toNat / 64 + 0xC0 ∧
      d.toNat = c.toNat % 64 + 0x80 := by
  simp only [String.utf8EncodeChar, Char.toNat_val]
  rw [if_neg (by omega), if_pos (by omega)]
  exact ⟨_, _, rfl, by simp; omega, by simp; omega⟩

theorem utf8EncodeChar_eq_three (h1 : 0x800 ≤ c.toNat) (h2 : c.toNat < 0x10000) :
    ∃ b d e, String.utf8EncodeChar c = [b, d, e] ∧ b.toNat = c.toNat / 4096 + 0xE0 ∧
      d.toNat = c.toNat / 64 % 64 + 0x80 ∧ e.toNat = c.toNat % 64 + 0x80 := by
  simp only [String.utf8EncodeChar, Char.toNat_val]
  rw [if_neg (by omega), if_neg (by omega), if_pos (by omega)]
  exact ⟨_, _, _, rfl, by simp; omega, by simp; omega, by simp; omega⟩

theorem utf8EncodeChar_eq_four (h1 : 0x10000 ≤ c.toNat) (h2 : c.toNat < 0x110000) :
    ∃ b d e f, String.utf8EncodeChar c = [b, d, e, f] ∧ b.toNat = c.toNat / 262144 + 0xF0 ∧
      d.toNat = c.toNat / 4096 % 64 + 0x80 ∧ e.toNat = c.toNat / 64 % 64 + 0x80 ∧
      f.toNat = c.toNat % 64 + 0x80 := by
  simp only [String.utf8EncodeChar, Char.toNat_val]
  rw [if_neg (by omega), if_neg (by omega), if_neg (by omega)]
  exact ⟨_, _, _, _, rfl, by simp; omega, by simp; omega, by simp; omega, by simp; omega⟩

end Bytes

/-- The decoder reads a character's bytes back as the character and goes on after them. -/
theorem decodeFrom_utf8EncodeChar_append (c : Char) (i : Nat) (rest : List UInt8) :
    decodeFrom i (String.utf8EncodeChar c ++ rest) =
      (c :: ·) <$> decodeFrom (i + (String.utf8EncodeChar c).length) rest := by
  have hc := toNat_valid c
  by_cases h1 : c.toNat < 0x80
  · obtain ⟨b, henc, hb⟩ := utf8EncodeChar_eq_one h1
    rw [henc, List.cons_append, List.nil_append,
      decodeFrom_one (UInt8.lt_iff_toNat_lt.2 (by simp; omega)), hb, Char.ofNat_toNat]
    rfl
  by_cases h2 : c.toNat < 0x800
  · obtain ⟨b, d, henc, hb, hd⟩ := utf8EncodeChar_eq_two (by omega) h2
    rw [henc, List.cons_append, List.cons_append, List.nil_append,
      decodeFrom_two (range_iff.2 (by simp; omega)) (isCont_iff.2 (by omega)),
      show b.toNat % 32 * 64 + low6 d = c.toNat by unfold low6; omega, Char.ofNat_toNat]
    rfl
  by_cases h3 : c.toNat < 0x10000
  · obtain ⟨b, d, e, henc, hb, hd, he⟩ := utf8EncodeChar_eq_three (by omega) h3
    rw [henc, List.cons_append, List.cons_append, List.cons_append, List.nil_append,
      decodeFrom_three (range_iff.2 (by simp; omega)) (secondOfThree_iff.2 (by omega))
        (isCont_iff.2 (by omega)),
      show b.toNat % 16 * 4096 + low6 d * 64 + low6 e = c.toNat by unfold low6; omega,
      Char.ofNat_toNat]
    rfl
  · obtain ⟨b, d, e, f, henc, hb, hd, he, hf⟩ := utf8EncodeChar_eq_four (c := c) (by omega) (by omega)
    rw [henc, List.cons_append, List.cons_append, List.cons_append, List.cons_append,
      List.nil_append,
      decodeFrom_four (range_iff.2 (by simp; omega)) (secondOfFour_iff.2 (by omega))
        (isCont_iff.2 (by omega)) (isCont_iff.2 (by omega)),
      show b.toNat % 8 * 262144 + low6 d * 4096 + low6 e * 64 + low6 f = c.toNat by
        unfold low6; omega,
      Char.ofNat_toNat]
    rfl

theorem decodeFrom_flatMap (cs : List Char) (i : Nat) :
    decodeFrom i (cs.flatMap String.utf8EncodeChar) = .ok cs := by
  induction cs generalizing i with
  | nil => rfl
  | cons c cs ih =>
    rw [List.flatMap_cons, decodeFrom_utf8EncodeChar_append, ih]
    rfl

theorem map_cons_eq_ok {c : Char} {r : Except Utf8Error (List Char)} {cs : List Char}
    (h : (c :: ·) <$> r = .ok cs) : ∃ cs', r = .ok cs' ∧ cs = c :: cs' := by
  cases r with
  | error e => cases h
  | ok cs' =>
    cases h
    exact ⟨cs', rfl, rfl⟩

/-- Bytes the decoder accepts are the encoding of the characters it read. -/
theorem eq_flatMap_of_decodeFrom {i : Nat} {bs : List UInt8} {cs : List Char}
    (h : decodeFrom i bs = .ok cs) : bs = cs.flatMap String.utf8EncodeChar := by
  fun_induction decodeFrom i bs generalizing cs
  case case1 =>
    cases h
    rfl
  case case2 i b rest hb ih =>
    obtain ⟨cs', hcs', rfl⟩ := map_cons_eq_ok h
    rw [List.flatMap_cons, utf8EncodeChar_one hb, ← ih hcs']
    rfl
  case case4 i b hb0 hb c rest hc ih =>
    obtain ⟨cs', hcs', rfl⟩ := map_cons_eq_ok h
    rw [List.flatMap_cons, utf8EncodeChar_two hb hc, ← ih hcs']
    rfl
  case case8 i b hb0 hb1 hb c hc d rest hd ih =>
    obtain ⟨cs', hcs', rfl⟩ := map_cons_eq_ok h
    rw [List.flatMap_cons, utf8EncodeChar_three hb hc hd, ← ih hcs']
    rfl
  case case14 i b hb0 hb1 hb2 hb c hc d hd e rest he ih =>
    obtain ⟨cs', hcs', rfl⟩ := map_cons_eq_ok h
    rw [List.flatMap_cons, utf8EncodeChar_four hb hc hd he, ← ih hcs']
    rfl
  -- every other branch reports an error
  all_goals cases h

/-- Decoding the UTF-8 bytes of a text gives the text back. -/
theorem decode_encode (s : String) : decode (encode s) = .ok s := by
  rw [decode, encode, decodeFrom_flatMap]
  exact congrArg Except.ok String.ofList_toList

/-- Bytes that decode are the UTF-8 bytes of the text they decode to. -/
theorem eq_encode_of_decode {bs : List UInt8} {s : String} (h : decode bs = .ok s) :
    bs = encode s := by
  unfold decode at h
  cases hd : decodeFrom 0 bs with
  | error e =>
    rw [hd] at h
    cases h
  | ok cs =>
    rw [hd] at h
    cases h
    simp [encode, eq_flatMap_of_decodeFrom hd]

theorem decode_eq_ok_iff {bs : List UInt8} {s : String} : decode bs = .ok s ↔ bs = encode s :=
  ⟨eq_encode_of_decode, fun h => h ▸ decode_encode s⟩

end CoordStore.Codec
