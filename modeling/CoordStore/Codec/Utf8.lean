/-!
# UTF-8 decoding with the place of the first fault

Decoding reads one character at a time. A leading byte says how many bytes follow
(`C2`–`DF`: one, `E0`–`EF`: two, `F0`–`F4`: three); the byte after the leading one must lie in
the range that excludes overlong forms and surrogates, and the later ones are continuation
bytes (`80`–`BF`). At the first fault decoding stops and reports how many bytes were valid
before it, and either how many bytes form the invalid sequence or that the input ended inside
a character.
-/

namespace CoordStore.Codec

/-- Where and how a byte sequence stops being UTF-8. -/
structure Utf8Error where
  /-- The number of bytes that decoded before the fault. -/
  validUpTo : Nat
  /-- The length of the invalid sequence, or none when the input ends inside a character. -/
  errorLen : Option Nat
  deriving DecidableEq, Repr

/-- The sentence that reports the fault. -/
def Utf8Error.message (e : Utf8Error) : String :=
  match e.errorLen with
  | some n => "invalid utf-8 sequence of " ++ toString n ++ " bytes from index " ++
      toString e.validUpTo
  | none => "incomplete utf-8 byte sequence from index " ++ toString e.validUpTo

/-- Whether a byte continues a character. -/
def isCont (b : UInt8) : Bool :=
  0x80 ≤ b && b ≤ 0xBF

/-- Whether the second byte of a three-byte character fits its leading byte. -/
def secondOfThree (lead b : UInt8) : Bool :=
  if lead = 0xE0 then 0xA0 ≤ b && b ≤ 0xBF
  else if lead = 0xED then 0x80 ≤ b && b ≤ 0x9F
  else isCont b

/-- Whether the second byte of a four-byte character fits its leading byte. -/
def secondOfFour (lead b : UInt8) : Bool :=
  if lead = 0xF0 then 0x90 ≤ b && b ≤ 0xBF
  else if lead = 0xF4 then 0x80 ≤ b && b ≤ 0x8F
  else isCont b

/-- The payload bits of a continuation byte. -/
def low6 (b : UInt8) : Nat :=
  b.toNat % 64

/-- Decodes bytes, counting from position `i` for the error report. -/
def decodeFrom (i : Nat) : List UInt8 → Except Utf8Error (List Char)
  | [] => .ok []
  | b :: rest =>
    if b < 0x80 then
      (Char.ofNat b.toNat :: ·) <$> decodeFrom (i + 1) rest
    else if 0xC2 ≤ b && b ≤ 0xDF then
      match rest with
      | [] => .error ⟨i, none⟩
      | c :: rest =>
        if isCont c then
          (Char.ofNat ((b.toNat % 32) * 64 + low6 c) :: ·) <$> decodeFrom (i + 2) rest
        else .error ⟨i, some 1⟩
    else if 0xE0 ≤ b && b ≤ 0xEF then
      match rest with
      | [] => .error ⟨i, none⟩
      | c :: rest =>
        if secondOfThree b c then
          match rest with
          | [] => .error ⟨i, none⟩
          | d :: rest =>
            if isCont d then
              (Char.ofNat ((b.toNat % 16) * 4096 + low6 c * 64 + low6 d) :: ·) <$>
                decodeFrom (i + 3) rest
            else .error ⟨i, some 2⟩
        else .error ⟨i, some 1⟩
    else if 0xF0 ≤ b && b ≤ 0xF4 then
      match rest with
      | [] => .error ⟨i, none⟩
      | c :: rest =>
        if secondOfFour b c then
          match rest with
          | [] => .error ⟨i, none⟩
          | d :: rest =>
            if isCont d then
              match rest with
              | [] => .error ⟨i, none⟩
              | e :: rest =>
                if isCont e then
                  (Char.ofNat ((b.toNat % 8) * 262144 + low6 c * 4096 + low6 d * 64 + low6 e) :: ·)
                    <$> decodeFrom (i + 4) rest
                else .error ⟨i, some 3⟩
            else .error ⟨i, some 2⟩
        else .error ⟨i, some 1⟩
    else .error ⟨i, some 1⟩

/-- Decodes a whole byte sequence as UTF-8 text. -/
def decode (bs : List UInt8) : Except Utf8Error String :=
  String.ofList <$> decodeFrom 0 bs

/-- The UTF-8 bytes of a text. -/
def encode (s : String) : List UInt8 :=
  s.toList.flatMap String.utf8EncodeChar

end CoordStore.Codec
