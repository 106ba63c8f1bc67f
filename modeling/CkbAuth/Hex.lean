import Mathlib.Data.List.TakeWhile
import CkbAuth.Convert

/-!
# Hex strings

`ckb_hex.h` and the two encoders of the Rust side.  Whoever encodes, the
decoder gives the bytes back.
-/

namespace CkbAuth

/-- A NUL-terminated string: the bytes in front of the NUL. -/
structure CString where
  bytes : Bytes
  noNul : 0 ∉ bytes
  deriving DecidableEq

/-- The string at the start of a buffer. -/
def CString.ofBuffer (buf : Bytes) : CString where
  bytes := buf.takeWhile fun b ↦ b != 0
  noNul h := by simpa using List.mem_takeWhile_imp h

theorem CString.ofBuffer_append {bs : Bytes} (h : 0 ∉ bs) (rest : Bytes) :
    CString.ofBuffer (bs ++ 0 :: rest) = ⟨bs, h⟩ := by
  have hall : ∀ b ∈ bs, (b != 0) = true := by
    intro b hb
    simp only [bne_iff_ne, ne_eq]
    rintro rfl
    exact h hb
  simp [ofBuffer, List.takeWhile_append_of_pos hall]

@[simp] def errorHexOutOfBounds : ℤ := 30
@[simp] def errorHexInvalidHex : ℤ := 31

/-- `_ckb_getbin` -/
def ckbGetbin (x : UInt8) : Except ℤ UInt8 :=
  if 0x30 ≤ x ∧ x ≤ 0x39 then .ok (x - 0x30)
  else if 0x41 ≤ x ∧ x ≤ 0x46 then .ok (x - 0x41 + 10)
  else if 0x61 ≤ x ∧ x ≤ 0x66 then .ok (x - 0x61 + 10)
  else .error errorHexInvalidHex

/-- `_ckb_gethex` -/
def ckbGethex (x : UInt8) : Bytes :=
  let sMapping := ascii "0123456789abcdef"
  [sMapping.getD (x.toNat / 16 % 16) 0, sMapping.getD (x.toNat % 16) 0]

/-- `_ckb_safe_strlen`.  The count is compared before it can wrap. -/
def ckbSafeStrlen (s : CString) (limit : ℕ) : Except ℤ ℕ :=
  if limit < s.bytes.length then .error errorHexOutOfBounds else .ok s.bytes.length

/-- The loop of `ckb_hex2bin`, two digits at a time. -/
def hexPairs : Bytes → Except ℤ Bytes
  | high :: low :: rest =>
      match ckbGetbin high with
      | .error e => .error e
      | .ok high =>
          match ckbGetbin low with
          | .error e => .error e
          | .ok low =>
              match hexPairs rest with
              | .error e => .error e
              | .ok bin => .ok ((high <<< 4 ||| low) :: bin)
  | _ => .ok []

/-- The bytes written to `bin`; `*length` is their number.  The limit on the
length of the string is a `uint32_t`. -/
def ckbHex2bin (hex : CString) (binLen : ℕ) : Except ℤ Bytes :=
  match ckbSafeStrlen hex (2 * binLen % 2 ^ 32) with
  | .error e => .error e
  | .ok hexLen =>
      if hexLen % 2 ≠ 0 then .error errorHexInvalidHex
      else if binLen < hexLen / 2 then .error errorHexOutOfBounds
      else hexPairs hex.bytes

/-- The bytes written to `hex`, in 32-bit arithmetic. -/
def ckbBin2hex (bin : Bytes) (binLen hexLen : ℕ) (lastField : Bool) : Except ℤ Bytes :=
  if hexLen < (binLen * 2 + 1) % 2 ^ 32 then .error errorHexOutOfBounds
  else .ok ((bin.take binLen).flatMap ckbGethex ++ [if lastField then 0 else 0x3A])

/-- `hex::encode` -/
def hexEncode (data : Bytes) : Bytes :=
  let hexCharsLower := ascii "0123456789abcdef"
  data.flatMap fun b ↦ [hexCharsLower.getD (b.toNat / 16) 0, hexCharsLower.getD (b.toNat % 16) 0]

/-- `format!("{:02X?}", b)` -/
def formatUpperHex (b : UInt8) : Bytes :=
  let digits := ascii "0123456789ABCDEF"
  [digits.getD (b.toNat / 16) 0, digits.getD (b.toNat % 16) 0]

/-! ## Decoding what was encoded -/

/-- The two digits stand for the byte. -/
structure Spells (b high low : UInt8) : Prop where
  high : ckbGetbin high = .ok (b >>> 4)
  low : ckbGetbin low = .ok (b &&& 15)

/-- An encoder of bytes by two digits each. -/
def Encodes (enc : UInt8 → Bytes) : Prop :=
  ∀ b, ∃ high low, enc b = [high, low] ∧ Spells b high low

/-- What holds of the 256 bytes holds of every byte. -/
theorem forall_byte {P : UInt8 → Prop} (h : ∀ n < 256, P (UInt8.ofNat n)) (b : UInt8) : P b := by
  have hb := h b.toNat b.toNat_lt
  rwa [UInt8.ofNat_toNat] at hb

theorem encodes_ckbGethex : Encodes ckbGethex := by
  have hhigh : ∀ b : UInt8, ckbGetbin ((ascii "0123456789abcdef").getD (b.toNat / 16 % 16) 0) =
      .ok (b >>> 4) := forall_byte (by decide +kernel)
  have hlow : ∀ b : UInt8, ckbGetbin ((ascii "0123456789abcdef").getD (b.toNat % 16) 0) =
      .ok (b &&& 15) := forall_byte (by decide +kernel)
  exact fun b ↦ ⟨_, _, rfl, hhigh b, hlow b⟩

theorem encodes_formatUpperHex : Encodes formatUpperHex := by
  have hhigh : ∀ b : UInt8, ckbGetbin ((ascii "0123456789ABCDEF").getD (b.toNat / 16) 0) =
      .ok (b >>> 4) := forall_byte (by decide +kernel)
  have hlow : ∀ b : UInt8, ckbGetbin ((ascii "0123456789ABCDEF").getD (b.toNat % 16) 0) =
      .ok (b &&& 15) := forall_byte (by decide +kernel)
  exact fun b ↦ ⟨_, _, rfl, hhigh b, hlow b⟩

/-- C and Rust agree on the digits of a byte string. -/
theorem hexEncode_eq (data : Bytes) : hexEncode data = data.flatMap ckbGethex := by
  refine List.flatMap_congr fun b _ ↦ ?_
  have hb : b.toNat / 16 % 16 = b.toNat / 16 := by
    have := b.toNat_lt
    omega
  simp only [ckbGethex, hb]

theorem Spells.ne_zero {b high low : UInt8} (h : Spells b high low) : high ≠ 0 ∧ low ≠ 0 := by
  have hzero : ckbGetbin 0 = .error 31 := by decide
  constructor
  · rintro rfl
    cases hzero.symm.trans h.high
  · rintro rfl
    cases hzero.symm.trans h.low

theorem halves : ∀ b : UInt8, (b >>> 4) <<< 4 ||| (b &&& 15) = b :=
  forall_byte (by decide +kernel)

namespace Encodes

variable {enc : UInt8 → Bytes} (henc : Encodes enc) (bin : Bytes)
include henc

theorem length_flatMap : (bin.flatMap enc).length = 2 * bin.length := by
  induction bin with
  | nil => rfl
  | cons b bin ih =>
      obtain ⟨high, low, hb, _⟩ := henc b
      simp only [List.flatMap_cons, List.length_append, hb, ih, List.length_cons, List.length_nil]
      omega

theorem noNul_flatMap : 0 ∉ bin.flatMap enc := by
  intro h
  obtain ⟨b, _, hb⟩ := List.mem_flatMap.mp h
  obtain ⟨high, low, heq, hspells⟩ := henc b
  obtain ⟨hhigh, hlow⟩ := hspells.ne_zero
  rw [heq] at hb
  rcases List.mem_pair.mp hb with h | h
  · exact hhigh h.symm
  · exact hlow h.symm

theorem hexPairs_flatMap : hexPairs (bin.flatMap enc) = .ok bin := by
  induction bin with
  | nil => rfl
  | cons b bin ih =>
      obtain ⟨high, low, hb, hspells⟩ := henc b
      simp only [List.flatMap_cons, hb, List.cons_append, List.nil_append, hexPairs,
        hspells.high, hspells.low, ih, halves]

/-- The string of the digits. -/
def string : CString := ⟨bin.flatMap enc, henc.noNul_flatMap bin⟩

@[simp] theorem string_bytes : (henc.string bin).bytes = bin.flatMap enc := rfl

theorem length_string : (henc.string bin).bytes.length = 2 * bin.length :=
  henc.length_flatMap bin

/-- Round trip through any buffer that is large enough. -/
theorem ckbHex2bin_string {binLen : ℕ} (hlen : bin.length ≤ binLen) (h32 : 2 * binLen < 2 ^ 32) :
    ckbHex2bin (henc.string bin) binLen = .ok bin := by
  have hlength := henc.length_string bin
  have hlimit : ¬2 * binLen % 2 ^ 32 < (henc.string bin).bytes.length := by
    rw [hlength, Nat.mod_eq_of_lt h32]
    omega
  simp only [ckbHex2bin, ckbSafeStrlen, if_neg hlimit]
  rw [if_neg (by omega), if_neg (by omega)]
  exact henc.hexPairs_flatMap bin

end Encodes

/-- What `ckb_bin2hex` leaves in a buffer of the right size is the string of
the digits. -/
theorem ckbBin2hex_eq {bin : Bytes} (h32 : bin.length * 2 + 1 < 2 ^ 32) :
    ∃ hex, ckbBin2hex bin bin.length (bin.length * 2 + 1) true = .ok hex ∧
      CString.ofBuffer hex = encodes_ckbGethex.string bin := by
  refine ⟨bin.flatMap ckbGethex ++ [0], ?_, ?_⟩
  · rw [ckbBin2hex, Nat.mod_eq_of_lt h32, if_neg (Nat.lt_irrefl _), List.take_length]
    rfl
  · exact CString.ofBuffer_append (encodes_ckbGethex.noNul_flatMap bin) []

end CkbAuth
