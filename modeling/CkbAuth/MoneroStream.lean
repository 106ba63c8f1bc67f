import CkbAuth.Hex
import CkbAuth.Lib.Base128
import CkbAuth.Monero

/-!
# The stream behind a Monero message hash

`write_varint` with its stores into `len_buf`, and what `get_monero_message_hash` absorbs.
The length of the message stands in front of it in base 128, so that the stream has one
reading only.
-/

namespace CkbAuth

open CRun

variable {dest : Bytes}

/-! ## Writing a length -/

/-- The loop of `write_varint` and what follows it, with the next index into `dest`. -/
def writeVarintToLoop : (fuel : ℕ) → (dest : Bytes) → (ptr : ℕ) → (n : UInt64) →
    Outcome (Bytes × ℕ)
  | 0, _, _, _ => .running
  | fuel + 1, dest, ptr, n =>
      if 0x80 ≤ n then
        (Outcome.store dest ptr ((n.toUInt8 &&& 0x7f) ||| 0x80)).bind fun dest ↦
        writeVarintToLoop fuel dest (ptr + 1) (n >>> 7)
      else
        (Outcome.store dest ptr n.toUInt8).bind fun dest ↦
        .ret (dest, ptr + 1)

/-- `write_varint`, with ten iterations, from the array at `dest` to its new contents and the
number of bytes written. -/
def writeVarintTo (dest : Bytes) (n : UInt64) : Outcome (Bytes × ℕ) :=
  writeVarintToLoop 10 dest 0 n

/-- `sizeof(len_buf)` -/
@[simp] def lenBufSize : ℕ := (8 * 8 + 6) / 7

theorem writeVarint_eq (n : ℕ) : writeVarint n = Base128.encode n := by
  induction n using Nat.strong_induction_on with
  | _ n ih =>
      rw [writeVarint]
      by_cases h : 128 ≤ n
      · rw [if_pos h, Base128.encode_of_ge h, ih (n / 128) (by omega)]
      · rw [if_neg h, Base128.encode_of_lt (Nat.not_le.mp h)]

theorem toNat_shift (n : UInt64) : (n >>> 7).toNat = n.toNat / 128 := by
  rw [UInt64.toNat_shiftRight]
  exact Nat.shiftRight_eq_div_pow n.toNat 7

theorem toUInt8_eq (n : UInt64) : n.toUInt8 = UInt8.ofNat n.toNat := by
  apply UInt8.toNat_inj.mp
  rw [UInt64.toNat_toUInt8, UInt8.toNat_ofNat']

theorem group_eq (n : UInt64) :
    (n.toUInt8 &&& 0x7f) ||| 0x80 = UInt8.ofNat (n.toNat % 128 + 128) := by
  have hbyte : ∀ b : UInt8, (b &&& 0x7f) ||| 0x80 = UInt8.ofNat (b.toNat % 128 + 128) :=
    forall_byte (by decide +kernel)
  rw [hbyte, UInt64.toNat_toUInt8, Nat.mod_mod_of_dvd _ (by decide)]

theorem writeVarintToLoop_eq {fuel : ℕ} : ∀ {n : UInt64} {pre rest : Bytes},
    (Base128.encode n.toNat).length ≤ fuel → (Base128.encode n.toNat).length ≤ rest.length →
      writeVarintToLoop fuel (pre ++ rest) pre.length n =
        .ret (pre ++ (Base128.encode n.toNat ++ rest.drop (Base128.encode n.toNat).length),
          pre.length + (Base128.encode n.toNat).length) := by
  induction fuel with
  | zero =>
      intro n pre rest hfuel _
      exact absurd hfuel (Nat.not_le.mpr (Base128.length_encode_pos _))
  | succ fuel ih =>
      intro n pre rest hfuel hroom
      cases rest with
      | nil => exact absurd hroom (Nat.not_le.mpr (Base128.length_encode_pos _))
      | cons x rest =>
          rw [writeVarintToLoop]
          by_cases hn : 0x80 ≤ n
          · have hge : 128 ≤ n.toNat := UInt64.le_iff_toNat_le.mp hn
            rw [Base128.encode_of_ge hge, List.length_cons] at hfuel hroom ⊢
            rw [if_pos hn, group_eq, Outcome.store_append, Outcome.bind_ret]
            have hnext := @ih (n >>> 7) (pre ++ [UInt8.ofNat (n.toNat % 128 + 128)]) rest
            rw [toNat_shift, List.append_assoc, List.append_assoc, List.singleton_append,
              List.singleton_append, List.length_append, List.length_singleton,
              Nat.add_assoc, Nat.add_comm 1] at hnext
            exact hnext (Nat.le_of_succ_le_succ hfuel) (Nat.le_of_succ_le_succ hroom)
          · have hlt : n.toNat < 128 := Nat.not_le.mp fun h ↦ hn (UInt64.le_iff_toNat_le.mpr h)
            rw [if_neg hn, toUInt8_eq, Outcome.store_append, Base128.encode_of_lt hlt]
            rfl

theorem length_encode_le_ten (n : UInt64) : (Base128.encode n.toNat).length ≤ 10 :=
  Base128.length_encode_le_iff.mpr (n.toNat_lt.trans (by decide))

theorem writeVarintTo_eq (hdest : dest.length = lenBufSize) (n : UInt64) :
    writeVarintTo dest n =
      .ret (writeVarint n.toNat ++ dest.drop (writeVarint n.toNat).length,
        (writeVarint n.toNat).length) := by
  have hten := length_encode_le_ten n
  have hloop := @writeVarintToLoop_eq 10 n [] dest hten (hten.trans hdest.ge)
  rwa [List.nil_append, List.nil_append, List.length_nil, Nat.zero_add, ← writeVarint_eq] at hloop

/-! ## What is hashed -/

/-- The context of `get_monero_message_hash` in front of `keccak_final`. -/
def moneroMessageContext (lenBuf spendPubkey viewPubkey : Bytes) (mode : UInt8) (msg : Bytes)
    (msgLen : UInt64) : Outcome Bytes :=
  let moneroHashKeyMessageSigning := ascii "MoneroMessageSignature" ++ [0]
  let ctx := keccakInit
  let ctx := keccakUpdate ctx moneroHashKeyMessageSigning moneroHashKeyMessageSigning.length
  let ctx := keccakUpdate ctx spendPubkey moneroPubkeySize
  let ctx := keccakUpdate ctx viewPubkey moneroPubkeySize
  let ctx := keccakUpdate ctx [mode] 1
  (writeVarintTo lenBuf msgLen).bind fun (lenBuf, writtenBytes) ↦
  let ctx := keccakUpdate ctx lenBuf writtenBytes
  .ret (keccakUpdate ctx msg msgLen.toNat)

/-- What `get_monero_message_hash` is called with. -/
structure MoneroMessage where
  spendPubkey : Bytes
  viewPubkey : Bytes
  mode : UInt8
  msg : Bytes
  length_spendPubkey : spendPubkey.length = moneroPubkeySize
  length_viewPubkey : viewPubkey.length = moneroPubkeySize
  length_msg : msg.length ≤ 65535

namespace MoneroMessage

/-- All that is hashed, in its order. -/
def stream (M : MoneroMessage) : Bytes :=
  ascii "MoneroMessageSignature" ++ [0] ++ M.spendPubkey ++ M.viewPubkey ++ [M.mode] ++
    Base128.encode M.msg.length ++ M.msg

/-- The context for a message, whatever is in `len_buf` at first. -/
def context (M : MoneroMessage) (lenBuf : Bytes) : Outcome Bytes :=
  moneroMessageContext lenBuf M.spendPubkey M.viewPubkey M.mode M.msg (UInt64.ofNat M.msg.length)

theorem toNat_length_msg (M : MoneroMessage) :
    (UInt64.ofNat M.msg.length).toNat = M.msg.length := by
  have hlen := M.length_msg
  rw [UInt64.toNat_ofNat', Nat.mod_eq_of_lt (by omega)]

end MoneroMessage

theorem keccakUpdate_append {data : Bytes} {size : ℕ} (ctx rest : Bytes)
    (hsize : data.length = size) (h : size < 2 ^ 16) :
    keccakUpdate ctx (data ++ rest) size = ctx ++ data := by
  rw [keccakUpdate, Nat.mod_eq_of_lt h, List.take_left' hsize]

theorem keccakUpdate_self {data : Bytes} {size : ℕ} (ctx : Bytes) (hsize : data.length = size)
    (h : size < 2 ^ 16) : keccakUpdate ctx data size = ctx ++ data := by
  rw [keccakUpdate, Nat.mod_eq_of_lt h, ← hsize, List.take_length]

namespace MoneroMessage

/-- Nothing that is absorbed is cut off at 16 bits of its size. -/
theorem absorb_eq (M : MoneroMessage) (rest : Bytes) :
    keccakUpdate (keccakUpdate (keccakUpdate (keccakUpdate (keccakUpdate
      (keccakUpdate keccakInit (ascii "MoneroMessageSignature" ++ [0])
        (ascii "MoneroMessageSignature" ++ [0]).length) M.spendPubkey moneroPubkeySize)
      M.viewPubkey moneroPubkeySize) [M.mode] 1)
      (Base128.encode M.msg.length ++ rest) (Base128.encode M.msg.length).length)
      M.msg M.msg.length = M.stream := by
  have hmsg := M.length_msg
  have hword : (Base128.encode M.msg.length).length ≤ 10 := by
    rw [← M.toNat_length_msg]
    exact length_encode_le_ten _
  rw [keccakUpdate_self _ rfl (by omega), keccakUpdate_append _ _ rfl (by omega),
    keccakUpdate_self _ rfl (by decide), keccakUpdate_self _ M.length_viewPubkey (by decide),
    keccakUpdate_self _ M.length_spendPubkey (by decide),
    keccakUpdate_self _ List.length_singleton (by decide)]
  rfl

theorem context_eq (M : MoneroMessage) {lenBuf : Bytes} (hbuf : lenBuf.length = lenBufSize) :
    M.context lenBuf = .ret M.stream := by
  rw [context, moneroMessageContext, writeVarintTo_eq hbuf, Outcome.bind_ret, M.toNat_length_msg,
    writeVarint_eq]
  exact congrArg Outcome.ret (M.absorb_eq _)

theorem getMoneroMessageHash_eq (M : MoneroMessage) (env : Env) :
    getMoneroMessageHash env M.spendPubkey M.viewPubkey M.mode M.msg M.msg.length =
      keccakFinal env M.stream := by
  have habsorb := M.absorb_eq []
  rw [List.append_nil] at habsorb
  rw [← habsorb, getMoneroMessageHash, writeVarint_eq]

theorem stream_injective : Function.Injective stream := by
  intro M N h
  simp only [stream, List.append_assoc, List.append_cancel_left_eq] at h
  obtain ⟨hspend, h⟩ := List.append_inj h (M.length_spendPubkey.trans N.length_spendPubkey.symm)
  obtain ⟨hview, h⟩ := List.append_inj h (M.length_viewPubkey.trans N.length_viewPubkey.symm)
  obtain ⟨hmode, h⟩ := List.append_inj h rfl
  obtain ⟨-, hmsg⟩ := Base128.encode_append_inj h
  cases M
  cases N
  simp_all

end MoneroMessage

/-- `write_varint` ends for every `size_t` and stays within `len_buf`, its codewords can be
read back and none is a proper prefix of another, and what `get_monero_message_hash` absorbs
determines the two keys, the mode and the message. -/
theorem moneroMessageHash_absorbs_injectively :
    (∀ (n : UInt64) (dest : Bytes), dest.length = lenBufSize →
      1 ≤ (writeVarint n.toNat).length ∧ (writeVarint n.toNat).length ≤ lenBufSize ∧
      writeVarintTo dest n = .ret (writeVarint n.toNat ++ dest.drop (writeVarint n.toNat).length,
        (writeVarint n.toNat).length) ∧
      Base128.decode (writeVarint n.toNat) = some (n.toNat, [])) ∧
    (∀ n k : UInt64, writeVarint n.toNat <+: writeVarint k.toNat → n = k) ∧
    (∀ (M : MoneroMessage) (lenBuf : Bytes) (env : Env), lenBuf.length = lenBufSize →
      M.context lenBuf = .ret M.stream ∧
      getMoneroMessageHash env M.spendPubkey M.viewPubkey M.mode M.msg M.msg.length =
        keccakFinal env M.stream) ∧
    Function.Injective MoneroMessage.stream := by
  refine ⟨fun n dest hdest ↦ ⟨?_, ?_, writeVarintTo_eq hdest n, ?_⟩, fun n k h ↦ ?_,
    fun M lenBuf env hbuf ↦ ⟨M.context_eq hbuf, M.getMoneroMessageHash_eq env⟩,
    MoneroMessage.stream_injective⟩
  · rw [writeVarint_eq]
    exact Base128.length_encode_pos _
  · rw [writeVarint_eq]
    exact length_encode_le_ten n
  · rw [writeVarint_eq]
    exact Base128.decode_encode _
  · rw [writeVarint_eq, writeVarint_eq] at h
    exact UInt64.toNat_inj.mp (Base128.encode_prefixFree h)

/-- The largest `size_t` -/
theorem maxVarint_fits :
    (writeVarint (2 ^ 64 - 1)).length ≤ 10 ∧
      Base128.decode (writeVarint (2 ^ 64 - 1)) = some (2 ^ 64 - 1, []) := by
  have hlast := moneroMessageHash_absorbs_injectively.1 (UInt64.ofNat (2 ^ 64 - 1))
    (List.replicate 10 0) List.length_replicate
  rw [show (UInt64.ofNat (2 ^ 64 - 1)).toNat = 2 ^ 64 - 1 by decide] at hlast
  exact ⟨hlast.2.1, hlast.2.2.2⟩

end CkbAuth
