import CkbAuth.SolanaSpec

/-!
# Wrapped Solana signatures

`wrap_signature` and `unwrap_signature` of the tests' `SolanaAuth`.  What is
wrapped there is unwrapped by `auth.c`.
-/

namespace CkbAuth

open CRun

namespace Rs

/-- `u16::to_le_bytes` -/
def toLeBytes (n : ℕ) : Bytes := [UInt8.ofNat (n % 256), UInt8.ofNat (n / 256 % 256)]

/-- `u16::from_le_bytes` -/
def fromLeBytes (bs : Bytes) : ℕ := (bs.getD 0 0).toNat + 256 * (bs.getD 1 0).toNat

/-- `data[start..start + src.len()].copy_from_slice(src)` -/
def copyFromSlice (data : Bytes) (start : ℕ) (src : Bytes) : Bytes :=
  data.take start ++ src ++ data.drop (start + src.length)

theorem copyFromSlice_replicate (a src : Bytes) (n : ℕ) :
    copyFromSlice (a ++ List.replicate n 0) a.length src =
      a ++ src ++ List.replicate (n - src.length) 0 := by
  rw [copyFromSlice, List.take_left, List.drop_append,
    List.drop_of_length_le (Nat.le_add_right _ _), Nat.add_sub_cancel_left,
    List.drop_replicate, List.nil_append]

@[simp] def solanaMaximumUnwrappedSignatureSize : ℕ := 510
@[simp] def solanaMaximumWrappedSignatureSize : ℕ := solanaMaximumUnwrappedSignatureSize + 2

/-- `[u8; SOLANA_MAXIMUM_WRAPPED_SIGNATURE_SIZE]` -/
structure WrappedSignature where
  bytes : Bytes
  length_bytes : bytes.length = solanaMaximumWrappedSignatureSize

/-- The array that `wrap_signature` fills. -/
def wrappedBytes (signature : Bytes) : Bytes :=
  let len := signature.length % 2 ^ 16
  let data := List.replicate solanaMaximumWrappedSignatureSize 0
  copyFromSlice (copyFromSlice data 0 (toLeBytes len)) 2 signature

theorem wrappedBytes_eq {signature : Bytes} (h : signature.length ≤ 510) :
    wrappedBytes signature =
      toLeBytes signature.length ++ signature ++ List.replicate (510 - signature.length) 0 := by
  have hlen : signature.length % 2 ^ 16 = signature.length := Nat.mod_eq_of_lt (by omega)
  have hfirst := copyFromSlice_replicate [] (toLeBytes signature.length) 512
  have hsecond := copyFromSlice_replicate (toLeBytes signature.length) signature 510
  rw [List.nil_append, List.nil_append] at hfirst
  rw [wrappedBytes, hlen]
  exact (congrArg (copyFromSlice · 2 signature) hfirst).trans hsecond

theorem length_wrappedBytes {signature : Bytes}
    (h : signature.length ≤ solanaMaximumUnwrappedSignatureSize) :
    (wrappedBytes signature).length = solanaMaximumWrappedSignatureSize := by
  simp only [solanaMaximumUnwrappedSignatureSize] at h
  rw [wrappedBytes_eq h, List.length_append, List.length_append, List.length_replicate]
  simp only [toLeBytes, List.length_cons, List.length_nil, solanaMaximumWrappedSignatureSize,
    solanaMaximumUnwrappedSignatureSize]
  omega

def wrapSignature (signature : Bytes) : Option WrappedSignature :=
  if h : signature.length ≤ solanaMaximumUnwrappedSignatureSize then
    some ⟨wrappedBytes signature, length_wrappedBytes h⟩
  else none

def unwrapSignature (signature : WrappedSignature) : Option Bytes :=
  let len := fromLeBytes (signature.bytes.take 2)
  if solanaMaximumUnwrappedSignatureSize < len then none
  else some ((signature.bytes.drop 2).take len)

end Rs

/-! ## Round trip -/

variable {bs : Bytes}

theorem wrapSignature_eq (h : bs.length ≤ 510) :
    Rs.wrapSignature bs = some ⟨Rs.wrappedBytes bs, Rs.length_wrappedBytes h⟩ := dif_pos h

theorem fromLeBytes_toLeBytes {n : ℕ} (hn : n < 2 ^ 16) (rest : Bytes) :
    Rs.fromLeBytes (Rs.toLeBytes n ++ rest) = n := by
  simp only [Rs.fromLeBytes, Rs.toLeBytes, List.cons_append, List.getD_cons_zero,
    List.getD_cons_succ, UInt8.toNat_ofNat']
  omega

theorem declaredLen_wrappedBytes (h : bs.length ≤ 510) :
    declaredLen (Rs.wrappedBytes bs) = bs.length := by
  rw [Rs.wrappedBytes_eq h, List.append_assoc]
  exact fromLeBytes_toLeBytes (by omega) _

theorem drop_two_wrappedBytes (h : bs.length ≤ 510) :
    (Rs.wrappedBytes bs).drop 2 = bs ++ List.replicate (510 - bs.length) 0 := by
  rw [Rs.wrappedBytes_eq h, List.append_assoc]
  rfl

theorem effective_wrappedBytes (h : bs.length ≤ 510) : effective (Rs.wrappedBytes bs) = bs := by
  rw [effective, declaredLen_wrappedBytes h, drop_two_wrappedBytes h, List.take_left]

theorem unwrapSignature_wrapSignature (h : bs.length ≤ 510) :
    (Rs.wrapSignature bs).bind Rs.unwrapSignature = some bs := by
  have hlen : Rs.fromLeBytes ((Rs.wrappedBytes bs).take 2) = bs.length := by
    rw [Rs.wrappedBytes_eq h, List.append_assoc]
    exact fromLeBytes_toLeBytes (by omega) []
  have hshort : ¬Rs.solanaMaximumUnwrappedSignatureSize < bs.length := Nat.not_lt.mpr h
  rw [wrapSignature_eq h, Option.bind_some, Rs.unwrapSignature]
  simp only [hlen, if_neg hshort, drop_two_wrappedBytes h, List.take_left]

/-! ## Acceptance -/

section Acceptance

variable {env : Env} {m : Mem Region} {p : Prog.Ptr Region} {sig pk : Bytes}
  {M : LegacyMessage} {outputLen : ℕ}

theorem wraps_wrappedBytes (hlen : M.bytes.length ≤ 414) (hsig : sig.length = 64)
    (hpk : pk.length = 32) : Wraps (Rs.wrappedBytes (sig ++ pk ++ M.bytes)) sig pk M := by
  have h : (sig ++ pk ++ M.bytes).length ≤ 510 := by
    rw [List.length_append, List.length_append]
    omega
  exact ⟨by rw [declaredLen_wrappedBytes h]; exact h, hsig, hpk, effective_wrappedBytes h⟩

theorem signerFound_of_mem {w : Bytes} (hw : p.Holds m w) (h512 : w.length = 512)
    (hwraps : Wraps w sig pk M) (hmem : pk ∈ M.keys.take M.numSigners.toNat) :
    SignerFound m (p + (98 + M.keysStart)) pk M.numSigners.toNat := by
  obtain ⟨i, hi, hkey⟩ := List.mem_iff_getElem.mp hmem
  rw [List.length_take] at hi
  obtain ⟨hmap, hslice⟩ := slice_account_key (i := i) hw h512 hwraps (by omega)
  rw [List.getElem_take] at hkey
  exact ⟨i, by omega, hmap, hslice.trans hkey⟩

/-- What the wrapper makes of a signature over a message by one of its signers
is accepted, and unwrapping undoes wrapping. -/
theorem wrapped_signature_accepted :
    (∀ (M : LegacyMessage) (sig pk : Bytes), M.bytes.length ≤ 414 → sig.length = 64 →
      pk ∈ M.keys.take M.numSigners.toNat → env.ed.verify sig M.bytes pk = 1 →
      ∃ w, Rs.wrapSignature (sig ++ pk ++ M.bytes) = some w ∧ w.bytes.length = 512 ∧
        ∀ m p outputLen, p.Holds m w.bytes →
          (validateSignatureSolana env p w.bytes.length M.blockhash M.blockhash.length
            outputLen).outcome m = .ret ((env.hash.blake2b pk).take 20)) ∧
    ∀ bs : Bytes, bs.length ≤ 510 → (Rs.wrapSignature bs).bind Rs.unwrapSignature = some bs := by
  refine ⟨fun M sig pk hlen hsig hmem hverify ↦ ?_, fun bs h ↦ unwrapSignature_wrapSignature h⟩
  have hpk : pk.length = 32 := M.length_key pk (List.mem_of_mem_take hmem)
  have h : (sig ++ pk ++ M.bytes).length ≤ 510 := by
    rw [List.length_append, List.length_append]
    omega
  have hwraps := wraps_wrappedBytes hlen hsig hpk
  refine ⟨_, wrapSignature_eq h, Rs.length_wrappedBytes h, fun m p outputLen hw ↦ ?_⟩
  exact (outcome_validateSignatureSolana_eq_ret_iff hw (Rs.length_wrappedBytes h)
    M.length_blockhash).mpr ⟨sig, pk, M, hwraps, rfl,
      signerFound_of_mem hw (Rs.length_wrappedBytes h) hwraps hmem, hverify, rfl⟩

end Acceptance

/-! ## The second signer of three keys -/

def secondSigner : Bytes :=
  bytesOfNat 32 0x03a107bff3ce10be1d70dd18e74bc09967e4d6309ba50d5f1ddc8664125531b8

def secondSignerHash : Bytes :=
  bytesOfNat 32 0x0eb8da3ff68351177b323a7a397e26f8cb431bfbb23380a9e4c8b49315590e15

theorem compact_three : CompactU16 [3] 3 := .one (by decide)

theorem length_threeKeys :
    ∀ key ∈ [solanaOtherKey, secondSigner, solanaKey], key.length = 32 := by
  simp [solanaOtherKey, secondSigner, solanaKey]

def threeKeysInstructions : Bytes := [1, 2, 1, 0, 0]

theorem threeKeysInstructions_ne_nil : threeKeysInstructions ≠ [] := List.cons_ne_nil _ _

/-- Two of three keys sign. -/
def threeKeys : LegacyMessage where
  numSigners := 2
  readonlySigned := 0
  readonlyUnsigned := 1
  keyCount := [3]
  keys := [solanaOtherKey, secondSigner, solanaKey]
  blockhash := solanaMsg
  instructions := threeKeysInstructions
  keyCount_eq := compact_three
  length_key := length_threeKeys
  length_blockhash := length_solanaMsg
  instructions_ne_nil := threeKeysInstructions_ne_nil

def secondSignerSig : Bytes :=
  bytesOfNat 32 0xde258ea29b9e9fc7699dd916db45b88d527843df9cde1dc818a6f172aa166bda ++
  bytesOfNat 32 0x02a05eb769eb4e9b0cfbdca5bdc9ae36b2aa38dea7cfb9e71092e8409a368807

def threeKeysAnswers : KnownAnswers :=
  { KnownAnswers.empty with
    ed25519 := [(secondSignerSig, threeKeys.bytes, secondSigner)]
    blake2b := [(secondSigner, secondSignerHash)] }

def threeKeysWrapped : Bytes := wrapSolana secondSignerSig secondSigner threeKeys.bytes

theorem threeKeysWrapped_fits : threeKeysWrapped.length ≤ 2 ^ 64 := by decide +kernel

theorem threeKeys_wrapped_accepted :
    (Rs.wrapSignature (secondSignerSig ++ secondSigner ++ threeKeys.bytes)).map (·.bytes) =
        some threeKeysWrapped ∧
      (validateSignatureSolana threeKeysAnswers.env ⟨.signature, 0⟩ threeKeysWrapped.length
        solanaMsg solanaMsg.length 20).outcome
          (solanaMem threeKeysWrapped threeKeysWrapped_fits) =
            .ret (secondSignerHash.take 20) := by
  have hbytes : (Rs.wrapSignature (secondSignerSig ++ secondSigner ++ threeKeys.bytes)).map
      (·.bytes) = some threeKeysWrapped := by decide +kernel
  obtain ⟨w, hw, _, haccepted⟩ := (@wrapped_signature_accepted threeKeysAnswers.env).1 threeKeys
    secondSignerSig secondSigner (by decide +kernel) (by decide +kernel) (by decide +kernel)
    (by decide +kernel)
  rw [hw] at hbytes
  have hwbytes : w.bytes = threeKeysWrapped := by simpa only [Option.map_some,
    Option.some.injEq] using hbytes
  have hhash : (threeKeysAnswers.env.hash.blake2b secondSigner).take 20 =
      secondSignerHash.take 20 := by decide +kernel
  rw [hwbytes] at haccepted
  rw [hw, ← hhash]
  exact ⟨hbytes, haccepted _ _ _ (bufferMem_holds_signature ..)⟩

end CkbAuth
