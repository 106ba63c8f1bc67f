import CkbAuth.Convert

/-!
# Multisig witnesses

`verify_multisig` of `auth.c`: four flag bytes `S R M N`, the hashes of `N`
public keys, and `M` signatures.
-/

namespace CkbAuth

open CRun

variable (env : Env)

@[simp] def errorInvalidReserveField : ℤ := -41
@[simp] def errorInvalidPubkeysCnt : ℤ := -42
@[simp] def errorInvalidThreshold : ℤ := -43
@[simp] def errorInvalidRequireFirstN : ℤ := -44
@[simp] def errorMultsigScriptHash : ℤ := -51
@[simp] def errorVerification : ℤ := -52
@[simp] def errorWitnessSize : ℤ := -22
@[simp] def errorSecpParseSignature : ℤ := -14
@[simp] def errorSecpRecoverPubkey : ℤ := -11
@[simp] def errorSecpSerializePubkey : ℤ := -15

@[simp] def flagsSize : ℕ := 4
@[simp] def signatureSize : ℕ := 65
@[simp] def pubkeySize : ℕ := 33

/-- The inner loop over the public keys, from key `i` on with `n` keys left.
The result is `used_signatures` after a match, `none` if `matched` stays 0. -/
def matchPubkey (lockBytes : Prog.Ptr Region) (pubkeyHash : Bytes) (used : List UInt8) :
    (n i : ℕ) → Call (Option (List UInt8))
  | 0, _ => pure none
  | n + 1, i => do
      let flag ← Prog.index used i
      if flag = 1 then matchPubkey lockBytes pubkeyHash used n (i + 1)
      else
        let slot ← Prog.bytes (lockBytes + (flagsSize + i * blake160Size)) blake160Size
        if slot ≠ pubkeyHash.take blake160Size then
          matchPubkey lockBytes pubkeyHash used n (i + 1)
        else pure (some (used.set i 1))

/-- The public key of the signature at `sig`, serialized. -/
def recoverMultisigPubkey (sig message : Prog.Ptr Region) : Call Bytes := do
  let recid ← Prog.byte (sig + recidIndex)
  let parsed ← secp256k1EcdsaRecoverableSignatureParseCompact env sig recid.toNat
  let signature ← Prog.ofOption errorSecpParseSignature parsed
  let msg ← Prog.bytes message secp256k1MessageSize
  let pubkey ← Prog.ofOption errorSecpRecoverPubkey (env.secp.recover signature msg)
  Prog.ofOption errorSecpSerializePubkey (env.secp.serialize pubkey true)

/-- The loop over the signatures, from signature `i` on with `n` signatures left. -/
def verifySignatures (lockBytes message : Prog.Ptr Region) (multisigScriptLen pubkeysCnt : ℕ) :
    (n i : ℕ) → (used : List UInt8) → Call (List UInt8)
  | 0, _, used => pure used
  | n + 1, i, used => do
      let signatureOffset := multisigScriptLen + i * signatureSize
      let temp ← recoverMultisigPubkey env (lockBytes + signatureOffset) message
      let calculatedPubkeyHash := env.hash.blake2b (temp.take pubkeySize)
      let matched ← matchPubkey lockBytes calculatedPubkeyHash used pubkeysCnt 0
      let used ← Prog.ofOption errorVerification matched
      verifySignatures lockBytes message multisigScriptLen pubkeysCnt n (i + 1) used

/-- The last loop, over the keys that must have signed. -/
def checkRequireFirstN (used : List UInt8) : (n i : ℕ) → Call Unit
  | 0, _ => pure ()
  | n + 1, i => do
      let flag ← Prog.index used i
      Prog.check (flag = 1) errorVerification
      checkRequireFirstN used n (i + 1)

def verifyMultisig (lockBytes : Prog.Ptr Region) (lockBytesLen : ℕ)
    (message : Prog.Ptr Region) (hash : Bytes) : Call Unit := do
  let pubkeysCnt ← Prog.byte (lockBytes + 3)
  let threshold ← Prog.byte (lockBytes + 2)
  let requireFirstN ← Prog.byte (lockBytes + 1)
  let reservedField ← Prog.byte lockBytes
  Prog.check (reservedField = 0) errorInvalidReserveField
  Prog.check (pubkeysCnt ≠ 0) errorInvalidPubkeysCnt
  Prog.check (¬pubkeysCnt < threshold) errorInvalidThreshold
  Prog.check (threshold ≠ 0) errorInvalidThreshold
  Prog.check (¬threshold < requireFirstN) errorInvalidRequireFirstN
  let multisigScriptLen := flagsSize + blake160Size * pubkeysCnt.toNat
  let signaturesLen := signatureSize * threshold.toNat
  let requiredLockLen := multisigScriptLen + signaturesLen
  Prog.check (lockBytesLen = requiredLockLen) errorWitnessSize
  let script ← Prog.bytes lockBytes multisigScriptLen
  Prog.check (hash.take blake160Size = (env.hash.blake2b script).take blake160Size)
    errorMultsigScriptHash
  Prog.ofExcept (ckbSecp256k1CustomVerifyOnlyInitialize env)
  let usedSignatures := List.replicate pubkeysCnt.toNat 0
  let usedSignatures ← verifySignatures env lockBytes message multisigScriptLen
    pubkeysCnt.toNat threshold.toNat 0 usedSignatures
  checkRequireFirstN usedSignatures requireFirstN.toNat 0

end CkbAuth
