import CkbAuth.Env

/-!
# Signatures over secp256k1

The helper header `secp256k1_helper_20210801.h` and those validators of
`auth.c` that recover or check a secp256k1 key.
-/

namespace CkbAuth

open CRun

variable (env : Env)

/-! ## The secp256k1 context -/

def ckbExit {α : Type} (code : ℤ) : Call α := .done (.exit code)

def secp256k1DefaultIllegalCallbackFn {α : Type} : Call α :=
  ckbExit ckbSecp256k1HelperErrorIllegalCallback

/-- The loop over the cell deps.  Past the last one the syscall answers
`CKB_INDEX_OUT_OF_BOUND`, which is the `default:` of the switch. -/
def searchSecp256k1Data : List CellDep → Except ℤ Unit
  | [] => .error ckbSecp256k1HelperErrorLoadingData
  | dep :: deps =>
      match dep.dataHash with
      | .error ret =>
          if ret = ckbItemMissing then searchSecp256k1Data deps
          else .error ckbSecp256k1HelperErrorLoadingData
      | .ok hash =>
          if hash = env.secp256k1DataHash then
            match dep.dataLen with
            | .error _ => .error ckbSecp256k1HelperErrorLoadingData
            | .ok len =>
                if len = env.secp256k1DataSize then .ok ()
                else .error ckbSecp256k1HelperErrorLoadingData
          else searchSecp256k1Data deps

def ckbSecp256k1CustomVerifyOnlyInitialize : Except ℤ Unit :=
  searchSecp256k1Data env env.cellDeps

/-- `ARG_CHECK(recid >= 0 && recid <= 3)` comes first and calls the illegal
argument callback. -/
def secp256k1EcdsaRecoverableSignatureParseCompact (sig : Prog.Ptr Region) (recid : ℤ) :
    Call (Option env.secp.RecoverableSignature) :=
  if 0 ≤ recid ∧ recid ≤ 3 then do
    let input64 ← Prog.bytes sig 64
    pure (env.secp.parseCompact input64 recid.toNat)
  else secp256k1DefaultIllegalCallbackFn

/-! ## Recovering the key -/

def recoverSecp256k1Pubkey (sig : Prog.Ptr Region) (sigLen : ℕ) (msg : Bytes) (msgLen : ℕ)
    (compressed : Bool) : Call Bytes := do
  Prog.check (sigLen = secp256k1SignatureSize) errorInvalidArg
  Prog.check (msgLen = secp256k1MessageSize) errorInvalidArg
  Prog.ofExcept (ckbSecp256k1CustomVerifyOnlyInitialize env)
  let recid ← Prog.byte (sig + recidIndex)
  let parsed ← secp256k1EcdsaRecoverableSignatureParseCompact env sig recid.toNat
  let signature ← Prog.ofOption errorWrongState parsed
  let pubkey ← Prog.ofOption errorWrongState (env.secp.recover signature msg)
  Prog.ofOption errorWrongState (env.secp.serialize pubkey compressed)

/-- The recovery id sits in the header byte, which also tells whether the key
is compressed.  `&` acts on the two's complement of the `int` difference. -/
def recoverSecp256k1PubkeyBtc (sig : Prog.Ptr Region) (sigLen : ℕ) (msg : Bytes) (msgLen : ℕ) :
    Call Bytes := do
  Prog.check (sigLen = secp256k1SignatureSize) errorInvalidArg
  Prog.check (msgLen = secp256k1MessageSize) errorInvalidArg
  let header ← Prog.byte sig
  let recid : ℤ := ((header.toNat : ℤ) - 27) % 4
  let comp : Bool := ((header.toNat : ℤ) - 27) / 4 % 2 != 0
  Prog.ofExcept (ckbSecp256k1CustomVerifyOnlyInitialize env)
  let parsed ← secp256k1EcdsaRecoverableSignatureParseCompact env (sig + 1) recid
  let signature ← Prog.ofOption errorWrongState parsed
  let pubkey ← Prog.ofOption errorWrongState (env.secp.recover signature msg)
  Prog.ofOption errorWrongState (env.secp.serialize pubkey comp)

/-! ## Validators -/

/-- `validate_signature_t`.  The message is the local buffer `new_msg` of
`verify`; the result is the public key hash left in `output`. -/
abbrev ValidateSignature : Type :=
  (sig : Prog.Ptr Region) → (sigLen : ℕ) → (msg : Bytes) → (msgLen : ℕ) → (outputLen : ℕ) →
    Call Bytes

def validateSignatureCkb : ValidateSignature := fun sig sigLen msg msgLen outputLen ↦ do
  Prog.check (¬outputLen < blake160Size) errorInvalidArg
  let outPubkey ← recoverSecp256k1Pubkey env sig sigLen msg msgLen true
  pure ((env.hash.blake2b outPubkey).take blake160Size)

def validateSignatureEth : ValidateSignature := fun sig sigLen msg msgLen outputLen ↦ do
  Prog.check (¬outputLen < blake160Size) secp256k1PubkeySize
  let outPubkey ← recoverSecp256k1Pubkey env sig sigLen msg msgLen false
  let ctx := keccakUpdate keccakInit (outPubkey.drop 1) (outPubkey.length - 1)
  pure (((keccakFinal env ctx).drop 12).take blake160Size)

def validateSignatureBtc : ValidateSignature := fun sig sigLen msg msgLen outputLen ↦ do
  Prog.check (¬outputLen < blake160Size) secp256k1PubkeySize
  let outPubkey ← recoverSecp256k1PubkeyBtc env sig sigLen msg msgLen
  let temp ← Prog.ofExcept (mdString env (mdInfoFromType .sha256) outPubkey)
  let temp ← Prog.ofExcept (mdString env (mdInfoFromType .ripemd160) (temp.take sha256Size))
  pure (temp.take blake160Size)

def validateSignatureSchnorr : ValidateSignature := fun sig sigLen msg msgLen outputLen ↦ do
  Prog.check (¬outputLen < blake160Size) secp256k1PubkeySize
  Prog.check (sigLen = schnorrSignatureSize ∧ msgLen = 32) errorInvalidArg
  Prog.ofExcept (ckbSecp256k1CustomVerifyOnlyInitialize env)
  let pubkey ← Prog.bytes sig schnorrPubkeySize
  let pk ← Prog.ofOption errorSchnorr (env.secp.xonlyPubkeyParse pubkey)
  let sig64 ← Prog.bytes (sig + schnorrPubkeySize) 64
  Prog.check (env.secp.schnorrsigVerify sig64 msg pk = true) errorSchnorr
  pure ((env.hash.blake2b pubkey).take blake160Size)

end CkbAuth
