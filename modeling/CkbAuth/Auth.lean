import CkbAuth.Monero
import CkbAuth.Solana
import CkbAuth.Multisig
import CkbAuth.Cardano

/-!
# ckb_auth_validate

The entry point that both ways of calling the auth library end in.
-/

namespace CkbAuth

open CRun

variable (env : Env)

/-- The algorithm ids of `ckb_auth.h`. -/
inductive AuthAlgorithmIdType where
  | ckb
  | ethereum
  | eos
  | tron
  | bitcoin
  | dogecoin
  | ckbMultisig
  | schnorr
  | rsa
  | iso97962
  | litecoin
  | cardano
  | monero
  | solana
  | ownerLock
  deriving DecidableEq, Repr

namespace AuthAlgorithmIdType

def toByte : AuthAlgorithmIdType → UInt8
  | ckb => 0
  | ethereum => 1
  | eos => 2
  | tron => 3
  | bitcoin => 4
  | dogecoin => 5
  | ckbMultisig => 6
  | schnorr => 7
  | rsa => 8
  | iso97962 => 9
  | litecoin => 10
  | cardano => 11
  | monero => 12
  | solana => 13
  | ownerLock => 0xFC

def all : List AuthAlgorithmIdType :=
  [ckb, ethereum, eos, tron, bitcoin, dogecoin, ckbMultisig, schnorr, rsa, iso97962, litecoin,
    cardano, monero, solana, ownerLock]

/-- The algorithm a byte stands for. -/
def ofByte (b : UInt8) : Option AuthAlgorithmIdType := all.find? fun id ↦ id.toByte == b

@[simp] theorem ofByte_toByte (id : AuthAlgorithmIdType) : ofByte id.toByte = some id := by
  cases id <;> rfl

end AuthAlgorithmIdType

/-- `is_lock_script_hash_present`, over the input lock hashes that are left.
Any error of the syscall ends the search, the end of the inputs included. -/
def isLockScriptHashPresent (lockScriptHash : Bytes) : List (Except ℤ Bytes) → Bool
  | [] => false
  | .error _ :: _ => false
  | .ok buff :: rest =>
      if lockScriptHash.take blake160Size = buff.take blake160Size then true
      else isLockScriptHashPresent lockScriptHash rest

/-- The chain of comparisons in `ckb_auth_validate`. -/
def dispatch (fuel : ℕ) (authAlgorithmId : UInt8) (signature : Prog.Ptr Region)
    (signatureSize : ℕ) (message : Prog.Ptr Region) (messageSize : ℕ) (pubkeyHash : Bytes) :
    Call Unit :=
  let verify := verify pubkeyHash signature signatureSize message messageSize
  match AuthAlgorithmIdType.ofByte authAlgorithmId with
  | some .ckb => do
      Prog.check (signatureSize = secp256k1SignatureSize) errorInvalidArg
      verify (validateSignatureCkb env) convertCopy
  | some .ethereum => do
      Prog.check (signatureSize = secp256k1SignatureSize) errorInvalidArg
      verify (validateSignatureEth env) (convertEthMessage env)
  | some .eos => do
      Prog.check (signatureSize = secp256k1SignatureSize) errorInvalidArg
      verify (validateSignatureEth env) (convertEosMessage env)
  | some .tron => do
      Prog.check (signatureSize = secp256k1SignatureSize) errorInvalidArg
      verify (validateSignatureEth env) (convertTronMessage env)
  | some .bitcoin => verify (validateSignatureBtc env) (convertBtcMessage env)
  | some .dogecoin => verify (validateSignatureBtc env) (convertDogeMessage env)
  | some .litecoin => verify (validateSignatureBtc env) (convertLitecoinMessage env)
  | some .ckbMultisig => verifyMultisig env signature signatureSize message pubkeyHash
  | some .schnorr => verify (validateSignatureSchnorr env) convertCopy
  | some .cardano => verify (validateSignatureCardano env fuel) convertCopy
  | some .monero => verify (validateSignatureMonero env) convertCopy
  | some .solana => verify (validateSignatureSolana env) convertCopy
  | some .ownerLock =>
      Prog.check (isLockScriptHashPresent pubkeyHash env.inputLockHashes = true) errorMismatched
  | some .rsa => Prog.fail errorNotImplemented
  | some .iso97962 => Prog.fail errorNotImplemented
  | none => Prog.fail errorNotImplemented

/-- A missing pointer is NULL.  `fuel` bounds the loops of the CBOR decoder. -/
def ckbAuthValidate (fuel : ℕ) (authAlgorithmId : UInt8) (signature : Option (Prog.Ptr Region))
    (signatureSize : ℕ) (message : Option (Prog.Ptr Region)) (messageSize : ℕ)
    (pubkeyHash : Bytes) (pubkeyHashSize : ℕ) : Call Unit := do
  let signature ← Prog.ofOption errorInvalidArg signature
  let message ← Prog.ofOption errorInvalidArg message
  Prog.check (0 < messageSize) errorInvalidArg
  Prog.check (pubkeyHashSize = blake160Size) errorInvalidArg
  dispatch env fuel authAlgorithmId signature signatureSize message messageSize pubkeyHash

end CkbAuth
