import CkbAuth.Lib.MemProg

/-!
# What auth.c calls and does not define

Error codes and sizes of `c/auth.c`, and the code outside the repository that
it calls: secp256k1, ed25519, the hash functions and the transaction as the
CKB syscalls show it.  `Env` bundles one choice of all of these; every later
definition takes it as a parameter.
-/

namespace CkbAuth

open CRun

abbrev Bytes := List UInt8

/-- The two buffers a caller of `ckb_auth_validate` hands in by pointer, and
address 0, which no buffer has. -/
inductive Region where
  | signature
  | message
  | null
  deriving DecidableEq, Repr

abbrev Call (α : Type) := Prog Region α

/-! ## Sizes -/

@[simp] def blake160Size : ℕ := 20
@[simp] def blake2bBlockSize : ℕ := 32
@[simp] def secp256k1SignatureSize : ℕ := 65
@[simp] def secp256k1MessageSize : ℕ := 32
@[simp] def recidIndex : ℕ := 64
@[simp] def sha256Size : ℕ := 32
@[simp] def schnorrSignatureSize : ℕ := 32 + 64
@[simp] def schnorrPubkeySize : ℕ := 32
@[simp] def moneroPubkeySize : ℕ := 32
@[simp] def moneroSignatureSize : ℕ := 64
@[simp] def moneroDataSize : ℕ := moneroSignatureSize + 1 + moneroPubkeySize * 2
@[simp] def solanaPubkeySize : ℕ := 32
@[simp] def solanaSignatureSize : ℕ := 64
@[simp] def solanaWrappedSignatureSize : ℕ := 512
@[simp] def solanaUnwrappedSignatureSize : ℕ := 510
@[simp] def solanaBlockhashSize : ℕ := 32
@[simp] def solanaMessageHeaderSize : ℕ := 3

/-! ## Error codes -/

@[simp] def errorNotImplemented : ℤ := 100
@[simp] def errorMismatched : ℤ := 101
@[simp] def errorInvalidArg : ℤ := 102
@[simp] def errorWrongState : ℤ := 103
@[simp] def errorSpawnInvalidLength : ℤ := 104
@[simp] def errorSpawnSignTooLong : ℤ := 105
@[simp] def errorSpawnInvalidAlgorithmId : ℤ := 106
@[simp] def errorSpawnInvalidSig : ℤ := 107
@[simp] def errorSpawnInvalidMsg : ℤ := 108
@[simp] def errorSpawnInvalidPubkey : ℤ := 109
@[simp] def errorSchnorr : ℤ := 110

/-- `validate_signature_eth` and its siblings return the constant
`SECP256K1_PUBKEY_SIZE` when the output buffer is too small. -/
@[simp] def secp256k1PubkeySize : ℤ := 33

@[simp] def ckbSecp256k1HelperErrorLoadingData : ℤ := -101
@[simp] def ckbSecp256k1HelperErrorIllegalCallback : ℤ := -102

/-- `ckb_consts.h` -/
@[simp] def ckbIndexOutOfBound : ℤ := 1
@[simp] def ckbItemMissing : ℤ := 2
@[simp] def ckbInvalidData : ℤ := 4

/-- mbedtls `md.h` -/
@[simp] def mbedtlsErrMdBadInputData : ℤ := -0x5100
@[simp] def mbedtlsErrMdAllocFailed : ℤ := -0x5180

/-! ## Libraries -/

/-- `deps/secp256k1-20210801`.  A `none` is the library's return value 0. -/
structure Secp256k1 where
  RecoverableSignature : Type
  Pubkey : Type
  XonlyPubkey : Type
  /-- `secp256k1_ecdsa_recoverable_signature_parse_compact` behind its argument check -/
  parseCompact : Bytes → ℕ → Option RecoverableSignature
  /-- `secp256k1_ecdsa_recover` -/
  recover : RecoverableSignature → Bytes → Option Pubkey
  /-- `secp256k1_ec_pubkey_serialize`; the flag is `SECP256K1_EC_COMPRESSED` -/
  serialize : Pubkey → Bool → Option Bytes
  serialize_length : ∀ {pk c b}, serialize pk c = some b → b.length = if c then 33 else 65
  /-- `secp256k1_xonly_pubkey_parse` -/
  xonlyPubkeyParse : Bytes → Option XonlyPubkey
  /-- `secp256k1_schnorrsig_verify` -/
  schnorrsigVerify : Bytes → Bytes → XonlyPubkey → Bool

/-- `deps/ed25519`.  Integer results are the library's return values. -/
structure Ed25519 where
  Ge : Type
  /-- `ed25519_verify(signature, message, message_len, public_key)` -/
  verify : Bytes → Bytes → Bytes → ℤ
  /-- signature and key that `ed25519_verify` turns down before it looks at the message -/
  refuses : Bytes → Bytes → Bool
  verify_of_refuses : ∀ {sig pk}, refuses sig pk = true → ∀ msg, verify sig msg pk = 0
  scCheck : Bytes → ℤ
  scIsNonzero : Bytes → ℤ
  sc0 : Bytes
  scSub : Bytes → Bytes → Bytes
  scReduce32 : Bytes → Bytes
  /-- `ge_frombytes_negate_vartime`; `none` is a nonzero return value -/
  geFromBytesNegateVartime : Bytes → Option Ge
  geDoubleScalarmultVartime : Bytes → Ge → Bytes → Ge
  geToBytes : Ge → Bytes

/-- The message digests taken from mbedtls. -/
inductive MdType where
  | sha256
  | ripemd160
  deriving DecidableEq, Repr

/-- The digest functions, as functions of the stream they absorb. -/
structure Hashes where
  /-- blake2b-256 with the personalisation `ckb-default-hash` -/
  blake2b : Bytes → Bytes
  blake2b_length : ∀ b, (blake2b b).length = 32
  /-- blake2b-256 without personalisation (`cardano_blake2b_init`) -/
  cardanoBlake2b : Bytes → Bytes
  /-- Keccak-256, of the bytes that `ckb_keccak256.h` absorbs -/
  keccak256 : Bytes → Bytes
  keccak256_length : ∀ b, (keccak256 b).length = 32
  /-- `mbedtls_md_setup` to `mbedtls_md_finish`: the digest, or the code that
  one of the four calls returned -/
  md : MdType → Bytes → Except ℤ Bytes

/-- A cell dep as `ckb_load_cell_by_field(.., CKB_CELL_FIELD_DATA_HASH)` and
`ckb_load_cell_data` show it: the code returned, or the hash and the length. -/
structure CellDep where
  dataHash : Except ℤ Bytes
  dataLen : Except ℤ ℕ

/-- One choice of everything auth.c calls and does not define. -/
structure Env where
  secp : Secp256k1
  ed : Ed25519
  hash : Hashes
  /-- the generated header `secp256k1_data_info_20210801.h` -/
  secp256k1DataHash : Bytes
  secp256k1DataSize : ℕ
  cellDeps : List CellDep
  /-- `ckb_checked_load_cell_by_field(.., CKB_SOURCE_INPUT, CKB_CELL_FIELD_LOCK_HASH)` -/
  inputLockHashes : List (Except ℤ Bytes)

/-- `mbedtls_md_info_from_type`: both digests are switched on in
`deps/mbedtls-config-template.h` (`MBEDTLS_SHA256_C`, `MBEDTLS_RIPEMD160_C`). -/
def mdInfoFromType : MdType → Option MdType
  | .sha256 => some .sha256
  | .ripemd160 => some .ripemd160

def mdString (env : Env) (mdInfo : Option MdType) (buf : Bytes) : Except ℤ Bytes :=
  match mdInfo with
  | none => .error mbedtlsErrMdBadInputData
  | some t => env.hash.md t buf

/-- Subtraction of `size_t` values. -/
def sizeSub (a b : ℕ) : ℕ := (a + (2 ^ 64 - b)) % 2 ^ 64

/-! ## Keccak contexts -/

/-- The bytes a `SHA3_CTX` has absorbed. -/
def keccakInit : Bytes := []

/-- The size parameter of `keccak_update` is a `uint16_t`. -/
def keccakUpdate (ctx msg : Bytes) (size : ℕ) : Bytes := ctx ++ msg.take (size % 2 ^ 16)

def keccakFinal (env : Env) (ctx : Bytes) : Bytes := env.hash.keccak256 ctx

end CkbAuth
