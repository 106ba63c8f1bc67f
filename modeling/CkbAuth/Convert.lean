import CkbAuth.Ecdsa

/-!
# From the CKB message to the message a chain signs

The `convert_msg_t` functions of `auth.c` and `verify`, which runs one of them
before a validator and compares the key hash that comes out.
-/

namespace CkbAuth

open CRun

variable (env : Env)

/-- `convert_msg_t`; the result is what is left in `new_msg`. -/
abbrev ConvertMsg : Type :=
  (msg : Prog.Ptr Region) → (msgLen : ℕ) → (newMsgLen : ℕ) → Call Bytes

/-- The bytes of a C string literal, without the NUL. -/
def ascii (s : String) : Bytes := s.toList.map fun c ↦ UInt8.ofNat c.toNat

def convertCopy : ConvertMsg := fun msg msgLen newMsgLen ↦ do
  Prog.check (¬(msgLen ≠ newMsgLen ∨ msgLen ≠ blake2bBlockSize)) errorInvalidArg
  Prog.bytes msg msgLen

def convertEthMessage : ConvertMsg := fun msg msgLen newMsgLen ↦ do
  Prog.check (¬(msgLen ≠ newMsgLen ∨ msgLen ≠ blake2bBlockSize)) errorInvalidArg
  let msg32 ← Prog.bytes msg 32
  let ethPrefix := 0x19 :: ascii "Ethereum Signed Message:\n32"
  let ctx := keccakUpdate (keccakUpdate keccakInit ethPrefix 28) msg32 32
  pure (keccakFinal env ctx)

def convertTronMessage : ConvertMsg := fun msg msgLen newMsgLen ↦ do
  Prog.check (¬(msgLen ≠ newMsgLen ∨ msgLen ≠ blake2bBlockSize)) errorInvalidArg
  let msg32 ← Prog.bytes msg 32
  let tronPrefix := 0x19 :: ascii "TRON Signed Message:\n32"
  let ctx := keccakUpdate (keccakUpdate keccakInit tronPrefix 24) msg32 32
  pure (keccakFinal env ctx)

/-- The split hex string that the source builds first is never used. -/
def convertEosMessage : ConvertMsg := fun msg msgLen newMsgLen ↦ do
  Prog.check (¬(msgLen ≠ newMsgLen ∨ msgLen ≠ blake2bBlockSize)) errorInvalidArg
  let buf ← Prog.bytes msg msgLen
  Prog.ofExcept (mdString env (mdInfoFromType .sha256) buf)

def hexTable : Bytes := ascii "0123456789abcdef"

def binToHex (source : Bytes) : Bytes :=
  source.flatMap fun b ↦ [hexTable.getD (b.toNat / 16) 0, hexTable.getD (b.toNat % 16) 0]

def messageHexLen : UInt8 := 64

def convertBtcMessageVariant (magic : Bytes) (magicLen : UInt8) : ConvertMsg :=
  fun msg msgLen newMsgLen ↦ do
    Prog.check (¬(msgLen ≠ newMsgLen ∨ msgLen ≠ sha256Size)) errorInvalidArg
    let msg32 ← Prog.bytes msg 32
    let temp := binToHex msg32
    let newMagic := magicLen :: magic.take magicLen.toNat ++ [messageHexLen]
    let temp2 := newMagic ++ temp
    let newMsg ← Prog.ofExcept (mdString env (mdInfoFromType .sha256) temp2)
    Prog.ofExcept (mdString env (mdInfoFromType .sha256) (newMsg.take sha256Size))

def btcMessageMagic : Bytes := ascii "Bitcoin Signed Message:\n"
def btcMagicLen : UInt8 := 24

def convertBtcMessage : ConvertMsg := convertBtcMessageVariant env btcMessageMagic btcMagicLen

def dogeMessageMagic : Bytes := ascii "Dogecoin Signed Message:\n"
def dogeMagicLen : UInt8 := 25

def convertDogeMessage : ConvertMsg := convertBtcMessageVariant env dogeMessageMagic dogeMagicLen

def liteMessageMagic : Bytes := ascii "Litecoin Signed Message:\n"
def liteMagicLen : UInt8 := 25

def convertLitecoinMessage : ConvertMsg :=
  convertBtcMessageVariant env liteMessageMagic liteMagicLen

/-! ## verify -/

def verify (pubkeyHash : Bytes) (sig : Prog.Ptr Region) (sigLen : ℕ) (msg : Prog.Ptr Region)
    (msgLen : ℕ) (func : ValidateSignature) (convert : ConvertMsg) : Call Unit := do
  let newMsg ← convert msg msgLen blake2bBlockSize
  let outputPubkeyHash ← func sig sigLen newMsg blake2bBlockSize blake160Size
  Prog.check (pubkeyHash.take blake160Size = outputPubkeyHash.take blake160Size) errorMismatched

end CkbAuth
