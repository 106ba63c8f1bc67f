import CkbAuth.Convert
import CkbAuth.Nanocbor

/-!
# Cardano witnesses

`cardano_lock_inc.h` and `validate_signature_cardano`: the CKB message sits in
the body of a CBOR transaction, key and signature in its witness set.  The
Ed25519 signature is over a fixed slice of the transaction.
-/

namespace CkbAuth

open CRun Nanocbor

variable (env : Env)

@[simp] def cardanoErrCborParse : ℤ := 202
@[simp] def cardanoErrCborType : ℤ := 203
@[simp] def cardanoErrInvaildCkbSignMsgLen : ℤ := 204
@[simp] def cardanoErrInvaildSignMsgIndex : ℤ := 206
@[simp] def cardanoErrInvaildPubKeyLen : ℤ := 207
@[simp] def cardanoErrInvaildSignLen : ℤ := 208

@[simp] def cardanoLockPubkeySize : ℕ := 32
@[simp] def cardanoLockSignatureSize : ℕ := 64
@[simp] def cardanoLockSignatureMessageSize : ℕ := 32
@[simp] def cardanoLockBlake2bBlockSize : ℕ := 32

/-- A field filled by `memcpy`, with the pointer that was copied from. -/
structure Copied where
  src : Prog.Ptr Region
  bytes : Bytes
  deriving DecidableEq, Repr

structure CardanoSignatureData where
  ckbSignMsg : Copied
  publicKey : Copied
  signature : Copied
  signMessage : Bytes
  deriving DecidableEq, Repr

/-- `memcpy` out of the decoder's buffer at `data`; no position is NULL. -/
def memcpyFrom (data : Prog.Ptr Region) (pos : Option ℕ) (len : ℕ) : Call Copied := do
  let src : Prog.Ptr Region := match pos with
    | some cur => data + cur
    | none => ⟨.null, 0⟩
  let bytes ← Prog.bytes src len
  pure ⟨src, bytes⟩

/-- `CHECK2(f(..) == NANOCBOR_OK, code)` -/
def checkOk {α : Type} (x : Except ℤ α) (code : ℤ) : Call α :=
  (Prog.ofExcept x).mapFail fun _ ↦ code

/-- The same for a loop that may not have ended yet. -/
def checkWalk {α : Type} (x : Option (Except ℤ α)) (code : ℤ) : Call α :=
  match x with
  | none => .done .running
  | some x => checkOk x code

/-- The loop of `get_item_by_key`, for a given `nanocbor_skip`.  The first
`int32_t` key that is equal to `key` as a `uint32_t` wins; its value is at
the resulting cursor. -/
def getItemByKey (data : Bytes) (skip : Value → Option (ℤ × Value)) (key : ℕ) :
    ℕ → Value → Option (Except ℤ Value)
  | 0, _ => none
  | n + 1, v =>
      if atEnd data v then some (.error notFound)
      else
        match getInt32 data v with
        | .error _ => some (.error notFound)
        | .ok (itKey, v) =>
            if itKey % 2 ^ 32 = key then some (.ok v)
            else
              match skip v with
              | none => none
              | some (res2, v) =>
                  if res2 < 0 then some (.error res2) else getItemByKey data skip key n v

def getSignData (data : Prog.Ptr Region) (view : Bytes) (fuel : ℕ) (signDataNode : Value) :
    Call (Copied × Copied) := do
  let signDataNode2 ← checkWalk (getItemByKey view (skip view fuel) 0 fuel signDataNode)
    cardanoErrCborParse
  let signDataNode3 ← checkOk (enterArray view signDataNode2) cardanoErrCborParse
  let signDataArray ← checkOk (enterArray view signDataNode3) cardanoErrCborParse
  let pubkey := getStr view signDataArray typeBstr
  Prog.check (pubkey.res = 0) cardanoErrCborParse
  Prog.check (cardanoLockPubkeySize = pubkey.len) cardanoErrInvaildPubKeyLen
  let publicKey ← memcpyFrom data pubkey.buf pubkey.len
  let sign := getStr view pubkey.next typeBstr
  Prog.check (sign.res = 0) cardanoErrCborParse
  Prog.check (cardanoLockSignatureSize = sign.len) cardanoErrInvaildSignLen
  let signature ← memcpyFrom data sign.buf sign.len
  pure (publicKey, signature)

/-- The code that `nanocbor_get_bstr` returns is not looked at. -/
def getCkbSignHash (data : Prog.Ptr Region) (view : Bytes) (fuel : ℕ) (metaDataNode : Value) :
    Call Copied := do
  let message ← checkWalk (getItemByKey view (skip view fuel) 0 fuel metaDataNode)
    cardanoErrCborParse
  let message2 ← checkOk (enterArray view message) cardanoErrCborParse
  let message3 ← checkOk (enterArray view message2) cardanoErrCborParse
  let hash := getStr view message3 typeBstr
  Prog.check (cardanoLockBlake2bBlockSize = hash.len) cardanoErrInvaildCkbSignMsgLen
  let ckbSignMsg ← memcpyFrom data hash.buf hash.len
  let (messageIndex, _) ← checkOk (getInt32 view hash.next) cardanoErrInvaildSignMsgIndex
  Prog.check (messageIndex = 0) cardanoErrInvaildSignMsgIndex
  pure ckbSignMsg

/-- `data_len - 1 - (64 + 2) - (32 + 2) - 4 - 1` as a `size_t` -/
def signMsgLen (dataLen : ℕ) : ℕ :=
  sizeSub (sizeSub (sizeSub (sizeSub (sizeSub dataLen 1) (64 + 2)) (32 + 2)) 4) 1

def getCardanoSignMessage (data : Prog.Ptr Region) (dataLen : ℕ) : Call Bytes := do
  let signMsgBuf ← Prog.bytes (data + 1) (signMsgLen dataLen)
  pure (env.hash.cardanoBlake2b signMsgBuf)

/-- The decoder sees the whole buffer, as `view`. -/
def getCardanoData (fuel : ℕ) (data : Prog.Ptr Region) (dataLen : ℕ) :
    Call CardanoSignatureData := do
  let view ← Prog.bytes data dataLen
  let rootNode := decoderInit dataLen
  Prog.check (getType view rootNode = .ok typeArr) cardanoErrCborType
  let rootArrNode ← checkOk (enterArray view rootNode) cardanoErrCborParse
  let txNode ← checkOk (enterMap view rootArrNode) cardanoErrCborParse
  let ckbSignMsg ← getCkbSignHash data view fuel txNode
  -- the code that `nanocbor_skip` returns is not looked at
  match skip view fuel rootArrNode with
  | none => .done .running
  | some (_, rootArrNode) =>
      let signDataNode ← checkOk (enterMap view rootArrNode) cardanoErrCborParse
      let (publicKey, signature) ← getSignData data view fuel signDataNode
      let signMessage ← getCardanoSignMessage env data dataLen
      pure { ckbSignMsg, publicKey, signature, signMessage }

def validateSignatureCardano (fuel : ℕ) : ValidateSignature :=
  fun sig sigLen msg msgLen outputLen ↦ do
    Prog.check (¬outputLen < blake160Size) secp256k1PubkeySize
    let cardanoData ← (getCardanoData env fuel sig sigLen).mapFail fun _ ↦ errorInvalidArg
    Prog.check (msg.take msgLen = cardanoData.ckbSignMsg.bytes.take msgLen) errorInvalidArg
    let suc := env.ed.verify cardanoData.signature.bytes
      (cardanoData.signMessage.take cardanoLockSignatureMessageSize) cardanoData.publicKey.bytes
    Prog.check (suc = 1) errorWrongState
    pure ((env.hash.blake2b cardanoData.publicKey.bytes).take blake160Size)

end CkbAuth
