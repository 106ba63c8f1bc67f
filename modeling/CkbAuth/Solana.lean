import CkbAuth.Convert

/-!
# Solana signatures

`read_varint_u16` and the two functions of `auth.c` that check a wrapped
Solana signature: two length bytes, then signature, public key and the signed
message, padded to 512 bytes.
-/

namespace CkbAuth

open CRun

variable (env : Env)

/-- `sizeof(uint16_t) * 8 / 7` -/
@[simp] def maximumFullBytes : ℕ := 2

/-- The `for` loop of `read_varint_u16`, with `n` iterations left. -/
def readVarintU16Loop (srcSize : ℕ) : (n i acc : ℕ) → (ptr : Prog.Ptr Region) →
    Call (Prog.Ptr Region × ℕ)
  | 0, _, acc, ptr => pure (ptr, acc)
  | n + 1, i, acc, ptr => do
      Prog.check (¬srcSize ≤ i) (-1)
      let currentValue ← Prog.byte ptr
      let bits := if i < maximumFullBytes then 7 else 16 - maximumFullBytes * 7
      let maximumValue := 2 ^ bits - 1
      let acc := (acc + (currentValue.toNat &&& maximumValue) <<< (i * 7)) % 2 ^ 16
      if currentValue.toNat < 0x80 ∧ i < maximumFullBytes then pure (ptr + 1, acc)
      else if i = maximumFullBytes ∧ maximumValue < currentValue.toNat then Prog.fail (-2)
      else readVarintU16Loop srcSize n (i + 1) acc (ptr + 1)

/-- The new `*src` and `*result`. -/
def readVarintU16 (src : Prog.Ptr Region) (srcSize : ℕ) : Call (Prog.Ptr Region × ℕ) :=
  readVarintU16Loop srcSize (maximumFullBytes + 1) 0 0 src

/-- The `for` loop over the signers, with `n` of them left. -/
def searchSigner (pubKeyPtr pubKey : Prog.Ptr Region) : (n i : ℕ) → Call Unit
  | 0, _ => Prog.fail errorInvalidArg
  | n + 1, i => do
      let tmpPubKey ← Prog.bytes (pubKeyPtr + i * solanaPubkeySize) solanaPubkeySize
      let key ← Prog.bytes pubKey solanaPubkeySize
      if tmpPubKey = key then pure () else searchSigner pubKeyPtr pubKey n (i + 1)

def validateSolanaSignedMessage (signedMsg : Prog.Ptr Region) (signedMsgLen : ℕ)
    (pubKey : Prog.Ptr Region) (blockhash : Bytes) : Call Unit := do
  Prog.check (solanaMessageHeaderSize + solanaBlockhashSize < signedMsgLen) errorInvalidArg
  let numSigners ← Prog.byte signedMsg
  let (pubKeyPtr, numKeys) ← (readVarintU16 (signedMsg + solanaMessageHeaderSize)
    (sizeSub signedMsgLen solanaMessageHeaderSize)).mapFail fun _ ↦ errorInvalidArg
  let pubKeySize := (pubKeyPtr.offset - (signedMsg + solanaMessageHeaderSize).offset) +
    solanaPubkeySize * numKeys
  Prog.check (solanaMessageHeaderSize + pubKeySize + solanaBlockhashSize < signedMsgLen)
    errorInvalidArg
  let blockhashPtr := signedMsg + (solanaMessageHeaderSize + pubKeySize)
  let hash ← Prog.bytes blockhashPtr solanaBlockhashSize
  Prog.check (hash = blockhash.take solanaBlockhashSize) errorInvalidArg
  searchSigner pubKeyPtr pubKey numSigners.toNat 0

/-- A signature or a key that is no good in itself may be turned down before the message is
read. -/
def ed25519Verify (signature message : Prog.Ptr Region) (messageLen : ℕ)
    (publicKey : Prog.Ptr Region) : Call ℤ := do
  let sig ← Prog.bytes signature 64
  let pk ← Prog.bytes publicKey 32
  if env.ed.refuses sig pk = true then pure 0
  else
    let msg ← Prog.bytes message messageLen
    pure (env.ed.verify sig msg pk)

def validateSignatureSolana : ValidateSignature := fun sig sigLen msg msgLen _outputLen ↦ do
  Prog.check (sigLen = solanaWrappedSignatureSize) errorInvalidArg
  Prog.check (msgLen = solanaBlockhashSize) errorInvalidArg
  let low ← Prog.byte sig
  let high ← Prog.byte (sig + 1)
  let sigLen := low.toNat ||| (high.toNat <<< 8)
  Prog.check (sigLen ≤ solanaUnwrappedSignatureSize) errorInvalidArg
  let signaturePtr : Prog.Ptr Region := sig + 2
  let pubKeyPtr := signaturePtr + solanaSignatureSize
  let signedMsgPtr := signaturePtr + (solanaSignatureSize + solanaPubkeySize)
  let signedMsgLen := sizeSub (sizeSub sigLen solanaSignatureSize) solanaPubkeySize
  -- `CHECK` evaluates the call once more when it fails, with the same result
  validateSolanaSignedMessage signedMsgPtr signedMsgLen pubKeyPtr msg
  let suc ← ed25519Verify env signaturePtr signedMsgPtr signedMsgLen pubKeyPtr
  Prog.check (suc = 1) errorWrongState
  let pubkey ← Prog.bytes pubKeyPtr solanaPubkeySize
  pure ((env.hash.blake2b pubkey).take blake160Size)

end CkbAuth
