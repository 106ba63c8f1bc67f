import CkbAuth.Convert

/-!
# Monero signatures

`write_varint`, the two Monero hashes and the signature check of `auth.c`.
-/

namespace CkbAuth

open CRun

variable (env : Env)

/-- `write_varint`: the bytes written to `dest`, seven bits each, lowest first. -/
def writeVarint (n : ℕ) : Bytes :=
  if 0x80 ≤ n then UInt8.ofNat (n % 0x80 + 0x80) :: writeVarint (n / 0x80)
  else [UInt8.ofNat n]
termination_by n
decreasing_by omega

def getMoneroMessageHash (spendPubkey viewPubkey : Bytes) (mode : UInt8) (msg : Bytes)
    (msgLen : ℕ) : Bytes :=
  -- the literal is absorbed with its NUL
  let moneroHashKeyMessageSigning := ascii "MoneroMessageSignature" ++ [0]
  let ctx := keccakInit
  let ctx := keccakUpdate ctx moneroHashKeyMessageSigning moneroHashKeyMessageSigning.length
  let ctx := keccakUpdate ctx spendPubkey moneroPubkeySize
  let ctx := keccakUpdate ctx viewPubkey moneroPubkeySize
  let ctx := keccakUpdate ctx [mode] 1
  let lenBuf := writeVarint msgLen
  let ctx := keccakUpdate ctx lenBuf lenBuf.length
  let ctx := keccakUpdate ctx msg msgLen
  keccakFinal env ctx

def moneroHashToScalar (msg : Bytes) (msgLen : ℕ) (key comm : Bytes) : Bytes :=
  let ctx := keccakUpdate keccakInit msg msgLen
  let ctx := keccakUpdate ctx key 32
  let ctx := keccakUpdate ctx comm 32
  env.ed.scReduce32 (keccakFinal env ctx)

def infinity : Bytes := 1 :: List.replicate 31 0

def ed25519VerifyMonero (signature message : Bytes) (messageLen : ℕ) (publicKey : Bytes) : ℤ :=
  let sigC := signature.take 32
  let sigR := (signature.drop 32).take 32
  if env.ed.scCheck sigC ≠ 0 ∨ env.ed.scCheck sigR ≠ 0 ∨ env.ed.scIsNonzero sigC = 0 then 0
  else
    let sigCNeg := env.ed.scSub env.ed.sc0 sigC
    match env.ed.geFromBytesNegateVartime publicKey with
    | none => 0
    | some tmp3 =>
        let comm := env.ed.geToBytes (env.ed.geDoubleScalarmultVartime sigCNeg tmp3 sigR)
        if comm = infinity then 0
        else
          let c := moneroHashToScalar env message messageLen publicKey comm
          let c := env.ed.scSub c sigC
          if env.ed.scIsNonzero c = 0 then 1 else 0

def validateSignatureMonero : ValidateSignature := fun sig sigLen msg msgLen _outputLen ↦ do
  Prog.check (msgLen = blake2bBlockSize) errorInvalidArg
  Prog.check (sigLen = moneroDataSize) errorInvalidArg
  let modePtr := sig + moneroSignatureSize
  let mode ← Prog.byte modePtr
  Prog.check (mode = 0) errorInvalidArg
  let spendPubkey ← Prog.bytes (modePtr + 1) moneroPubkeySize
  let viewPubkey ← Prog.bytes (modePtr + (1 + moneroPubkeySize)) moneroPubkeySize
  let hash := getMoneroMessageHash env spendPubkey viewPubkey mode msg msgLen
  let signature ← Prog.bytes sig moneroSignatureSize
  let suc := ed25519VerifyMonero env signature hash hash.length spendPubkey
  Prog.check (suc = 1) errorSpawnInvalidSig
  let pubkeyInfo ← Prog.bytes modePtr (1 + moneroPubkeySize * 2)
  pure ((env.hash.blake2b pubkeyInfo).take blake160Size)

end CkbAuth
