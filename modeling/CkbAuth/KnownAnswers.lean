import CkbAuth.Ecdsa

/-!
# Environments given by known answers

The libraries are opaque to this development.  To run the code on a concrete
input one needs what they answer on the few values that come up there;
`KnownAnswers` is a table of such answers and `KnownAnswers.env` an environment
that gives them.
-/

namespace CkbAuth

open CRun

/-! ## Byte strings -/

/-- The `size` low bytes of a number, most significant first. -/
def bytesOfNat : (size n : ℕ) → Bytes
  | 0, _ => []
  | size + 1, n => bytesOfNat size (n / 256) ++ [UInt8.ofNat n]

@[simp] theorem length_bytesOfNat (size n : ℕ) : (bytesOfNat size n).length = size := by
  induction size generalizing n with
  | zero => rfl
  | succ size ih => simp [bytesOfNat, ih]

/-! ## Tables -/

/-- Inputs and answers; what is not listed is rejected, or hashes to zeros. -/
structure KnownAnswers where
  /-- signature, recovery id and message, with the uncompressed public key -/
  recover : List ((Bytes × ℕ × Bytes) × Bytes)
  /-- signature, message and public key that `ed25519_verify` accepts -/
  ed25519 : List (Bytes × Bytes × Bytes)
  blake2b : List (Bytes × Bytes)
  cardanoBlake2b : List (Bytes × Bytes)
  keccak256 : List (Bytes × Bytes)
  md : List ((MdType × Bytes) × Bytes)

def KnownAnswers.empty : KnownAnswers := ⟨[], [], [], [], [], []⟩

/-- The digest listed for an input. -/
def digestOf {α : Type} [DecidableEq α] (size : ℕ) (table : List (α × Bytes)) (input : α) :
    Bytes :=
  match table.find? fun entry ↦ entry.1 = input with
  | some entry => if entry.2.length = size then entry.2 else List.replicate size 0
  | none => List.replicate size 0

theorem length_digestOf {α : Type} [DecidableEq α] (size : ℕ) (table : List (α × Bytes))
    (input : α) : (digestOf size table input).length = size := by
  unfold digestOf
  split
  · split
    · assumption
    · exact List.length_replicate
  · exact List.length_replicate

theorem digestOf_cons_self {α : Type} [DecidableEq α] {size : ℕ} {table : List (α × Bytes)}
    {input : α} {digest : Bytes} (h : digest.length = size) :
    digestOf size ((input, digest) :: table) input = digest := by
  simp [digestOf, h]

/-- A key given uncompressed, in the form asked for. -/
def serializeKnown (pubkey : Bytes) (compressed : Bool) : Option Bytes :=
  if pubkey.length = 65 then
    if compressed then
      some ((if (pubkey.getD 64 0).toNat % 2 = 0 then 2 else 3) :: (pubkey.drop 1).take 32)
    else some pubkey
  else none

theorem length_serializeKnown {pubkey b : Bytes} {c : Bool}
    (h : serializeKnown pubkey c = some b) : b.length = if c then 33 else 65 := by
  unfold serializeKnown at h
  split at h
  next hlen =>
    cases c with
    | true =>
        have hb := (Option.some.inj h).symm
        simp [hb, hlen]
    | false =>
        have hb := (Option.some.inj h).symm
        simp [hb, hlen]
  next => cases h

namespace KnownAnswers

def secp (k : KnownAnswers) : Secp256k1 where
  RecoverableSignature := Bytes × ℕ
  Pubkey := Bytes
  XonlyPubkey := Bytes
  parseCompact sig recid := some (sig, recid)
  recover sig msg := (k.recover.find? fun entry ↦ entry.1 = (sig.1, sig.2, msg)).map Prod.snd
  serialize := serializeKnown
  serialize_length := length_serializeKnown
  xonlyPubkeyParse _ := none
  schnorrsigVerify _ _ _ := false

def ed (k : KnownAnswers) : Ed25519 where
  Ge := Unit
  verify sig msg pk := if (sig, msg, pk) ∈ k.ed25519 then 1 else 0
  refuses _ _ := false
  verify_of_refuses h _ := nomatch h
  scCheck _ := -1
  scIsNonzero _ := 0
  sc0 := List.replicate 32 0
  scSub _ _ := List.replicate 32 0
  scReduce32 _ := List.replicate 32 0
  geFromBytesNegateVartime _ := none
  geDoubleScalarmultVartime _ _ _ := ()
  geToBytes _ := List.replicate 32 0

def hashes (k : KnownAnswers) : Hashes where
  blake2b := digestOf 32 k.blake2b
  blake2b_length := length_digestOf 32 k.blake2b
  cardanoBlake2b := digestOf 32 k.cardanoBlake2b
  keccak256 := digestOf 32 k.keccak256
  keccak256_length := length_digestOf 32 k.keccak256
  md t input := .ok (digestOf (match t with | .sha256 => 32 | .ripemd160 => 20) k.md (t, input))

def env (k : KnownAnswers) : Env where
  secp := k.secp
  ed := k.ed
  hash := k.hashes
  secp256k1DataHash := List.replicate 32 0
  secp256k1DataSize := 1048576
  cellDeps := [⟨.ok (List.replicate 32 0), .ok 1048576⟩]
  inputLockHashes := []

theorem env_blake2b {k : KnownAnswers} {input digest : Bytes} {rest : List (Bytes × Bytes)}
    (hk : k.blake2b = (input, digest) :: rest) (hlen : digest.length = 32) :
    k.env.hash.blake2b input = digest := by
  simp only [env, hashes, hk]
  exact digestOf_cons_self hlen

@[simp] theorem env_initialize (k : KnownAnswers) :
    ckbSecp256k1CustomVerifyOnlyInitialize k.env = .ok () := by
  simp only [ckbSecp256k1CustomVerifyOnlyInitialize, searchSecp256k1Data, env, if_true]

end KnownAnswers

/-- The signature and the message are all that is mapped. -/
def bufferMem (signature message : Bytes) (hs : signature.length ≤ 2 ^ 64)
    (hm : message.length ≤ 2 ^ 64) : Mem Region where
  bytes
    | .signature => signature
    | .message => message
    | .null => []
  fits
    | .signature => hs
    | .message => hm
    | .null => Nat.zero_le _

theorem nil_fits : ([] : Bytes).length ≤ 2 ^ 64 := Nat.zero_le _

theorem bufferMem_holds_signature (signature message : Bytes) (hs : signature.length ≤ 2 ^ 64)
    (hm : message.length ≤ 2 ^ 64) :
    Prog.Ptr.Holds (bufferMem signature message hs hm) ⟨.signature, 0⟩ signature := by
  simp [Prog.Ptr.Holds, Prog.Ptr.access, Access.Mapped, Access.slice, Access.stop, bufferMem]

theorem bufferMem_holds_message (signature message : Bytes) (hs : signature.length ≤ 2 ^ 64)
    (hm : message.length ≤ 2 ^ 64) :
    Prog.Ptr.Holds (bufferMem signature message hs hm) ⟨.message, 0⟩ message := by
  simp [Prog.Ptr.Holds, Prog.Ptr.access, Access.Mapped, Access.slice, Access.stop, bufferMem]

end CkbAuth
