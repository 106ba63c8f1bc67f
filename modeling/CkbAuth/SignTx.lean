import CkbAuth.DemosAgree
import CkbAuth.Molecule
import CkbAuth.Signer

/-!
# The transactions of the Rust tests

Building, signing and completing a transaction in `tests/auth_rust/src/lib.rs`.  A
`WitnessArgs` is taken apart and put together by molecule code, unverified.
-/

namespace CkbAuth.SignTx

open CkbAuth Molecule Signer

/-- What signing uses of a `TransactionView`.  The hash does not depend on the witnesses. -/
structure TransactionView where
  hash : Bytes
  inputs : ℕ
  witnesses : List Bytes
  deriving DecidableEq, Repr

/-- `Option::unwrap` -/
def unwrap {α : Type} : Option α → Result α
  | some a => .ok a
  | none => .error .panic

/-! ## The lock of a witness -/

/-- `WitnessArgs::new_unchecked(witness).as_builder().lock(Some(lock).pack()).build()` -/
def setLock [MoleculeCrate] (witness lock : Bytes) : Result Bytes := do
  let _ ← field 3 0 witness
  let inputType ← field 3 1 witness
  let outputType ← field 3 2 witness
  return writeTable [bytesSlice lock, inputType, outputType]

/-! ## What is configured -/

inductive TestConfigIncorrectSing where
  | none
  | bigger
  | smaller
  deriving DecidableEq, Repr

structure TestConfig where
  auth : Auth
  /-- `auth.get_sign_size()` -/
  getSignSize : ℕ
  entryCategoryType : Rs.EntryCategoryType
  signSize : ℕ
  incorrectPubkey : Bool
  incorrectMsg : Bool
  incorrectSign : Bool
  incorrectSignSize : TestConfigIncorrectSing

/-- `TestConfig::new` -/
def TestConfig.new (auth : Auth) (getSignSize : ℕ) (entryCategoryType : Rs.EntryCategoryType)
    (signSize : ℕ) : Result TestConfig :=
  if 0 < signSize then
    .ok ⟨auth, getSignSize, entryCategoryType, signSize, false, false, false, .none⟩
  else .error .panic

/-- What `thread_rng` gives where the tests ask it. -/
structure Rng where
  pubkey : Bytes
  msg : Bytes
  sign : Bytes
  signSize : ℕ
  fill : Bytes
  extraWitness : ℕ → Bytes
  length_pubkey : pubkey.length = 32
  length_msg : msg.length = 32
  length_sign : sign.length = 16
  length_fill : fill.length < 63
  length_extraWitness : ∀ i, (extraWitness i).length = 64

variable [MoleculeCrate] (tx : TransactionView) (config : TestConfig) (rng : Rng)

/-! ## The message -/

/-- What `get_message_to_sign_by_input_group` feeds to blake2b: the first witness with a lock
of zeros, and the witnesses up to `begin_index + len`. -/
def digestStream (beginIndex len : ℕ) : Result Bytes := do
  let witness ← unwrap tx.witnesses[beginIndex]?
  let witnessForDigest ← setLock witness (List.replicate config.getSignSize 0)
  let rest ← (List.range' (beginIndex + 1) (len - 1)).mapM fun n ↦ unwrap tx.witnesses[n]?
  return tx.hash ++ lengthed witnessForDigest ++ rest.flatMap lengthed

variable (blake2b : Bytes → Bytes)

def getMessageToSignByInputGroup (beginIndex len : ℕ) : Result Bytes :=
  if beginIndex < tx.inputs then
    (digestStream tx config beginIndex len).map fun stream ↦
      config.auth.convertMessage (blake2b stream)
  else .error .panic

/-! ## The signature -/

/-- The witnesses of the inputs, one of them by a closure, and all that are behind. -/
def signedWitnesses (beginIndex : ℕ) (first : Unit → Result Bytes) : Result (List Bytes) := do
  let signed ← (List.range tx.inputs).mapM fun i ↦
    if i = beginIndex then first () else .ok (tx.witnesses[i]?.getD [])
  return signed ++ tx.witnesses.drop signed.length

def setSignatureByIndex (signature : Bytes) (beginIndex : ℕ) : Result TransactionView := do
  let witnesses ← signedWitnesses tx beginIndex fun _ ↦
    setLock (tx.witnesses[beginIndex]?.getD []) signature
  return { tx with witnesses }

/-- The signature of a message, or what is configured in its place. -/
def signatureFor (message : Bytes) : Result Bytes :=
  let message := if config.incorrectMsg then rng.msg else message
  let sig :=
    if config.incorrectSign then rng.sign
    else config.auth.sign (config.auth.convertMessage message)
  match config.incorrectSignSize with
  | .none => .ok sig
  | .bigger => .ok (sig ++ rng.fill)
  | .smaller => index sig 0 rng.signSize

def signTxByInputGroup (beginIndex len : ℕ) : Result TransactionView := do
  let witnesses ← signedWitnesses tx beginIndex fun _ ↦ do
    let witness ← unwrap tx.witnesses[beginIndex]?
    let stream ← digestStream tx config beginIndex len
    let sig ← signatureFor config rng (blake2b stream)
    setLock witness sig
  return { tx with witnesses }

def signTx : Result TransactionView :=
  signTxByInputGroup tx config rng blake2b 0 tx.witnesses.length

/-! ## What is signed -/

/-- The witness of an input that `gen_tx_with_grouped_args` adds. -/
def extraWitnessArgs (extraWitness : Bytes) : Bytes :=
  writeTable [[], bytesSlice extraWitness, []]

/-- `gen_tx`: inputs with one lock, `sign_size` of them, and a witness each. -/
def genTx (hash : Bytes) : TransactionView where
  hash := hash
  inputs := config.signSize
  witnesses := (List.range config.signSize).map fun i ↦ extraWitnessArgs (rng.extraWitness i)

/-- `do_gen_args`, serialized by bincode; `codeHash` is that of the auth library. -/
def doGenArgs (codeHash : Bytes) (pubKeyHash : Option Bytes) : Result Bytes := do
  let content ←
    if config.incorrectPubkey then .ok (rng.pubkey.take 20)
    else
      let pubHash := pubKeyHash.getD config.auth.getPubKeyHash
      if pubHash.length = 20 then .ok pubHash else .error .panic
  return config.auth.getAlgorithmType :: content ++
    (codeHash ++ [Rs.ScriptHashType.data2.toU8, config.entryCategoryType.toU8])

end CkbAuth.SignTx
