import CkbAuth.LittleEndian

/-!
# The message of a transaction

`generate_sighash_all` of `auth_demo.c`: the transaction hash and the witnesses
as they are fed to blake2b, the lock of the first witness of the group being
zero.  Witnesses are loaded in batches.
-/

namespace CkbAuth

open CRun

@[simp] def ckbSuccess : ℤ := 0
@[simp] def maxWitnessSize : ℕ := 32768
@[simp] def oneBatchSize : ℕ := 32768

/-! ## Transactions -/

/-- A transaction as the syscalls show it to the script of a group of inputs.  A
length is a `uint64_t`. -/
structure Transaction where
  hash : Bytes
  inputs : ℕ
  group : List ℕ
  witnesses : List Bytes
  length_hash : hash.length = blake2bBlockSize
  group_sorted : group.Pairwise (· < ·)
  group_lt : ∀ i ∈ group, i < inputs
  length_witness : ∀ w ∈ witnesses, w.length < 2 ^ 64

/-- `CKB_SOURCE_GROUP_INPUT` and `CKB_SOURCE_INPUT` -/
inductive Source where
  | groupInput
  | input
  deriving DecidableEq, Repr

/-- The witness at an index of a source. -/
def Transaction.witness (tx : Transaction) : Source → ℕ → Option Bytes
  | .groupInput, index => tx.group[index]?.bind fun i ↦ tx.witnesses[i]?
  | .input, index => tx.witnesses[index]?

/-! ## Loading -/

variable (tx : Transaction)

/-- The start of a buffer is overwritten. -/
def overwrite (temp data : Bytes) : Bytes := data ++ temp.drop data.length

/-- `ckb_load_witness`: the buffer and the length behind the call. -/
def ckbLoadWitness (temp : Bytes) (len offset index : ℕ) (source : Source) :
    Except ℤ (Bytes × ℕ) :=
  match tx.witness source index with
  | none => .error ckbIndexOutOfBound
  | some w => .ok (overwrite temp ((w.drop offset).take len), w.length - offset)

/-- A `mol_seg_t` inside of a buffer. -/
structure Seg where
  ptr : ℕ
  size : ℕ
  deriving DecidableEq, Repr

/-- `*((uint32_t *)(&witness[16]))` -/
def lockLength (witness : Bytes) : ℕ := leToNat ((witness.drop 16).take 4)

/-- The sum is a `uint32_t`. -/
def extractWitnessLock (witness : Bytes) (len : ℕ) : Except ℤ Seg :=
  if len < 20 then .error ckbInvalidData
  else if len < (20 + lockLength witness) % 2 ^ 32 then .error ckbInvalidData
  else .ok ⟨20, lockLength witness⟩

/-- A `memset` outside of the buffer is a fault. -/
def memset (temp : Bytes) (seg : Seg) : Outcome Bytes :=
  if seg.ptr + seg.size ≤ temp.length then
    .ret (temp.take seg.ptr ++ List.replicate seg.size 0 ++ temp.drop (seg.ptr + seg.size))
  else .fault

/-! ## Hashing -/

/-- The `while` loop of `load_and_hash_witness`, with its code and the bytes that
blake2b has absorbed. -/
def hashBatches (start index : ℕ) (source : Source) (len : ℕ) :
    (n : ℕ) → (temp : Bytes) → (offset : ℕ) → (ctx : Bytes) → Outcome (ℤ × Bytes)
  | 0, _, _, _ => .running
  | n + 1, temp, offset, ctx =>
      if offset < len then
        match ckbLoadWitness tx temp oneBatchSize (start + offset) index source with
        | .error ret => .ret (ret, ctx)
        | .ok (temp, currentLen) =>
            let currentRead := if oneBatchSize < currentLen then oneBatchSize else currentLen
            hashBatches start index source len n temp (offset + currentRead)
              (ctx ++ temp.take currentRead)
      else .ret (ckbSuccess, ctx)

variable (fuel : ℕ) (stale : Bytes)

/-- `stale` is what the array `temp` holds at first, here and below. -/
def loadAndHashWitness (ctx : Bytes) (start index : ℕ) (source : Source) (hashLength : Bool) :
    Outcome (ℤ × Bytes) :=
  match ckbLoadWitness tx stale oneBatchSize start index source with
  | .error ret => .ret (ret, ctx)
  | .ok (temp, len) =>
      let ctx := if hashLength then ctx ++ leBytes 8 len else ctx
      let offset := if oneBatchSize < len then oneBatchSize else len
      hashBatches tx start index source len fuel temp offset (ctx ++ temp.take offset)

/-- A `while (1)` loop of `generate_sighash_all`, from `i` on. -/
def hashWitnesses (source : Source) : (n i : ℕ) → (ctx : Bytes) → Outcome Bytes
  | 0, _, _ => .running
  | n + 1, i, ctx =>
      (loadAndHashWitness tx fuel stale ctx 0 i source true).bind fun (ret, ctx) ↦
        if ret = ckbIndexOutOfBound then .ret ctx
        else if ret ≠ ckbSuccess then .fail ckbInvalidData
        else hashWitnesses source n (i + 1) ctx

/-- `generate_sighash_all` up to `blake2b_final`. -/
def sighashContext (msgLen : ℕ) : Outcome Bytes :=
  if msgLen < blake2bBlockSize then .fail ckbInvalidData
  else
    match ckbLoadWitness tx stale maxWitnessSize 0 0 .groupInput with
    | .error _ => .fail ckbInvalidData
    | .ok (temp, readLen) =>
        let witnessLen := readLen
        let readLen := if maxWitnessSize < readLen then maxWitnessSize else readLen
        match extractWitnessLock temp readLen with
        | .error _ => .fail ckbInvalidData
        | .ok lockBytesSeg =>
            -- `ckb_load_tx_hash` succeeds
            if tx.hash.length ≠ blake2bBlockSize then .fail ckbInvalidData
            else
              (memset temp lockBytesSeg).bind fun temp ↦
              let ctx := tx.hash ++ leBytes 8 witnessLen ++ temp.take readLen
              (if readLen < witnessLen then
                (loadAndHashWitness tx fuel stale ctx readLen 0 .groupInput false).bind
                  fun (ret, ctx) ↦ if ret ≠ ckbSuccess then .fail ckbInvalidData else .ret ctx
              else .ret ctx).bind fun ctx ↦
              (hashWitnesses tx fuel stale .groupInput fuel 1 ctx).bind fun ctx ↦
              hashWitnesses tx fuel stale .input fuel tx.inputs ctx

def generateSighashAll (env : Env) (msgLen : ℕ) : Outcome Bytes :=
  (sighashContext tx fuel stale msgLen).bind fun ctx ↦ .ret (env.hash.blake2b ctx)

end CkbAuth
