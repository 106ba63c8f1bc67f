import Mathlib.Order.Filter.AtTopBot.Defs
import Mathlib.Order.Filter.Finite
import CkbAuth.KnownAnswers
import CkbAuth.Sighash

/-!
# The stream behind the message

Whatever the sizes of the witnesses, the batches add up to one stream.
-/

namespace CkbAuth

open CRun

variable {tx : Transaction} {fuel : ℕ} {stale : Bytes} {source : Source}

/-! ## The stream -/

def Transaction.groupWitnesses (tx : Transaction) : List Bytes :=
  tx.group.filterMap fun i ↦ tx.witnesses[i]?

/-- The witnesses that a source shows, by index. -/
def Transaction.shown (tx : Transaction) : Source → List Bytes
  | .groupInput => tx.groupWitnesses
  | .input => tx.witnesses

def lengthed (w : Bytes) : Bytes := leBytes 8 w.length ++ w

/-- The segment `[20, 20 + l)` is zero. -/
def clearLock (w : Bytes) (l : ℕ) : Bytes := w.take 20 ++ List.replicate l 0 ++ w.drop (20 + l)

/-- What is hashed, when the group's first witness is `w`. -/
def sighashStream (tx : Transaction) (w : Bytes) : Bytes :=
  tx.hash ++ (leBytes 8 w.length ++ clearLock w (lockLength w)) ++
    (tx.groupWitnesses.drop 1).flatMap lengthed ++ (tx.witnesses.drop tx.inputs).flatMap lengthed

/-- Where a witness is missing, all later ones are. -/
theorem filterMap_getElem? {ws : List Bytes} {group : List ℕ} (h : group.Pairwise (· < ·)) :
    ∀ k : ℕ, (group.filterMap fun i : ℕ ↦ ws[i]?)[k]? = group[k]?.bind fun i ↦ ws[i]? := by
  induction group with
  | nil => simp
  | cons i group ih =>
      obtain ⟨hlt, hrest⟩ := List.pairwise_cons.mp h
      intro k
      cases hi : ws[i]? with
      | some w =>
          rw [List.filterMap_cons_some hi]
          cases k with
          | zero => simp [hi]
          | succ k => simpa using ih hrest k
      | none =>
          have hmissing : ∀ j ∈ group, ws[j]? = none := fun j hj ↦
            List.getElem?_eq_none ((List.getElem?_eq_none_iff.mp hi).trans (hlt j hj).le)
          have hnil : (group.filterMap fun i : ℕ ↦ ws[i]?) = [] :=
            List.filterMap_eq_nil_iff.mpr hmissing
          rw [List.filterMap_cons_none hi, hnil]
          cases k with
          | zero => simp [hi]
          | succ k =>
              cases hk : group[k]? with
              | none => simp [hk]
              | some j => simp [hk, hmissing j (List.mem_of_getElem? hk)]

theorem witness_eq (tx : Transaction) (source : Source) (index : ℕ) :
    tx.witness source index = (tx.shown source)[index]? := by
  cases source with
  | groupInput => exact (filterMap_getElem? tx.group_sorted index).symm
  | input => rfl

theorem witness_zero {w : Bytes} {rest : List Bytes} (hgroup : tx.groupWitnesses = w :: rest) :
    tx.witness .groupInput 0 = some w := by
  rw [witness_eq, Transaction.shown, hgroup]
  rfl

/-! ## Batches -/

theorem length_overwrite {temp data : Bytes} (h : data.length ≤ temp.length) :
    (overwrite temp data).length = temp.length := by
  rw [overwrite, List.length_append, List.length_drop]
  omega

theorem slice_overwrite {temp w : Bytes} {i k n : ℕ} (hn : i + k ≤ n) (hw : i + k ≤ w.length) :
    ((overwrite temp (w.take n)).drop i).take k = (w.drop i).take k := by
  have hlen : (w.take n).length = min n w.length := List.length_take
  rw [overwrite, List.drop_append_of_le_length (by omega),
    List.take_append_of_le_length (by rw [List.length_drop]; omega), List.drop_take,
    List.take_take, Nat.min_eq_left (by omega)]

/-- What has been loaded is at the start of the buffer. -/
theorem take_overwrite (temp data : Bytes) (n : ℕ) :
    (overwrite temp (data.take n)).take (if n < data.length then n else data.length) =
      data.take (if n < data.length then n else data.length) := by
  have hlen : (if n < data.length then n else data.length) = (data.take n).length := by
    rw [List.length_take]
    split <;> omega
  rw [hlen, overwrite, List.take_left, List.length_take, ← List.take_take, List.take_length]

theorem take_append_drop_add (w : Bytes) (i n : ℕ) :
    (w.drop i).take n ++ w.drop (i + n) = w.drop i := by
  rw [← List.drop_drop, List.take_append_drop]

/-- The batches from an offset on add up to the rest of the witness. -/
theorem hashBatches_eq {start index : ℕ} {w : Bytes} (hw : tx.witness source index = some w)
    {n : ℕ} : ∀ {temp : Bytes} {offset : ℕ} {ctx : Bytes}, w.length - start - offset < n →
      hashBatches tx start index source (w.length - start) n temp offset ctx =
        .ret (0, ctx ++ w.drop (start + offset)) := by
  induction n with
  | zero => intro _ _ _ hn; omega
  | succ n ih =>
      intro temp offset ctx hn
      rw [hashBatches]
      by_cases hlt : offset < w.length - start
      · have hbatch := take_overwrite temp (w.drop (start + offset)) oneBatchSize
        rw [List.length_drop] at hbatch
        simp only [if_pos hlt, ckbLoadWitness, hw, hbatch]
        have hread : 0 < (if oneBatchSize < w.length - (start + offset) then oneBatchSize
            else w.length - (start + offset)) := by
          split <;> simp only [oneBatchSize] at * <;> omega
        generalize (if oneBatchSize < w.length - (start + offset) then oneBatchSize
            else w.length - (start + offset)) = read at hread ⊢
        rw [ih (by omega), ← Nat.add_assoc, List.append_assoc, take_append_drop_add]
      · rw [if_neg hlt, List.drop_of_length_le (by omega), List.append_nil]
        rfl

theorem loadAndHashWitness_eq {start index : ℕ} {w ctx : Bytes} {hashLength : Bool}
    (hw : tx.witness source index = some w) (hfuel : w.length < fuel) :
    loadAndHashWitness tx fuel stale ctx start index source hashLength =
      .ret (0, ctx ++ (if hashLength then leBytes 8 (w.length - start) else []) ++
        w.drop start) := by
  have hbatch := take_overwrite stale (w.drop start) oneBatchSize
  rw [List.length_drop] at hbatch
  simp only [loadAndHashWitness, ckbLoadWitness, hw, hbatch]
  rw [hashBatches_eq hw (by omega), List.append_assoc, take_append_drop_add]
  cases hashLength <;> simp

theorem loadAndHashWitness_missing {start index : ℕ} {ctx : Bytes} {hashLength : Bool}
    (hw : tx.witness source index = none) :
    loadAndHashWitness tx fuel stale ctx start index source hashLength = .ret (1, ctx) := by
  simp [loadAndHashWitness, ckbLoadWitness, hw]

/-! ## Loops over witnesses -/

/-- Iterations that are enough for every loop. -/
structure Enough (tx : Transaction) (fuel : ℕ) : Prop where
  count : ∀ source, (tx.shown source).length < fuel
  length : ∀ w ∈ tx.witnesses, w.length < fuel

theorem eventually_enough (tx : Transaction) : ∀ᶠ fuel in Filter.atTop, Enough tx fuel := by
  have hcount (source : Source) : ∀ᶠ fuel in Filter.atTop, (tx.shown source).length < fuel :=
    Filter.eventually_gt_atTop _
  have hlength : ∀ᶠ fuel in Filter.atTop, ∀ w ∈ tx.witnesses, w.length < fuel :=
    (Filter.eventually_all_finite tx.witnesses.finite_toSet).mpr fun w _ ↦
      Filter.eventually_gt_atTop w.length
  filter_upwards [hcount .groupInput, hcount .input, hlength] with fuel hgroup hinput hw
  exact ⟨fun source ↦ by cases source <;> assumption, hw⟩

theorem mem_witnesses {w : Bytes} (hw : w ∈ tx.shown source) : w ∈ tx.witnesses := by
  cases source with
  | groupInput =>
      obtain ⟨i, _, hi⟩ := List.mem_filterMap.mp hw
      exact List.mem_of_getElem? hi
  | input => exact hw

/-- A loop ends at the first missing witness, with all before it hashed. -/
theorem hashWitnesses_eq (hfuel : Enough tx fuel) {n : ℕ} : ∀ {i : ℕ} {ctx : Bytes},
    (tx.shown source).length - i < n →
      hashWitnesses tx fuel stale source n i ctx =
        .ret (ctx ++ ((tx.shown source).drop i).flatMap lengthed) := by
  induction n with
  | zero => intro _ _ hn; omega
  | succ n ih =>
      intro i ctx hn
      rw [hashWitnesses]
      by_cases hi : i < (tx.shown source).length
      · have hw : tx.witness source i = some (tx.shown source)[i] := by
          rw [witness_eq, List.getElem?_eq_getElem hi]
        have hlt := hfuel.length _ (mem_witnesses (List.getElem_mem hi))
        rw [loadAndHashWitness_eq hw hlt, Outcome.bind_ret, List.drop_eq_getElem_cons hi,
          List.flatMap_cons]
        dsimp only
        rw [if_neg (by decide), if_neg (by decide), ih (by omega)]
        simp [lengthed]
      · have hw : tx.witness source i = none := by
          rw [witness_eq, List.getElem?_eq_none (by omega)]
        rw [loadAndHashWitness_missing hw, List.drop_of_length_le (by omega)]
        simp

/-! ## The whole stream -/

theorem lockLength_overwrite {temp w : Bytes} {n : ℕ} (hn : 20 ≤ n) (hw : 20 ≤ w.length) :
    lockLength (overwrite temp (w.take n)) = lockLength w := by
  rw [lockLength, slice_overwrite (by omega) (by omega), lockLength]

/-- The first witness as both callers of `extract_witness_lock` load it. -/
theorem ckbLoadWitness_zero {w temp : Bytes} (hw : tx.witness .groupInput 0 = some w) :
    ckbLoadWitness tx temp maxWitnessSize 0 0 .groupInput =
      .ok (overwrite temp (w.take maxWitnessSize), w.length) := by
  rw [ckbLoadWitness, hw]
  rfl

theorem readLen_eq (w : Bytes) :
    (if maxWitnessSize < w.length then maxWitnessSize else w.length) = min w.length 32768 := by
  by_cases h : 32768 < w.length
  · rw [maxWitnessSize, if_pos h, Nat.min_eq_right h.le]
  · rw [maxWitnessSize, if_neg h, Nat.min_eq_left (Nat.not_lt.mp h)]

theorem length_loaded (hstale : stale.length = 32768) (w : Bytes) :
    (overwrite stale (w.take maxWitnessSize)).length = 32768 := by
  rw [length_overwrite (by rw [List.length_take, hstale]; exact Nat.min_le_left _ _), hstale]

theorem clearLock_eq {temp w : Bytes} {l n : ℕ} (hl : 20 + l ≤ n) (hn : n ≤ w.length) :
    ((overwrite temp (w.take n)).take 20 ++ List.replicate l 0 ++
      (overwrite temp (w.take n)).drop (20 + l)).take n ++ w.drop n = clearLock w l := by
  have hlen : (w.take n).length = n := by
    rw [List.length_take, Nat.min_eq_left hn]
  have hhead : (overwrite temp (w.take n)).take 20 = w.take 20 := by
    rw [overwrite, List.take_append_of_le_length (by omega), List.take_take,
      Nat.min_eq_left (by omega)]
  have htail : (overwrite temp (w.take n)).drop (20 + l) =
      (w.take n).drop (20 + l) ++ temp.drop (w.take n).length := by
    rw [overwrite, List.drop_append_of_le_length (by omega)]
  have hcut : (w.take 20 ++ List.replicate l 0 ++ (w.take n).drop (20 + l)).length = n := by
    simp only [List.length_append, List.length_take, List.length_replicate, List.length_drop]
    omega
  have hrest : (w.take n).drop (20 + l) ++ w.drop n = w.drop (20 + l) := by
    rw [← List.drop_append_of_le_length (by omega), List.take_append_drop]
  rw [hhead, htail, ← List.append_assoc, List.take_append_of_le_length (Nat.le_of_eq hcut.symm),
    List.take_of_length_le hcut.le, List.append_assoc, hrest, clearLock]

theorem hashRest_eq {w ctx : Bytes} {n : ℕ} (hw : tx.witness .groupInput 0 = some w)
    (hfuel : w.length < fuel) :
    (if n < w.length then
      (loadAndHashWitness tx fuel stale ctx n 0 .groupInput false).bind
        fun x ↦ if ¬x.1 = ckbSuccess then .fail ckbInvalidData else .ret x.2
      else .ret ctx) = .ret (ctx ++ w.drop n) := by
  by_cases hlong : n < w.length
  · rw [if_pos hlong, loadAndHashWitness_eq hw hfuel]
    simp
  · rw [if_neg hlong, List.drop_of_length_le (Nat.not_lt.mp hlong), List.append_nil]

theorem sighashContext_rejected {w : Bytes} {msgLen : ℕ} {e : ℤ}
    (hw : tx.witness .groupInput 0 = some w)
    (hseg : extractWitnessLock (overwrite stale (w.take maxWitnessSize)) (min w.length 32768) =
      .error e) :
    sighashContext tx fuel stale msgLen = .fail ckbInvalidData := by
  rw [sighashContext, ckbLoadWitness_zero hw]
  simp only [readLen_eq, hseg, ite_self]

/-- The stream that `generate_sighash_all` hashes, wherever the lock of the first
witness is within what is loaded at once. -/
theorem sighashContext_eq {w : Bytes} {rest : List Bytes} {msgLen : ℕ}
    (hgroup : tx.groupWitnesses = w :: rest)
    (hlock : 20 + lockLength w ≤ min w.length 32768) (hmsg : 32 ≤ msgLen)
    (hstale : stale.length = 32768) (hfuel : Enough tx fuel) :
    sighashContext tx fuel stale msgLen = .ret (sighashStream tx w) := by
  have hw := witness_zero hgroup
  have hshown : w ∈ tx.shown .groupInput := by
    rw [Transaction.shown, hgroup]
    exact List.mem_cons_self
  have hlt := hfuel.length w (mem_witnesses hshown)
  have hgroupCount := hfuel.count .groupInput
  have hcount := hfuel.count .input
  have hmsg' : ¬msgLen < blake2bBlockSize := Nat.not_lt.mpr hmsg
  have htake : w.take maxWitnessSize = w.take (min w.length 32768) := by
    rw [Nat.min_comm, ← List.take_take, List.take_length]
    rfl
  have hextract : extractWitnessLock (overwrite stale (w.take (min w.length 32768)))
      (min w.length 32768) = .ok ⟨20, lockLength w⟩ := by
    rw [extractWitnessLock, lockLength_overwrite (by omega) (by omega), if_neg (by omega),
      if_neg (by omega)]
  have hmemset : memset (overwrite stale (w.take (min w.length 32768))) ⟨20, lockLength w⟩ =
      .ret ((overwrite stale (w.take (min w.length 32768))).take 20 ++
        List.replicate (lockLength w) 0 ++
        (overwrite stale (w.take (min w.length 32768))).drop (20 + lockLength w)) := by
    apply if_pos
    rw [length_overwrite (by rw [List.length_take]; omega)]
    dsimp only
    omega
  simp only [sighashContext, if_neg hmsg', ckbLoadWitness_zero hw, readLen_eq, htake,
    hextract, tx.length_hash, hmemset, Outcome.bind_ret, ne_eq, not_true_eq_false, if_false]
  rw [hashRest_eq hw hlt, Outcome.bind_ret, hashWitnesses_eq hfuel (by omega), Outcome.bind_ret,
    hashWitnesses_eq hfuel (by omega), List.append_assoc _ (List.take _ _),
    clearLock_eq hlock (Nat.min_le_left _ _), sighashStream, List.append_assoc tx.hash]
  rfl

/-- `generate_sighash_all` hashes the transaction hash, the first witness of the group
with its lock cleared, the other witnesses of the group and the witnesses behind the
inputs. -/
theorem generateSighashAll_hashes_stream {w : Bytes} {rest : List Bytes} {msgLen : ℕ}
    (env : Env) (hgroup : tx.groupWitnesses = w :: rest)
    (hlock : 20 + lockLength w ≤ min w.length 32768) (hmsg : 32 ≤ msgLen)
    (hstale : stale.length = 32768) (hfuel : Enough tx fuel) :
    sighashContext tx fuel stale msgLen =
        .ret (tx.hash ++ (leBytes 8 w.length ++ clearLock w (lockLength w)) ++
          rest.flatMap lengthed ++ (tx.witnesses.drop tx.inputs).flatMap lengthed) ∧
      generateSighashAll tx fuel stale env msgLen =
        .ret (env.hash.blake2b (sighashStream tx w)) := by
  have hcontext := sighashContext_eq hgroup hlock hmsg hstale hfuel
  refine ⟨hcontext.trans ?_, by rw [generateSighashAll, hcontext, Outcome.bind_ret]⟩
  rw [sighashStream, hgroup]
  rfl

/-! ## Two witnesses -/

/-- A lock of two bytes, with a table of offsets in front and a byte behind. -/
def shortLockWitness : Bytes :=
  [27, 0, 0, 0, 16, 0, 0, 0, 22, 0, 0, 0, 27, 0, 0, 0, 2, 0, 0, 0, 7, 8, 1, 0, 0, 0, 5]

theorem zeroHash_length : (List.replicate 32 (0 : UInt8)).length = blake2bBlockSize :=
  List.length_replicate

theorem soleInput_sorted : [0].Pairwise (· < ·) := List.pairwise_singleton _ _

theorem soleInput_lt : ∀ i ∈ [0], i < 1 := by decide

theorem shortLock_witnesses_fit : ∀ w ∈ [shortLockWitness, [9]], w.length < 2 ^ 64 := by decide

/-- One input, and a witness behind it. -/
def shortLockTransaction : Transaction where
  hash := List.replicate 32 0
  inputs := 1
  group := [0]
  witnesses := [shortLockWitness, [9]]
  length_hash := zeroHash_length
  group_sorted := soleInput_sorted
  group_lt := soleInput_lt
  length_witness := shortLock_witnesses_fit

theorem shortLock_enough : Enough shortLockTransaction 100 where
  count source := by cases source <;> decide
  length := by decide

/-! ### A witness of several batches -/

/-- The offsets of a witness of 40026 bytes, and the length of its lock. -/
def longHeader : Bytes :=
  [0x5a, 0x9c, 0, 0, 16, 0, 0, 0, 22, 0, 0, 0, 22, 0, 0, 0, 2, 0, 0, 0]

/-- Behind the lock is a field of 40000 bytes. -/
def longField : Bytes := [0x40, 0x9c, 0, 0] ++ List.replicate 40000 5

def longLockWitness : Bytes := longHeader ++ [7, 8] ++ longField

theorem length_longLockWitness : longLockWitness.length = 40026 := by
  rw [longLockWitness, longField, List.length_append, List.length_append, List.length_append,
    List.length_replicate]
  rfl

theorem longLock_witnesses_length : ∀ w ∈ [longLockWitness, [9]], w.length < 50000 := by
  refine List.forall_mem_cons.mpr ⟨?_, by decide⟩
  rw [length_longLockWitness]
  decide

theorem longLock_witnesses_fit : ∀ w ∈ [longLockWitness, [9]], w.length < 2 ^ 64 :=
  fun w hw ↦ (longLock_witnesses_length w hw).trans (by decide)

def longLockTransaction : Transaction where
  hash := List.replicate 32 0
  inputs := 2
  group := [0, 1]
  witnesses := [longLockWitness, [9]]
  length_hash := zeroHash_length
  group_sorted := by decide
  group_lt := by decide
  length_witness := longLock_witnesses_fit

theorem longLock_enough : Enough longLockTransaction 50000 where
  count source := by cases source <;> decide
  length := longLock_witnesses_length

theorem lockLength_longLockWitness : lockLength longLockWitness = 2 := by
  have hsize : (longLockWitness.drop 16).take 4 = [2, 0, 0, 0] := rfl
  rw [lockLength, hsize]
  rfl

theorem clearLock_longLockWitness :
    clearLock longLockWitness 2 = longHeader ++ [0, 0] ++ longField := by
  have hfront : (longHeader ++ [7, 8]).length = 20 + 2 := rfl
  have htake : longLockWitness.take 20 = longHeader := rfl
  rw [clearLock, htake, longLockWitness, List.drop_left' hfront]
  rfl

theorem longLock_hashed :
    sighashContext longLockTransaction 50000 (List.replicate 32768 0) 32 =
        .ret (List.replicate 32 0 ++ (leBytes 8 40026 ++ (longHeader ++ [0, 0] ++ longField)) ++
          [1, 0, 0, 0, 0, 0, 0, 0, 9]) := by
  have hlock : 20 + lockLength longLockWitness ≤ min longLockWitness.length 32768 := by
    rw [lockLength_longLockWitness, length_longLockWitness]
    decide
  have hcontext := (@generateSighashAll_hashes_stream longLockTransaction 50000
    (List.replicate 32768 0) longLockWitness [[9]] 32 KnownAnswers.empty.env rfl hlock le_rfl
    List.length_replicate longLock_enough).1
  have hother : [[(9 : UInt8)]].flatMap lengthed = [1, 0, 0, 0, 0, 0, 0, 0, 9] := rfl
  have hbehind : (longLockTransaction.witnesses.drop longLockTransaction.inputs).flatMap lengthed =
      [] := rfl
  rw [lockLength_longLockWitness, length_longLockWitness, clearLock_longLockWitness, hother,
    hbehind, List.append_nil] at hcontext
  exact hcontext

end CkbAuth
