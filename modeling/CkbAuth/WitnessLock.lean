import CkbAuth.DemosAgree

/-!
# Where the lock of a witness ends

`extract_witness_lock` is called twice, by `main` with the length of the witness and by
`generate_sighash_all` with the length of what is loaded of it.  The sum of 20 and the
length field is a `uint32_t`: a field of 2^32 - 20 or more passes both checks.
-/

namespace CkbAuth

open CRun

variable {tx : Transaction} {fuel len msgLen : ℕ} {source : Source} {w witness stale args : Bytes}
  {env : Env} {seg : Seg}

/-! ## One call -/

/-- The sum that is compared with `len` has wrapped around. -/
def LockWraps (witness : Bytes) (len : ℕ) : Prop :=
  20 ≤ len ∧ len < 20 + lockLength witness ∧ 2 ^ 32 ≤ 20 + lockLength witness

instance (witness : Bytes) (len : ℕ) : Decidable (LockWraps witness len) :=
  inferInstanceAs (Decidable (_ ∧ _ ∧ _))

theorem lockLength_lt (witness : Bytes) : lockLength witness < 2 ^ 32 := by
  have hlt := leToNat_lt ((witness.drop 16).take 4)
  have hlen : ((witness.drop 16).take 4).length ≤ 4 := List.length_take_le 4 _
  exact hlt.trans_le (Nat.pow_le_pow_right (by decide) hlen)

theorem extractWitnessLock_eq_ok_iff :
    extractWitnessLock witness len = .ok seg ↔
      seg = ⟨20, lockLength witness⟩ ∧ 20 ≤ len ∧
        (20 + lockLength witness ≤ len ∨ LockWraps witness len) := by
  have hlt := lockLength_lt witness
  rw [extractWitnessLock]
  by_cases hlen : len < 20
  · rw [if_pos hlen]
    refine iff_of_false ?_ fun h ↦ absurd h.2.1 (Nat.not_le.mpr hlen)
    rintro ⟨⟩
  rw [if_neg hlen, LockWraps]
  -- the sum wraps at most once, and is below 20 then
  have hsum : len < (20 + lockLength witness) % 2 ^ 32 ↔
      ¬(20 + lockLength witness ≤ len ∨ 2 ^ 32 ≤ 20 + lockLength witness) := by
    omega
  by_cases hmod : len < (20 + lockLength witness) % 2 ^ 32
  · rw [if_pos hmod]
    refine iff_of_false ?_ fun h ↦ hsum.mp hmod (h.2.2.imp_right fun hwraps ↦ hwraps.2.2)
    rintro ⟨⟩
  · rw [if_neg hmod]
    have hpassed := not_not.mp (mt hsum.mpr hmod)
    constructor
    · intro h
      exact ⟨(Except.ok.inj h).symm, by omega, by omega⟩
    · rintro ⟨rfl, -⟩
      rfl

theorem extractWitnessLock_within_iff :
    (∀ seg, extractWitnessLock witness len = .ok seg → seg.ptr + seg.size ≤ len) ↔
      ¬LockWraps witness len := by
  constructor
  · intro hwithin hwraps
    have hle := hwithin _ (extractWitnessLock_eq_ok_iff.mpr ⟨rfl, hwraps.1, .inr hwraps⟩)
    exact absurd hle (Nat.not_le.mpr hwraps.2.1)
  · intro hwraps seg hseg
    obtain ⟨rfl, -, hle | hpassed⟩ := extractWitnessLock_eq_ok_iff.mp hseg
    · exact hle
    · exact absurd hpassed hwraps

/-! ## The two callers -/

/-- The segment that either caller gets, which loads up to 32768 bytes. -/
theorem extractWitnessLock_loaded_iff (stale : Bytes) (hlen : len ≤ w.length) :
    extractWitnessLock (overwrite stale (w.take maxWitnessSize)) len = .ok seg ↔
      seg = ⟨20, lockLength w⟩ ∧ 20 ≤ len ∧ (20 + lockLength w ≤ len ∨ LockWraps w len) := by
  rw [extractWitnessLock_eq_ok_iff, LockWraps]
  by_cases h20 : 20 ≤ len
  · rw [lockLength_overwrite (by decide) (h20.trans hlen), LockWraps]
  · exact iff_of_false (fun h ↦ h20 h.2.1) fun h ↦ h20 h.2.1

theorem lockWraps_length (h : LockWraps w (min w.length 32768)) :
    20 + lockLength w ≤ w.length ∨ LockWraps w w.length := by
  by_cases hle : 20 + lockLength w ≤ w.length
  · exact .inl hle
  · exact .inr ⟨h.1.trans (Nat.min_le_left _ _), Nat.not_le.mp hle, h.2.2⟩

theorem memset_within {temp : Bytes} (hseg : seg.ptr + seg.size ≤ len) (hlen : len ≤ temp.length) :
    ∃ temp', memset temp seg = .ret temp' ∧ temp'.length = temp.length ∧
      temp'.take seg.ptr = temp.take seg.ptr ∧ temp'.drop len = temp.drop len := by
  have hhead : (temp.take seg.ptr).length = seg.ptr := by
    rw [List.length_take]
    omega
  have hcleared : (temp.take seg.ptr ++ List.replicate seg.size 0).length = seg.ptr + seg.size := by
    rw [List.length_append, hhead, List.length_replicate]
  refine ⟨_, if_pos (hseg.trans hlen), ?_, ?_, ?_⟩
  · rw [List.length_append, hcleared, List.length_drop]
    omega
  · rw [List.append_assoc, List.take_left' hhead]
  · obtain ⟨k, rfl⟩ := Nat.exists_eq_add_of_le hseg
    rw [← List.drop_drop, List.drop_left' hcleared, List.drop_drop]

/-! ### No other access faults -/

theorem hashBatches_ne_fault {start index n : ℕ} : ∀ {temp : Bytes} {offset : ℕ} {ctx : Bytes},
    hashBatches tx start index source len n temp offset ctx ≠ .fault := by
  induction n with
  | zero => rintro _ _ _ ⟨⟩
  | succ n ih =>
      intro temp offset ctx
      rw [hashBatches]
      by_cases hlt : offset < len
      · rw [if_pos hlt]
        cases ckbLoadWitness tx temp oneBatchSize (start + offset) index source with
        | error ret => rintro ⟨⟩
        | ok loaded => exact ih
      · rw [if_neg hlt]
        rintro ⟨⟩

theorem loadAndHashWitness_ne_fault {ctx : Bytes} {start index : ℕ} {hashLength : Bool} :
    loadAndHashWitness tx fuel stale ctx start index source hashLength ≠ .fault := by
  rw [loadAndHashWitness]
  cases ckbLoadWitness tx stale oneBatchSize start index source with
  | error ret => rintro ⟨⟩
  | ok loaded => exact hashBatches_ne_fault

theorem hashWitnesses_ne_fault {n : ℕ} : ∀ {i : ℕ} {ctx : Bytes},
    hashWitnesses tx fuel stale source n i ctx ≠ .fault := by
  induction n with
  | zero => rintro _ _ ⟨⟩
  | succ n ih =>
      intro i ctx
      rw [hashWitnesses]
      refine Outcome.bind_ne_fault loadAndHashWitness_ne_fault ?_
      rintro ⟨ret, ctx⟩ -
      dsimp only
      split
      · rintro ⟨⟩
      · split
        · rintro ⟨⟩
        · exact ih

theorem hashRest_ne_fault {ctx : Bytes} {readLen witnessLen : ℕ} :
    ((if readLen < witnessLen then
        (loadAndHashWitness tx fuel stale ctx readLen 0 .groupInput false).bind
          fun x ↦ if x.1 ≠ ckbSuccess then .fail ckbInvalidData else .ret x.2
      else .ret ctx).bind fun ctx ↦
      (hashWitnesses tx fuel stale .groupInput fuel 1 ctx).bind fun ctx ↦
      hashWitnesses tx fuel stale .input fuel tx.inputs ctx) ≠ .fault := by
  refine Outcome.bind_ne_fault ?_ fun _ _ ↦
    Outcome.bind_ne_fault hashWitnesses_ne_fault fun _ _ ↦ hashWitnesses_ne_fault
  split
  · refine Outcome.bind_ne_fault loadAndHashWitness_ne_fault fun x _ ↦ ?_
    split
    · rintro ⟨⟩
    · rintro ⟨⟩
  · rintro ⟨⟩

/-! ### `generate_sighash_all` -/

theorem sighashContext_ne_fault (hw : tx.witness .groupInput 0 = some w)
    (hstale : stale.length = 32768) (h : ¬LockWraps w (min w.length 32768)) :
    sighashContext tx fuel stale msgLen ≠ .fault := by
  cases hseg : extractWitnessLock (overwrite stale (w.take maxWitnessSize))
      (min w.length 32768) with
  | error e =>
      rw [sighashContext_rejected hw hseg]
      rintro ⟨⟩
  | ok seg =>
      rw [sighashContext, ckbLoadWitness_zero hw]
      simp only [readLen_eq, hseg]
      split
      · rintro ⟨⟩
      rw [if_neg (not_not_intro tx.length_hash)]
      refine Outcome.bind_ne_fault ?_ fun _ _ ↦ hashRest_ne_fault
      obtain ⟨rfl, -, hle | hwraps⟩ :=
        (extractWitnessLock_loaded_iff stale (Nat.min_le_left _ _)).mp hseg
      · rw [memset, length_loaded hstale, if_pos (hle.trans (Nat.min_le_right _ _))]
        rintro ⟨⟩
      · exact absurd hwraps h

theorem lock_le_of_sighashContext {ctx : Bytes} (hw : tx.witness .groupInput 0 = some w)
    (h : ¬LockWraps w (min w.length 32768))
    (hctx : sighashContext tx fuel stale msgLen = .ret ctx) :
    20 + lockLength w ≤ min w.length 32768 := by
  cases hseg : extractWitnessLock (overwrite stale (w.take maxWitnessSize))
      (min w.length 32768) with
  | error e =>
      rw [sighashContext_rejected hw hseg] at hctx
      cases hctx
  | ok seg =>
      have hloaded := (extractWitnessLock_loaded_iff stale (Nat.min_le_left _ _)).mp hseg
      exact hloaded.2.2.resolve_right h

theorem sighashContext_wrapped (hw : tx.witness .groupInput 0 = some w)
    (hstale : stale.length = 32768) (hmsg : 32 ≤ msgLen)
    (h : LockWraps w (min w.length 32768)) :
    sighashContext tx fuel stale msgLen = .fault := by
  have hseg := (extractWitnessLock_loaded_iff stale (Nat.min_le_left _ _)).mpr
    ⟨rfl, h.1, .inr h⟩
  have hmsg' : ¬msgLen < blake2bBlockSize := Nat.not_lt.mpr hmsg
  rw [sighashContext, if_neg hmsg', ckbLoadWitness_zero hw]
  simp only [readLen_eq, hseg]
  rw [if_neg (not_not_intro tx.length_hash), memset, length_loaded hstale,
    if_neg (Nat.not_le.mpr ((show 32768 < 2 ^ 32 by decide).trans_le h.2.2))]
  rfl

/-! ### `main` -/

theorem Demo.main_cases (hw : tx.witness .groupInput 0 = some w) :
    Demo.main env tx fuel args stale = .fail ckbInvalidData ∨
      args.length = 55 ∧ ∃ seg,
        extractWitnessLock (overwrite stale (w.take maxWitnessSize)) w.length = .ok seg := by
  by_cases hargs : args.length = 55
  · cases hseg : extractWitnessLock (overwrite stale (w.take maxWitnessSize)) w.length with
    | error e =>
        left
        rw [Demo.main, if_neg (not_not_intro hargs), ckbLoadWitness_zero hw]
        simp only [hseg]
    | ok seg => exact .inr ⟨hargs, seg, rfl⟩
  · exact .inl (if_pos hargs)

theorem Demo.main_ne_fault (hw : tx.witness .groupInput 0 = some w)
    (hstale : stale.length = 32768) (h : ¬LockWraps w (min w.length 32768)) :
    Demo.main env tx fuel args stale ≠ .fault := by
  rcases Demo.main_cases hw with hfail | ⟨hargs, seg, hseg⟩
  · rw [hfail]
    rintro ⟨⟩
  · rw [Demo.main_extracted hw hargs hseg]
    refine Outcome.bind_ne_fault (Outcome.mapFail_ne_fault ?_) ?_
    · refine Outcome.bind_ne_fault (sighashContext_ne_fault hw hstale h) ?_
      rintro _ - ⟨⟩
    · intro msg32 hmsg
      obtain ⟨ctx, hctx, -⟩ := Outcome.bind_eq_ret_iff.mp (Outcome.mapFail_eq_ret_iff.mp hmsg)
      obtain ⟨rfl, -⟩ := (extractWitnessLock_loaded_iff stale (Nat.le_refl _)).mp hseg
      rw [read_loaded hstale (lock_le_of_sighashContext hw h hctx)]
      rintro ⟨⟩

theorem Demo.main_signature {call : AuthCall} (hw : tx.witness .groupInput 0 = some w)
    (hstale : stale.length = 32768) (h : ¬LockWraps w (min w.length 32768))
    (hcall : Demo.main env tx fuel args stale = .ret call) :
    20 + lockLength w ≤ min w.length 32768 ∧ call.signature = (w.drop 20).take (lockLength w) := by
  rcases Demo.main_cases hw with hfail | ⟨hargs, seg, hseg⟩
  · rw [hfail] at hcall
    cases hcall
  · rw [Demo.main_extracted hw hargs hseg, Outcome.bind_eq_ret_iff] at hcall
    obtain ⟨msg32, hmsg, hcall⟩ := hcall
    obtain ⟨ctx, hctx, -⟩ := Outcome.bind_eq_ret_iff.mp (Outcome.mapFail_eq_ret_iff.mp hmsg)
    have hle := lock_le_of_sighashContext hw h hctx
    obtain ⟨rfl, -⟩ := (extractWitnessLock_loaded_iff stale (Nat.le_refl _)).mp hseg
    rw [read_loaded hstale hle, Outcome.bind_ret] at hcall
    cases hcall
    exact ⟨hle, rfl⟩

theorem Demo.main_wrapped (hw : tx.witness .groupInput 0 = some w) (hargs : args.length = 55)
    (hstale : stale.length = 32768) (h : LockWraps w (min w.length 32768)) :
    Demo.main env tx fuel args stale = .fault := by
  have hseg := (extractWitnessLock_loaded_iff stale (Nat.le_refl w.length)).mpr
    ⟨rfl, h.1.trans (Nat.min_le_left _ _), lockWraps_length h⟩
  rw [Demo.main_extracted hw hargs hseg, generateSighashAll,
    sighashContext_wrapped hw hstale (Nat.le_refl 32) h]
  rfl

/-! ## What the lock is used for -/

/-- The lock of the first witness `w` is within what each caller passes, the `memset` changes
nothing but loaded bytes of it, and the signature is a part of it. -/
structure LockWithin (env : Env) (tx : Transaction) (fuel : ℕ) (args stale : Bytes) (msgLen : ℕ)
    (w : Bytes) : Prop where
  extracted : ∀ len ∈ [min w.length 32768, w.length], ∀ seg,
    extractWitnessLock (overwrite stale (w.take maxWitnessSize)) len = .ok seg →
      seg.ptr + seg.size ≤ len
  cleared : ∀ seg,
    extractWitnessLock (overwrite stale (w.take maxWitnessSize)) (min w.length 32768) = .ok seg →
      ∃ temp, memset (overwrite stale (w.take maxWitnessSize)) seg = .ret temp ∧
        temp.length = (overwrite stale (w.take maxWitnessSize)).length ∧
        temp.take 20 = (overwrite stale (w.take maxWitnessSize)).take 20 ∧
        temp.drop (min w.length 32768) =
          (overwrite stale (w.take maxWitnessSize)).drop (min w.length 32768)
  hashed : sighashContext tx fuel stale msgLen ≠ .fault
  passed : Demo.main env tx fuel args stale ≠ .fault
  signature : ∀ call, Demo.main env tx fuel args stale = .ret call →
    ∃ size, 20 + size ≤ min w.length 32768 ∧ call.signature = (w.drop 20).take size

theorem LockWraps.capped (h : LockWraps w w.length) : LockWraps w (min w.length 32768) := by
  have h20 := h.1
  have hsum := h.2.2
  exact ⟨by omega, by omega, hsum⟩

/-- One call of `extract_witness_lock` yields a segment within `len` unless its sum wraps
around, and the demo keeps to the witness unless the sum does for what is loaded of it: that
is, unless the witness has 20 bytes and a length field of at least 2^32 - 20. -/
theorem witnessLock_within_iff (hw : tx.witness .groupInput 0 = some w)
    (hstale : stale.length = 32768) :
    (∀ (witness : Bytes) (len : ℕ),
      (∀ seg, extractWitnessLock witness len = .ok seg → seg.ptr + seg.size ≤ len) ↔
        ¬LockWraps witness len) ∧
    (LockWithin env tx fuel args stale msgLen w ↔
      ¬(20 ≤ w.length ∧ 2 ^ 32 ≤ 20 + lockLength w)) := by
  have hcapped : LockWraps w (min w.length 32768) ↔
      20 ≤ w.length ∧ 2 ^ 32 ≤ 20 + lockLength w := by
    rw [LockWraps]
    omega
  refine ⟨fun _ _ ↦ extractWitnessLock_within_iff, ?_⟩
  rw [← hcapped]
  constructor
  · intro hwithin hwraps
    have hle := hwithin.extracted _ List.mem_cons_self _
      ((extractWitnessLock_loaded_iff stale (Nat.min_le_left _ _)).mpr ⟨rfl, hwraps.1, .inr hwraps⟩)
    exact absurd hle (Nat.not_le.mpr hwraps.2.1)
  · intro hwraps
    have hcap : min w.length 32768 ≤ (overwrite stale (w.take maxWitnessSize)).length := by
      rw [length_loaded hstale]
      exact Nat.min_le_right _ _
    have hextracted : ∀ len ≤ w.length, ¬LockWraps w len → ∀ seg,
        extractWitnessLock (overwrite stale (w.take maxWitnessSize)) len = .ok seg →
          seg.ptr = 20 ∧ seg.ptr + seg.size ≤ len := by
      intro len hlen hnot seg hseg
      obtain ⟨rfl, -, hle | h⟩ := (extractWitnessLock_loaded_iff stale hlen).mp hseg
      · exact ⟨rfl, hle⟩
      · exact absurd h hnot
    refine ⟨?_, ?_, sighashContext_ne_fault hw hstale hwraps, Demo.main_ne_fault hw hstale hwraps,
      fun call hcall ↦ ⟨_, Demo.main_signature hw hstale hwraps hcall⟩⟩
    · intro len hlen seg hseg
      rcases List.mem_pair.mp hlen with rfl | rfl
      · exact (hextracted _ (Nat.min_le_left _ _) hwraps seg hseg).2
      · exact (hextracted _ (Nat.le_refl _) (mt LockWraps.capped hwraps) seg hseg).2
    · intro seg hseg
      obtain ⟨hptr, hle⟩ := hextracted _ (Nat.min_le_left _ _) hwraps seg hseg
      obtain ⟨temp, hmemset, hlen, htake, hdrop⟩ := memset_within hle hcap
      rw [hptr] at htake
      exact ⟨temp, hmemset, hlen, htake, hdrop⟩

/-! ## A lock of almost 2^32 bytes -/

theorem shortLock_within :
    LockWithin KnownAnswers.empty.env shortLockTransaction 100 ckbArgs
      (List.replicate 32768 0) 32 shortLockWitness :=
  ((witnessLock_within_iff rfl List.length_replicate).2).mpr (by decide)

/-- 20 bytes, the last four of them the length of the lock. -/
def wrappedLockWitness : Bytes :=
  [20, 0, 0, 0, 16, 0, 0, 0, 20, 0, 0, 0, 20, 0, 0, 0, 255, 255, 255, 255]

theorem wrappedLock_witnesses_fit : ∀ w ∈ [wrappedLockWitness], w.length < 2 ^ 64 := by decide

def wrappedLockTransaction : Transaction where
  hash := List.replicate 32 0
  inputs := 1
  group := [0]
  witnesses := [wrappedLockWitness]
  length_hash := zeroHash_length
  group_sorted := soleInput_sorted
  group_lt := soleInput_lt
  length_witness := wrappedLock_witnesses_fit

/-- The segment is accepted although it ends 2^32 - 1 bytes behind the witness, and the
`memset` runs out of the buffer. -/
theorem wrappedLock_faults :
    extractWitnessLock wrappedLockWitness wrappedLockWitness.length = .ok ⟨20, 2 ^ 32 - 1⟩ ∧
      ¬20 + (2 ^ 32 - 1) ≤ wrappedLockWitness.length ∧
      sighashContext wrappedLockTransaction 100 (List.replicate 32768 0) 32 = .fault ∧
      Demo.main KnownAnswers.empty.env wrappedLockTransaction 100 ckbArgs
        (List.replicate 32768 0) = .fault := by
  have hwraps : LockWraps wrappedLockWitness (min wrappedLockWitness.length 32768) := by decide
  have hw : wrappedLockTransaction.witness .groupInput 0 = some wrappedLockWitness := rfl
  refine ⟨by decide, by decide, ?_, ?_⟩
  · exact sighashContext_wrapped hw List.length_replicate (Nat.le_refl 32) hwraps
  · exact Demo.main_wrapped hw rfl List.length_replicate hwraps

end CkbAuth
