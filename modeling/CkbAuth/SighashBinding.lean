import CkbAuth.Lib.Framing
import CkbAuth.SighashSpec

/-!
# What a message binds

Two transactions give `generate_sighash_all` the same stream exactly if they have one hash,
their first witnesses differ in their locks only, and all further witnesses are the same.
-/

namespace CkbAuth

open CRun Framing

variable {tx tx' : Transaction} {fuel fuel' msgLen msgLen' : ℕ} {stale stale' w w' : Bytes}

/-- What `generate_sighash_all` needs of a transaction whose first witness of the group is
`w`, and of what it is called with. -/
structure Signable (tx : Transaction) (w : Bytes) (fuel : ℕ) (stale : Bytes) (msgLen : ℕ) :
    Prop where
  group : ∃ rest, tx.groupWitnesses = w :: rest
  lock : 20 + lockLength w ≤ min w.length 32768
  message : 32 ≤ msgLen
  stale : stale.length = 32768
  fuel : Enough tx fuel

theorem Signable.context (h : Signable tx w fuel stale msgLen) :
    sighashContext tx fuel stale msgLen = .ret (sighashStream tx w) := by
  obtain ⟨rest, hgroup⟩ := h.group
  exact sighashContext_eq hgroup h.lock h.message h.stale h.fuel

theorem Signable.lock_le (h : Signable tx w fuel stale msgLen) :
    20 + lockLength w ≤ w.length :=
  h.lock.trans (Nat.min_le_left _ _)

theorem Signable.length_lt (h : Signable tx w fuel stale msgLen) : w.length < 2 ^ 64 := by
  obtain ⟨rest, hgroup⟩ := h.group
  refine tx.length_witness w (@mem_witnesses tx .groupInput w ?_)
  rw [Transaction.shown, hgroup]
  exact List.mem_cons_self

/-! ## The first witness -/

/-- Two witnesses that differ in their locks only. -/
structure SameOutsideLock (w w' : Bytes) : Prop where
  length : w.length = w'.length
  outside : ∀ i, i < 20 ∨ 20 + lockLength w ≤ i → w[i]? = w'[i]?

theorem take_eq_of_getElem? {n : ℕ} (h : ∀ i < n, w[i]? = w'[i]?) : w.take n = w'.take n := by
  refine List.ext_getElem? fun i ↦ ?_
  by_cases hi : i < n
  · rw [List.getElem?_take_of_lt hi, List.getElem?_take_of_lt hi, h i hi]
  · rw [List.getElem?_eq_none (by rw [List.length_take]; omega),
      List.getElem?_eq_none (by rw [List.length_take]; omega)]

theorem drop_eq_of_getElem? {n : ℕ} (h : ∀ i, n ≤ i → w[i]? = w'[i]?) :
    w.drop n = w'.drop n := by
  refine List.ext_getElem? fun i ↦ ?_
  rw [List.getElem?_drop, List.getElem?_drop, h (n + i) (Nat.le_add_right n i)]

/-- The length of the lock stands in the bytes in front of it. -/
theorem lockLength_congr (h : w.take 20 = w'.take 20) : lockLength w = lockLength w' := by
  have hslice (v : Bytes) : (v.drop 16).take 4 = (v.take 20).drop 16 := by
    rw [List.drop_take]
  rw [lockLength, lockLength, hslice, hslice, h]

theorem length_clearLock (h : 20 + lockLength w ≤ w.length) :
    (clearLock w (lockLength w)).length = w.length := by
  rw [clearLock, List.length_append, List.length_append, List.length_replicate,
    List.length_drop, List.length_take]
  omega

theorem clearLock_eq_iff (h : 20 + lockLength w ≤ w.length)
    (h' : 20 + lockLength w' ≤ w'.length) :
    clearLock w (lockLength w) = clearLock w' (lockLength w') ↔ SameOutsideLock w w' := by
  have hfront : (w.take 20).length = 20 := List.length_take_of_le (by omega)
  have hfront' : (w'.take 20).length = 20 := List.length_take_of_le (by omega)
  constructor
  · intro heq
    have hlen : w.length = w'.length := by
      rw [← length_clearLock h, heq, length_clearLock h']
    rw [clearLock, clearLock, List.append_assoc, List.append_assoc] at heq
    obtain ⟨htake, hrest⟩ := List.append_inj heq (hfront.trans hfront'.symm)
    rw [← lockLength_congr htake] at hrest
    have hdrop := List.append_cancel_left hrest
    refine ⟨hlen, fun i hi ↦ ?_⟩
    rcases hi with hi | hi
    · rw [← List.getElem?_take_of_lt hi, htake, List.getElem?_take_of_lt hi]
    · obtain ⟨j, rfl⟩ := Nat.exists_eq_add_of_le hi
      rw [← List.getElem?_drop, hdrop, List.getElem?_drop]
  · intro hsame
    have htake := take_eq_of_getElem? fun i hi ↦ hsame.outside i (.inl hi)
    have hdrop := drop_eq_of_getElem? fun i hi ↦ hsame.outside i (.inr hi)
    rw [clearLock, clearLock, htake, hdrop, lockLength_congr htake]

/-! ## The stream -/

theorem words_leBytes : Words (leBytes 8) 8 (2 ^ 64) where
  length := length_leBytes 8
  inj hn hk := leBytes_injOn hn hk

/-- What two transactions have in common that a signature for one of them signs the other. -/
structure SameSigned (tx tx' : Transaction) (w w' : Bytes) : Prop where
  hash : tx.hash = tx'.hash
  first : SameOutsideLock w w'
  others : tx.groupWitnesses.drop 1 ++ tx.witnesses.drop tx.inputs =
    tx'.groupWitnesses.drop 1 ++ tx'.witnesses.drop tx'.inputs

theorem length_others (tx : Transaction) :
    ∀ v ∈ tx.groupWitnesses.drop 1 ++ tx.witnesses.drop tx.inputs, v.length < 2 ^ 64 := by
  intro v hv
  rcases List.mem_append.mp hv with hv | hv
  · exact tx.length_witness v (@mem_witnesses tx .groupInput v (List.mem_of_mem_drop hv))
  · exact tx.length_witness v (List.mem_of_mem_drop hv)

theorem sighashStream_eq (tx : Transaction) (hw : 20 + lockLength w ≤ w.length) :
    sighashStream tx w = tx.hash ++ (frame (leBytes 8) (clearLock w (lockLength w)) ++
      (tx.groupWitnesses.drop 1 ++ tx.witnesses.drop tx.inputs).flatMap (frame (leBytes 8))) := by
  rw [sighashStream, List.append_assoc, List.append_assoc, ← List.flatMap_append, frame,
    length_clearLock hw]
  rfl

theorem sighashStream_eq_iff (hw : 20 + lockLength w ≤ w.length) (hlt : w.length < 2 ^ 64)
    (hw' : 20 + lockLength w' ≤ w'.length) (hlt' : w'.length < 2 ^ 64) :
    sighashStream tx w = sighashStream tx' w' ↔ SameSigned tx tx' w w' := by
  rw [sighashStream_eq tx hw, sighashStream_eq tx' hw']
  constructor
  · intro heq
    obtain ⟨hhash, heq⟩ := List.append_inj heq (tx.length_hash.trans tx'.length_hash.symm)
    obtain ⟨hfirst, hothers⟩ := frame_append_inj words_leBytes
      ((length_clearLock hw).trans_lt hlt) ((length_clearLock hw').trans_lt hlt') heq
    exact ⟨hhash, (clearLock_eq_iff hw hw').mp hfirst,
      flatMap_frame_inj words_leBytes (by decide) (length_others tx) (length_others tx') hothers⟩
  · intro hsame
    rw [hsame.hash, (clearLock_eq_iff hw hw').mpr hsame.first, hsame.others]

/-- `generate_sighash_all` hashes one stream for two transactions if and only if they agree
in all that is signed, the number and the lengths of the witnesses included.  So two of them
share a message only then, or where two streams collide under blake2b. -/
theorem sighash_binds (h : Signable tx w fuel stale msgLen)
    (h' : Signable tx' w' fuel' stale' msgLen') :
    (sighashContext tx fuel stale msgLen = sighashContext tx' fuel' stale' msgLen' ↔
      SameSigned tx tx' w w') ∧
    ∀ env : Env, generateSighashAll tx fuel stale env msgLen =
        generateSighashAll tx' fuel' stale' env msgLen' ↔
      SameSigned tx tx' w w' ∨ (sighashStream tx w ≠ sighashStream tx' w' ∧
        env.hash.blake2b (sighashStream tx w) = env.hash.blake2b (sighashStream tx' w')) := by
  have hstream := @sighashStream_eq_iff tx tx' w w' h.lock_le h.length_lt h'.lock_le h'.length_lt
  refine ⟨?_, fun env ↦ ?_⟩
  · rw [h.context, h'.context, Outcome.ret.injEq, hstream]
  · rw [generateSighashAll, generateSighashAll, h.context, h'.context, Outcome.bind_ret,
      Outcome.bind_ret, Outcome.ret.injEq]
    constructor
    · intro hdigest
      by_cases hsame : sighashStream tx w = sighashStream tx' w'
      · exact .inl (hstream.mp hsame)
      · exact .inr ⟨hsame, hdigest⟩
    · rintro (hsame | ⟨-, hdigest⟩)
      · rw [hstream.mpr hsame]
      · exact hdigest

/-! ## Two locks -/

/-- The witness `shortLockWitness` with another lock. -/
def otherLockWitness : Bytes :=
  [27, 0, 0, 0, 16, 0, 0, 0, 22, 0, 0, 0, 27, 0, 0, 0, 2, 0, 0, 0, 9, 9, 1, 0, 0, 0, 5]

theorem otherLock_witnesses_fit : ∀ w ∈ [otherLockWitness, [9]], w.length < 2 ^ 64 := by decide

def otherLockTransaction : Transaction :=
  { shortLockTransaction with
    witnesses := [otherLockWitness, [9]]
    length_witness := otherLock_witnesses_fit }

theorem otherLock_enough : Enough otherLockTransaction 100 where
  count source := by cases source <;> decide
  length := by decide

theorem shortLock_signable :
    Signable shortLockTransaction shortLockWitness 100 (List.replicate 32768 0) 32 where
  group := ⟨[], rfl⟩
  lock := by decide
  message := le_rfl
  stale := List.length_replicate
  fuel := shortLock_enough

theorem otherLock_signable :
    Signable otherLockTransaction otherLockWitness 100 (List.replicate 32768 1) 32 where
  group := ⟨[], rfl⟩
  lock := by decide
  message := le_rfl
  stale := List.length_replicate
  fuel := otherLock_enough

theorem locks_same_stream :
    sighashContext shortLockTransaction 100 (List.replicate 32768 0) 32 =
      sighashContext otherLockTransaction 100 (List.replicate 32768 1) 32 :=
  (sighash_binds shortLock_signable otherLock_signable).1.mpr
    ⟨rfl, (clearLock_eq_iff (by decide) (by decide)).mp (by decide), rfl⟩

end CkbAuth
