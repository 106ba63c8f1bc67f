import CkbAuth.SignTxSpec

/-!
# The message of the spawn tests

`generate_sighash_all` of `tests/auth_spawn_rust/src/lib.rs`, a second signing side: it
collects the group of an input by itself, keeps the size of the lock that is there, and takes
the number of outputs to be the number of witnesses.
-/

namespace CkbAuth.SpawnTx

open CkbAuth Molecule SignTx CRun Framing

/-- What is read of a `ReprMockTransaction`: the transaction, and the locks of the mocked
inputs. -/
structure ReprMockTransaction where
  hash : Bytes
  inputs : ℕ
  outputs : ℕ
  witnesses : List Bytes
  locks : List Bytes

variable (tx : ReprMockTransaction)

/-- `get_group`; an index out of range panics. -/
def getGroup (index : ℕ) : Result (List ℕ) := do
  let lock ← unwrap tx.locks[index]?
  return (List.range tx.locks.length).filter fun i ↦ tx.locks[i]? = some lock

/-- `witness.lock().to_opt().unwrap().len()` -/
def lockLen [MoleculeCrate] (witness : Bytes) : Result ℕ := do
  let lock ← field 3 0 witness
  let data ← unwrap (if lock.length = 0 then none else some lock)
  unpackNumber data

/-- The witness for the digest: its lock is replaced by zeros of the same size. -/
def zeroLock [MoleculeCrate] (witness : Bytes) : Result Bytes := do
  let len ← lockLen witness
  let inputType ← field 3 1 witness
  let outputType ← field 3 2 witness
  return writeTable [bytesSlice (List.replicate len 0), inputType, outputType]

/-- What `generate_sighash_all` feeds to blake2b. -/
def digestStream [MoleculeCrate] (index : ℕ) : Result Bytes := do
  let lockIndexs ← getGroup tx index
  let first ← unwrap lockIndexs.head?
  let witness ← unwrap tx.witnesses[first]?
  let witnessData ← zeroLock witness
  let group ← (lockIndexs.drop 1).mapM fun i ↦ unwrap tx.witnesses[i]?
  let normalWitnessLen := max tx.inputs tx.outputs
  let normal ← (List.range' tx.inputs (normalWitnessLen - tx.inputs)).mapM fun i ↦
    unwrap tx.witnesses[i]?
  return tx.hash ++ lengthed witnessData ++ group.flatMap lengthed ++ normal.flatMap lengthed

def generateSighashAll [MoleculeCrate] (blake2b : Bytes → Bytes) (index : ℕ) : Result Bytes :=
  (digestStream tx index).map blake2b

/-! ## Groups -/

variable {tx} {wa : WitnessArgs} {lock : Bytes} {index : ℕ}

theorem pairwise_lt_ext {l k : List ℕ} (hl : l.Pairwise (· < ·)) (hk : k.Pairwise (· < ·))
    (h : ∀ i, i ∈ l ↔ i ∈ k) : l = k := by
  have hperm : l.Perm k := (List.perm_ext_iff_of_nodup (hl.imp ne_of_lt) (hk.imp ne_of_lt)).mpr h
  exact hperm.eq_of_pairwise (fun _ _ _ _ hab hba ↦ absurd hab hba.asymm) hl hk

/-- The inputs with the lock of one of them, in order, are its group. -/
theorem getGroup_eq {group : List ℕ} (hindex : index < tx.locks.length)
    (hsorted : group.Pairwise (· < ·))
    (hgroup : ∀ i, i ∈ group ↔ i < tx.locks.length ∧ tx.locks[i]? = tx.locks[index]?) :
    getGroup tx index = .ok group := by
  have hat := List.getElem?_eq_getElem hindex
  rw [getGroup, hat, unwrap, ok_bind]
  refine congrArg Except.ok (pairwise_lt_ext (.filter _ List.pairwise_lt_range) hsorted fun i ↦ ?_)
  rw [List.mem_filter, List.mem_range, decide_eq_true_eq, hgroup, hat]

/-! ## The lock -/

theorem lockFits_lock (hlock : wa.lock = some lock) : LockFits wa lock.length := by
  have hlt := wa.length_asSlice_lt
  rwa [WitnessArgs.length_asSlice hlock] at hlt

theorem withLock_lock (hlock : wa.lock = some lock) :
    withLock wa lock (lockFits_lock hlock) = wa := by
  cases wa
  cases hlock
  rfl

theorem lockLen_asSlice [MoleculeCrate] (hlock : wa.lock = some lock) :
    lockLen wa.asSlice = .ok lock.length := by
  have hlt := lockFits_lock hlock
  have hfield : field 3 0 wa.asSlice = .ok (leBytes 4 lock.length ++ lock) := by
    have hopt : (fieldsOf wa).get ⟨0, Nat.succ_pos 2⟩ = leBytes 4 lock.length ++ lock :=
      congrArg bytesOpt hlock
    rw [field_asSlice wa (Nat.succ_pos 2), hopt]
  have hnumber : (leBytes 4 lock.length).length = 4 := length_leBytes 4 _
  have hlen : (leBytes 4 lock.length ++ lock).length = 4 + lock.length := by
    rw [List.length_append, hnumber]
  rw [LockFits] at hlt
  rw [lockLen, hfield, ok_bind, if_neg (by omega), unwrap, ok_bind,
    unpackNumber_of_le (by omega), List.take_left' hnumber, leToNat_leBytes_four (by omega)]

theorem zeroLock_asSlice [MoleculeCrate] (hlock : wa.lock = some lock) :
    zeroLock wa.asSlice = .ok (zeroLocked wa lock.length (lockFits_lock hlock)).asSlice := by
  rw [zeroLock, lockLen_asSlice hlock, ok_bind, field_asSlice wa (Nat.le_add_left 2 1),
    field_asSlice wa (Nat.lt_succ_self 2), asSlice_eq_writeTable, bytesSlice_eq_bytesOpt]
  rfl

/-! ## Witnesses -/

/-- Witnesses by index, all of them there. -/
theorem mapM_unwrap_eq {ws : List Bytes} : ∀ {l : List ℕ}, (∀ i ∈ l, i < ws.length) →
    l.mapM (fun i ↦ unwrap ws[i]?) = .ok (l.filterMap fun i ↦ ws[i]?)
  | [], _ => rfl
  | i :: l, h => by
      obtain ⟨hi, hl⟩ := List.forall_mem_cons.mp h
      have hat := List.getElem?_eq_getElem hi
      rw [List.mapM_cons, hat, unwrap, ok_bind, mapM_unwrap_eq hl, ok_bind,
        List.filterMap_cons_some hat]
      rfl

theorem mapM_unwrap_missing {ws : List Bytes} : ∀ {l : List ℕ}, (∃ i ∈ l, ws.length ≤ i) →
    l.mapM (fun i ↦ unwrap ws[i]?) = .error .panic
  | i :: l, h => by
      rw [List.mapM_cons]
      by_cases hi : i < ws.length
      · obtain ⟨j, hj, hlen⟩ := h
        rcases List.mem_cons.mp hj with rfl | hj
        · exact absurd hi (Nat.not_lt.mpr hlen)
        · rw [List.getElem?_eq_getElem hi, unwrap, ok_bind, mapM_unwrap_missing ⟨j, hj, hlen⟩]
          rfl
      · rw [List.getElem?_eq_none (Nat.not_lt.mp hi)]
        rfl

/-- The witnesses behind the inputs that are taken: a panic if one of them is missing. -/
theorem normal_eq (ws : List Bytes) (n k : ℕ) :
    (List.range' n (k - n)).mapM (fun i ↦ unwrap ws[i]?) =
      if k ≤ max n ws.length then .ok ((ws.drop n).take (k - n)) else .error .panic := by
  by_cases hk : k ≤ max n ws.length
  · rw [if_pos hk]
    by_cases hn : k ≤ n
    · rw [Nat.sub_eq_zero_of_le hn, List.take_zero]
      rfl
    · exact mapM_unwrap (by omega)
  · rw [if_neg hk]
    refine mapM_unwrap_missing ⟨k - 1, List.mem_range'_1.mpr ?_, ?_⟩ <;> omega

/-! ## Agreement -/

section Agreement

variable {chain : Transaction}

/-- The stream that is hashed for the message, wherever the group has its witnesses. -/
theorem digestStream_eq [MoleculeCrate] {first : ℕ} {more : List ℕ}
    (hgroup : getGroup tx index = .ok (first :: more)) (hw : tx.witnesses[first]? = some wa.asSlice)
    (hlock : wa.lock = some lock) (hmore : ∀ i ∈ more, i < tx.witnesses.length) :
    digestStream tx index =
      if max tx.inputs tx.outputs ≤ max tx.inputs tx.witnesses.length then
        .ok (tx.hash ++ (frame (leBytes 8)
            (zeroLocked wa lock.length (lockFits_lock hlock)).asSlice ++
          ((more.filterMap fun i ↦ tx.witnesses[i]?) ++ (tx.witnesses.drop tx.inputs).take
            (max tx.inputs tx.outputs - tx.inputs)).flatMap (frame (leBytes 8))))
      else .error .panic := by
  rw [digestStream, hgroup, ok_bind, List.head?_cons, unwrap, ok_bind, hw, unwrap, ok_bind,
    zeroLock_asSlice hlock, ok_bind, List.drop_one, List.tail_cons, mapM_unwrap_eq hmore, ok_bind]
  dsimp only
  rw [normal_eq]
  split
  · rw [ok_bind, List.append_assoc, List.append_assoc, ← List.flatMap_append]
    rfl
  · rfl

/-- The transaction without the witnesses behind the first `n`. -/
def cut (chain : Transaction) (n : ℕ) : Transaction :=
  { chain with
    witnesses := chain.witnesses.take n
    length_witness := fun w hw ↦ chain.length_witness w (List.mem_of_mem_take hw) }

theorem cut_groupWitnesses {n : ℕ} (hn : chain.inputs ≤ n) :
    (cut chain n).groupWitnesses = chain.groupWitnesses := by
  refine List.filterMap_congr fun i hi ↦ ?_
  exact List.getElem?_take_of_lt ((chain.group_lt i hi).trans_le hn)

theorem others_cut {n : ℕ} (hn : chain.inputs ≤ n) :
    others (cut chain n) = chain.groupWitnesses.drop 1 ++
      (chain.witnesses.drop chain.inputs).take (n - chain.inputs) := by
  rw [others, cut_groupWitnesses hn]
  exact congrArg _ List.drop_take

section Cut

variable (hshown : ShownTo ⟨tx.hash, tx.inputs, tx.witnesses⟩ chain.group chain)

include hshown

theorem inputs_le_max : chain.inputs ≤ max tx.inputs tx.outputs :=
  hshown.inputs.le.trans (Nat.le_max_left _ _)

theorem stream_cut_of_max_eq
    (hmax : max tx.inputs tx.outputs = max tx.inputs tx.witnesses.length) {w : Bytes} :
    sighashStream (cut chain (max tx.inputs tx.outputs)) w = sighashStream chain w := by
  have hall : chain.witnesses.take (max tx.inputs tx.outputs) = chain.witnesses := by
    rw [hmax, hshown.witnesses]
    exact List.take_of_length_le (Nat.le_max_right _ _)
  have hcut : cut chain (max tx.inputs tx.outputs) = chain := by
    simp only [cut, hall]
  rw [hcut]

/-- A stream is as long as its list of witnesses. -/
theorem max_eq_of_stream_eq (hlock : wa.lock = some lock)
    (hmax : max tx.inputs tx.outputs ≤ max tx.inputs tx.witnesses.length)
    (heq : sighashStream (cut chain (max tx.inputs tx.outputs)) wa.asSlice =
      sighashStream chain wa.asSlice) :
    max tx.inputs tx.outputs = max tx.inputs tx.witnesses.length := by
  have hle := lockLength_le_withLock (lockFits_lock hlock)
  rw [withLock_lock hlock] at hle
  rw [sighashStream_eq _ hle, sighashStream_eq _ hle] at heq
  have hframes := List.append_cancel_left (List.append_cancel_left heq)
  have hothers := flatMap_frame_inj words_leBytes (by decide) (length_others _)
    (length_others chain) hframes
  change others _ = others chain at hothers
  rw [others_cut (inputs_le_max hshown), others, List.append_cancel_left_eq] at hothers
  have hlen := congrArg List.length hothers
  rw [List.length_take, List.length_drop, hshown.inputs, hshown.witnesses] at hlen
  dsimp only at hlen
  omega

end Cut

/-- The witnesses of the group are all there. -/
def GroupPresent (tx : ReprMockTransaction) (chain : Transaction) : Prop :=
  ∀ i ∈ chain.group, i < tx.witnesses.length

section Shown

variable {first : ℕ} (hindex : index < tx.locks.length)
  (hgroup : ∀ i, i ∈ chain.group ↔ i < tx.locks.length ∧ tx.locks[i]? = tx.locks[index]?)
  (hshown : ShownTo ⟨tx.hash, tx.inputs, tx.witnesses⟩ chain.group chain)
  (hfirst : chain.group.head? = some first) (hw : tx.witnesses[first]? = some wa.asSlice)
  (hlock : wa.lock = some lock)

include hshown hfirst hw in
theorem groupWitnesses_shown :
    chain.groupWitnesses = wa.asSlice :: chain.group.tail.filterMap fun i ↦ tx.witnesses[i]? := by
  have hcons : chain.group = first :: chain.group.tail := (List.cons_head?_tail hfirst).symm
  rw [Transaction.groupWitnesses, hcons, hshown.witnesses, List.filterMap_cons_some hw,
    List.tail_cons]

include hlock in
theorem lockLength_asSlice_lock : lockLength wa.asSlice = lock.length ∧
    20 + lock.length ≤ wa.asSlice.length := by
  have hlength := lockLength_withLock (lockFits_lock hlock)
  have hle := lockLength_le_withLock (lockFits_lock hlock)
  rw [withLock_lock hlock] at hlength hle
  exact ⟨hlength, hlength ▸ hle⟩

include hindex hgroup hfirst hw hlock in
/-- A missing witness of the group is a panic. -/
theorem digestStream_missing [MoleculeCrate] (hmissing : ¬GroupPresent tx chain) :
    digestStream tx index = .error .panic := by
  have hcons : chain.group = first :: chain.group.tail := (List.cons_head?_tail hfirst).symm
  have hget := getGroup_eq hindex chain.group_sorted hgroup
  obtain ⟨i, hi, hlen⟩ : ∃ i ∈ chain.group.tail, tx.witnesses.length ≤ i := by
    simp only [GroupPresent, not_forall, Nat.not_lt] at hmissing
    obtain ⟨i, hi, hlen⟩ := hmissing
    rw [hcons] at hi
    rcases List.mem_cons.mp hi with rfl | hi
    · rw [List.getElem?_eq_none hlen] at hw
      cases hw
    · exact ⟨i, hi, hlen⟩
  rw [hcons] at hget
  rw [digestStream, hget, ok_bind, List.head?_cons, unwrap, ok_bind, hw, unwrap, ok_bind,
    zeroLock_asSlice hlock, ok_bind, List.drop_one, List.tail_cons,
    mapM_unwrap_missing ⟨i, hi, hlen⟩]
  rfl

include hshown hfirst hw hlock

/-- The script hashes its stream unless the lock goes on behind what it loads. -/
theorem sighashContext_shown_iff {fuel : ℕ} {stale ctx : Bytes} (hstale : stale.length = 32768)
    (hfuel : Enough chain fuel) :
    sighashContext chain fuel stale 32 = .ret ctx ↔
      20 + lock.length ≤ 32768 ∧ sighashStream chain wa.asSlice = ctx := by
  obtain ⟨hlength, hle⟩ := @lockLength_asSlice_lock wa lock hlock
  have hgroup := groupWitnesses_shown hshown hfirst hw
  by_cases hloaded : 20 + lock.length ≤ 32768
  · rw [sighashContext_eq hgroup (by omega) le_rfl hstale hfuel, Outcome.ret.injEq,
      and_iff_right hloaded]
  · have hlt := wa.length_asSlice_lt
    have hrejected : extractWitnessLock (overwrite stale (wa.asSlice.take maxWitnessSize))
        (min wa.asSlice.length 32768) = .error ckbInvalidData := by
      rw [extractWitnessLock, lockLength_overwrite (by decide) (by omega), hlength,
        if_neg (by omega), if_pos (by omega)]
    rw [sighashContext_rejected (witness_zero hgroup) hrejected]
    exact iff_of_false (by rintro ⟨⟩) fun h ↦ hloaded h.1

include hindex hgroup

/-- The stream of the transaction up to the number of its outputs. -/
theorem digestStream_present [MoleculeCrate] (hpresent : GroupPresent tx chain) :
    digestStream tx index =
      if max tx.inputs tx.outputs ≤ max tx.inputs tx.witnesses.length then
        .ok (sighashStream (cut chain (max tx.inputs tx.outputs)) wa.asSlice)
      else .error .panic := by
  have hcons : chain.group = first :: chain.group.tail := (List.cons_head?_tail hfirst).symm
  have hget := getGroup_eq hindex chain.group_sorted hgroup
  rw [GroupPresent, hcons] at hpresent
  rw [hcons] at hget
  have hinputs := inputs_le_max hshown
  have hclear := clearLock_withLock (lockFits_lock hlock)
  have hle := lockLength_le_withLock (lockFits_lock hlock)
  rw [withLock_lock hlock] at hclear hle
  have hothers : others (cut chain (max tx.inputs tx.outputs)) =
      (chain.group.tail.filterMap fun i ↦ tx.witnesses[i]?) ++
        (tx.witnesses.drop tx.inputs).take (max tx.inputs tx.outputs - tx.inputs) := by
    rw [others_cut hinputs, groupWitnesses_shown hshown hfirst hw, hshown.witnesses, hshown.inputs]
    rfl
  have hstream : sighashStream (cut chain (max tx.inputs tx.outputs)) wa.asSlice =
      tx.hash ++ (frame (leBytes 8)
          (zeroLocked wa lock.length (lockFits_lock hlock)).asSlice ++
        (others (cut chain (max tx.inputs tx.outputs))).flatMap (frame (leBytes 8))) := by
    rw [sighashStream_eq _ hle, hclear]
    exact congrArg (· ++ _) hshown.hash
  rw [digestStream_eq hget hw hlock (List.forall_mem_cons.mp hpresent).2, hstream, hothers]

/-- The message of the spawn tests is taken of the stream that the script hashes for the same
transaction exactly if every input of the group has a witness, the witnesses behind the inputs
are as many as the outputs behind them and the lock ends within what the script loads.  Without
one of these witnesses `generate_sighash_all` panics, and with more of them it leaves out those
behind the last output. -/
theorem digestStream_agrees_iff [MoleculeCrate] {fuel : ℕ} {stale : Bytes}
    (hstale : stale.length = 32768) (hfuel : Enough chain fuel) :
    ((∃ ctx, digestStream tx index = .ok ctx ∧ sighashContext chain fuel stale 32 = .ret ctx) ↔
      GroupPresent tx chain ∧
        max tx.inputs tx.outputs = max tx.inputs tx.witnesses.length ∧
        20 + lock.length ≤ 32768) ∧
    (digestStream tx index = .error .panic ↔ ¬GroupPresent tx chain ∨
      max tx.inputs tx.witnesses.length < max tx.inputs tx.outputs) ∧
    (GroupPresent tx chain →
      max tx.inputs tx.outputs ≤ max tx.inputs tx.witnesses.length →
        digestStream tx index =
          .ok (sighashStream (cut chain (max tx.inputs tx.outputs)) wa.asSlice)) := by
  have hmissing := digestStream_missing hindex hgroup hfirst hw hlock
  have hpanics := digestStream_present hindex hgroup hshown hfirst hw hlock
  have hcontext {ctx : Bytes} := @sighashContext_shown_iff tx wa lock chain first hshown hfirst hw
    hlock fuel stale ctx hstale hfuel
  refine ⟨?_, ?_, fun hpresent hmax ↦ (hpanics hpresent).trans (if_pos hmax)⟩
  · constructor
    · rintro ⟨ctx, hdigest, hhashed⟩
      obtain ⟨hloaded, rfl⟩ := hcontext.mp hhashed
      have hpresent : GroupPresent tx chain := by
        by_contra hno
        rw [hmissing hno] at hdigest
        cases hdigest
      refine ⟨hpresent, ?_, hloaded⟩
      rw [hpanics hpresent] at hdigest
      split at hdigest
      next hmax => exact max_eq_of_stream_eq hshown hlock hmax (Except.ok.inj hdigest)
      next => cases hdigest
    · rintro ⟨hpresent, hmax, hloaded⟩
      refine ⟨_, ?_, hcontext.mpr ⟨hloaded, rfl⟩⟩
      rw [hpanics hpresent, if_pos hmax.le]
      exact congrArg Except.ok (stream_cut_of_max_eq hshown hmax)
  · constructor
    · intro hpanic
      by_cases hpresent : GroupPresent tx chain
      · rw [hpanics hpresent] at hpanic
        split at hpanic
        next => cases hpanic
        next hmax => exact .inr (Nat.lt_of_not_le hmax)
      · exact .inl hpresent
    · rintro (hno | hmax)
      · exact hmissing hno
      · by_cases hpresent : GroupPresent tx chain
        · rw [hpanics hpresent, if_neg (Nat.not_le.mpr hmax)]
        · exact hmissing hpresent

end Shown

end Agreement

/-! ## The transaction of a template -/

attribute [local instance] demoCrate

def templateArgs : WitnessArgs := ⟨some (List.replicate 65 0), none, none, by decide⟩

/-- The transaction of `auth-spawn-success.json`, with one input and one output. -/
def templateTx : ReprMockTransaction :=
  ⟨List.replicate 32 0, 1, 1, [templateArgs.asSlice], [[1]]⟩

theorem templateWitness_fits : ∀ w ∈ templateTx.witnesses, w.length < 2 ^ 64 := by decide

def templateChain : Transaction where
  hash := templateTx.hash
  inputs := 1
  group := [0]
  witnesses := templateTx.witnesses
  length_hash := zeroHash_length
  group_sorted := soleInput_sorted
  group_lt := soleInput_lt
  length_witness := templateWitness_fits

theorem templateGroup (i : ℕ) :
    i ∈ templateChain.group ↔ i < 1 ∧ templateTx.locks[i]? = templateTx.locks[0]? := by
  rw [show templateChain.group = [0] from rfl, List.mem_singleton]
  constructor
  · rintro rfl
    exact ⟨Nat.one_pos, rfl⟩
  · exact fun h ↦ Nat.lt_one_iff.mp h.1

theorem templateChain_enough : Enough templateChain 200 where
  count source := by cases source <;> decide
  length := by decide

theorem templateTx_agrees :
    ∃ ctx, digestStream templateTx 0 = .ok ctx ∧
      sighashContext templateChain 200 (List.replicate 32768 0) 32 = .ret ctx :=
  (@digestStream_agrees_iff templateTx templateArgs (List.replicate 65 0) 0 templateChain 0
    Nat.one_pos templateGroup ⟨rfl, rfl, rfl, rfl⟩ rfl rfl rfl _ 200 _ List.length_replicate
    templateChain_enough).1.mpr
      ⟨List.forall_mem_singleton.mpr (by decide), rfl, by decide⟩

end CkbAuth.SpawnTx
