import CkbAuth.MoleculeFields
import CkbAuth.SighashBinding
import CkbAuth.SignTx

/-!
# The message that is signed and the message that is checked

The tests hash a witness that they have built with zeros for a lock, the script hashes the
witness that it loads with the lock cleared.  When these are one stream depends on the size of
the signature and on which witnesses there are.
-/

namespace CkbAuth.SignTx

open CkbAuth Molecule Signer CRun Framing

variable {tx signed : TransactionView} {config : TestConfig} {rng : Rng} {blake2b : Bytes → Bytes}
  {wa : WitnessArgs} {lock : Bytes}

/-! ## Witness arguments as tables -/

def fieldsOf (wa : WitnessArgs) : List Bytes :=
  [bytesOpt wa.lock, bytesOpt wa.inputType, bytesOpt wa.outputType]

theorem tableSize_fieldsOf (wa : WitnessArgs) :
    Molecule.tableSize (fieldsOf wa) = CkbAuth.tableSize wa.lock wa.inputType wa.outputType := by
  rw [tableSize_eq, OffsetTable.Numeral.size, CkbAuth.tableSize]
  simp only [fieldsOf, List.flatten_cons, List.flatten_nil, List.length_append, List.length_nil]
  change 4 * (3 + 1) + _ = _
  omega

theorem bytesSlice_eq_bytesOpt [MoleculeCrate] (content : Bytes) :
    bytesSlice content = bytesOpt (some content) := bytesSlice_eq content

/-- A `WitnessArgs` is the table of its three fields. -/
theorem asSlice_eq_writeTable [MoleculeCrate] (wa : WitnessArgs) :
    wa.asSlice = writeTable (fieldsOf wa) := by
  rw [writeTable, tableSize_fieldsOf]
  simp [WitnessArgs.asSlice, WitnessArgs.header, WitnessArgs.types, fieldsOf, layout,
    packNumber_ofNat]

theorem field_asSlice [MoleculeCrate] (wa : WitnessArgs) {i : ℕ} (hi : i < 3) :
    field 3 i wa.asSlice = .ok ((fieldsOf wa).get ⟨i, hi⟩) := by
  have hsize : Molecule.tableSize (fieldsOf wa ++ []) < 2 ^ 32 := by
    rw [List.append_nil, tableSize_fieldsOf]
    exact wa.size_lt
  have hfield := @field_writeTable (fieldsOf wa) [] _ i hsize hi
  rwa [List.append_nil, ← asSlice_eq_writeTable] at hfield

/-- A lock that fits in front of the types of a witness. -/
def LockFits (wa : WitnessArgs) (size : ℕ) : Prop :=
  20 + size + wa.types.length < 2 ^ 32

theorem LockFits.size_lt (h : LockFits wa lock.length) :
    CkbAuth.tableSize (some lock) wa.inputType wa.outputType < 2 ^ 32 := by
  rw [LockFits, WitnessArgs.types, List.length_append] at h
  simp only [CkbAuth.tableSize, bytesOpt, List.length_append, length_leBytes] at h ⊢
  omega

def withLock (wa : WitnessArgs) (lock : Bytes) (h : LockFits wa lock.length) : WitnessArgs :=
  ⟨some lock, wa.inputType, wa.outputType, h.size_lt⟩

theorem setLock_asSlice [MoleculeCrate] (h : LockFits wa lock.length) :
    setLock wa.asSlice lock = .ok (withLock wa lock h).asSlice := by
  rw [setLock, field_asSlice wa (Nat.succ_pos 2), field_asSlice wa (Nat.le_add_left 2 1),
    field_asSlice wa (Nat.lt_succ_self 2), asSlice_eq_writeTable, bytesSlice_eq_bytesOpt]
  rfl

theorem length_zeros {n : ℕ} : (List.replicate n (0 : UInt8)).length = n := List.length_replicate

theorem lockFits_zeros {n : ℕ} (h : LockFits wa n) :
    LockFits wa (List.replicate n (0 : UInt8)).length := length_zeros.symm ▸ h

/-- The witness that is hashed for a signature of a size. -/
def zeroLocked (wa : WitnessArgs) (n : ℕ) (h : LockFits wa n) : WitnessArgs :=
  withLock wa (List.replicate n 0) (lockFits_zeros h)

section Locked

variable (h : LockFits wa lock.length)

theorem length_withLock :
    (withLock wa lock h).asSlice.length = 20 + lock.length + wa.types.length :=
  WitnessArgs.length_asSlice rfl

theorem lockLength_withLock : lockLength (withLock wa lock h).asSlice = lock.length :=
  WitnessArgs.lockLength_asSlice rfl

theorem lockLength_le_withLock :
    20 + lockLength (withLock wa lock h).asSlice ≤ (withLock wa lock h).asSlice.length := by
  rw [lockLength_withLock, length_withLock]
  omega

theorem slice_withLock :
    ((withLock wa lock h).asSlice.drop 20).take
      (lockLength (withLock wa lock h).asSlice) = lock := by
  rw [lockLength_withLock, WitnessArgs.drop_asSlice rfl, List.take_left]

/-- A lock that is cleared is a lock of zeros. -/
theorem clearLock_withLock :
    clearLock (withLock wa lock h).asSlice (lockLength (withLock wa lock h).asSlice) =
      (zeroLocked wa lock.length h).asSlice := by
  have hheader : (withLock wa lock h).header = (zeroLocked wa lock.length h).header := by
    simp [withLock, zeroLocked, WitnessArgs.header, CkbAuth.tableSize, bytesOpt]
  have hfront : ((withLock wa lock h).header ++ leBytes 4 lock.length).length = 20 := by
    rw [List.length_append, WitnessArgs.length_header, length_leBytes]
  have hslice := @WitnessArgs.asSlice_eq (withLock wa lock h) lock rfl
  rw [← List.append_assoc] at hslice
  rw [lockLength_withLock, clearLock, ← List.drop_drop, WitnessArgs.drop_asSlice rfl,
    List.drop_left, hslice, List.take_left' hfront,
    @WitnessArgs.asSlice_eq (zeroLocked wa lock.length h) (List.replicate lock.length 0) rfl,
    hheader, length_zeros]
  simp only [List.append_assoc]
  rfl

theorem zeroLocked_inj {n k : ℕ} {hn : LockFits wa n} {hk : LockFits wa k}
    (heq : (zeroLocked wa n hn).asSlice = (zeroLocked wa k hk).asSlice) : n = k := by
  have hlen := congrArg lockLength heq
  rwa [zeroLocked, zeroLocked, lockLength_withLock, lockLength_withLock, length_zeros,
    length_zeros] at hlen

end Locked

/-! ## Loops -/

theorem mapM_ok {α β : Type} (g : α → β) (l : List α) :
    l.mapM (fun a ↦ (.ok (g a) : Result β)) = .ok (l.map g) := List.mapM_pure

/-- One index gets the value of a closure. -/
theorem mapM_single {β : Type} {b : ℕ} (r : Result β) (g : ℕ → β) : ∀ {l : List ℕ}, b ∈ l →
    l.mapM (fun i ↦ if i = b then r else .ok (g i)) =
      r.map fun v ↦ l.map fun i ↦ if i = b then v else g i := by
  cases r with
  | ok v =>
      intro l _
      have hpure : (fun i ↦ if i = b then (.ok v : Result β) else .ok (g i)) =
          fun i ↦ .ok (if i = b then v else g i) := by
        funext i
        split <;> rfl
      rw [hpure, mapM_ok]
      rfl
  | error e =>
      intro l hb
      induction l with
      | nil => exact absurd hb List.not_mem_nil
      | cons i l ih =>
          rw [List.mapM_cons]
          by_cases hi : i = b
          · rw [if_pos hi]
            rfl
          · rw [if_neg hi, ok_bind, ih (List.mem_of_ne_of_mem (Ne.symm hi) hb)]
            rfl

theorem mapM_unwrap {ws : List Bytes} {n b : ℕ} (h : b + n ≤ ws.length) :
    (List.range' b n).mapM (fun i ↦ unwrap ws[i]?) = .ok ((ws.drop b).take n) := by
  induction n generalizing b with
  | zero => rfl
  | succ n ih =>
      have hb : b < ws.length := by omega
      rw [List.range'_succ, List.mapM_cons, List.getElem?_eq_getElem hb, unwrap, ok_bind,
        ih (by omega), ok_bind, List.drop_eq_getElem_cons hb, List.take_succ_cons]
      rfl

theorem filterMap_range' (ws : List Bytes) (n b : ℕ) :
    (List.range' b n).filterMap (fun i ↦ ws[i]?) = (ws.drop b).take n := by
  induction n generalizing b with
  | zero => rfl
  | succ n ih =>
      rw [List.range'_succ]
      by_cases hb : b < ws.length
      · rw [List.filterMap_cons_some (List.getElem?_eq_getElem hb), ih,
          List.drop_eq_getElem_cons hb, List.take_succ_cons]
      · rw [List.filterMap_cons_none (List.getElem?_eq_none (Nat.not_lt.mp hb)), ih,
          List.drop_of_length_le (by omega), List.drop_of_length_le (by omega), List.take_nil,
          List.take_nil]

/-! ## The witnesses of a signed transaction -/

/-- A missing witness of an input is an empty one. -/
def padded (tx : TransactionView) : List Bytes :=
  tx.witnesses ++ List.replicate (tx.inputs - tx.witnesses.length) []

theorem inputs_le_length_padded (tx : TransactionView) : tx.inputs ≤ (padded tx).length := by
  rw [padded, List.length_append, List.length_replicate]
  omega

theorem padded_of_le (h : tx.inputs ≤ tx.witnesses.length) : padded tx = tx.witnesses := by
  rw [padded, Nat.sub_eq_zero_of_le h, List.replicate_zero, List.append_nil]

theorem padded_getElem? {i : ℕ} (hi : i < tx.inputs) :
    (padded tx)[i]? = some (tx.witnesses[i]?.getD []) := by
  rw [padded, List.getElem?_append]
  by_cases hlen : i < tx.witnesses.length
  · rw [if_pos hlen, List.getElem?_eq_getElem hlen]
    rfl
  · rw [if_neg hlen, List.getElem?_replicate, if_pos (by omega),
      List.getElem?_eq_none (Nat.not_lt.mp hlen)]
    rfl

theorem padded_set {b : ℕ} (hb : b < tx.inputs) (v : Bytes) :
    ((List.range tx.inputs).map fun i ↦ if i = b then v else tx.witnesses[i]?.getD []) ++
      tx.witnesses.drop tx.inputs = (padded tx).set b v := by
  refine List.ext_getElem? fun i ↦ ?_
  have hlen := inputs_le_length_padded tx
  rw [List.getElem?_append, List.length_map, List.length_range, List.getElem?_set]
  by_cases hi : i < tx.inputs
  · rw [if_pos hi, List.getElem?_map, List.getElem?_range hi, Option.map_some]
    by_cases hib : i = b
    · rw [if_pos hib, if_pos hib.symm, if_pos (by omega)]
    · rw [if_neg hib, if_neg (Ne.symm hib), padded_getElem? hi]
  · rw [if_neg hi, if_neg (by omega), List.getElem?_drop, padded, List.getElem?_append]
    have hat : tx.inputs + (i - tx.inputs) = i := by omega
    by_cases hw : i < tx.witnesses.length
    · rw [if_pos hw, hat]
    · rw [if_neg hw, hat, List.getElem?_eq_none (Nat.not_lt.mp hw), List.getElem?_replicate,
        if_neg (by omega)]

theorem signedWitnesses_eq {b : ℕ} (hb : b < tx.inputs) (first : Unit → Result Bytes) :
    signedWitnesses tx b first = (first ()).map fun v ↦ (padded tx).set b v := by
  rw [signedWitnesses, mapM_single _ _ (List.mem_range.mpr hb)]
  cases first () with
  | error e => rfl
  | ok v =>
      have hset := padded_set hb v
      simp only [Except.map, ok_bind, List.length_map, List.length_range]
      rw [hset]
      rfl

theorem signTxByInputGroup_ok [MoleculeCrate] {b len : ℕ} {w : Bytes} (hb : b < tx.inputs)
    (hw : tx.witnesses[b]? = some w)
    (h : signTxByInputGroup tx config rng blake2b b len = .ok signed) :
    ∃ stream sig v, digestStream tx config b len = .ok stream ∧
      signatureFor config rng (blake2b stream) = .ok sig ∧ setLock w sig = .ok v ∧
      signed = { tx with witnesses := (padded tx).set b v } := by
  rw [signTxByInputGroup, signedWitnesses_eq hb, hw, unwrap, ok_bind, bind_ok_iff] at h
  obtain ⟨ws, hws, hsigned⟩ := h
  obtain rfl := Except.ok.inj hsigned
  cases hfirst : (do
      let stream ← digestStream tx config b len
      let sig ← signatureFor config rng (blake2b stream)
      setLock w sig) with
  | error e =>
      rw [hfirst] at hws
      cases hws
  | ok v =>
      rw [hfirst] at hws
      obtain rfl := Except.ok.inj hws
      obtain ⟨stream, hstream, hrest⟩ := bind_ok_iff.mp hfirst
      obtain ⟨sig, hsig, hv⟩ := bind_ok_iff.mp hrest
      exact ⟨stream, sig, v, hstream, hsig, hv, rfl⟩

/-- The two steps of the command line, a message and then a signature for it, are the one
step of the tests. -/
theorem signTx_eq_setSignature [MoleculeCrate] (hmsg : config.incorrectMsg = false)
    (hsign : config.incorrectSign = false) (hsize : config.incorrectSignSize = .none) {b len : ℕ}
    (hb : b < tx.inputs) :
    signTxByInputGroup tx config rng blake2b b len =
      getMessageToSignByInputGroup tx config blake2b b len >>= fun message ↦
        setSignatureByIndex tx (config.auth.sign message) b := by
  have hsignature (message : Bytes) : signatureFor config rng message =
      .ok (config.auth.sign (config.auth.convertMessage message)) := by
    simp [signatureFor, hmsg, hsign, hsize]
  simp only [signTxByInputGroup, getMessageToSignByInputGroup, setSignatureByIndex, if_pos hb,
    signedWitnesses_eq hb]
  cases hw : tx.witnesses[b]? with
  | none =>
      have hdigest : digestStream tx config b len = .error .panic := by
        rw [digestStream, hw]
        rfl
      rw [hdigest]
      rfl
  | some w =>
      rw [unwrap, ok_bind, Option.getD_some]
      cases digestStream tx config b len with
      | error e => rfl
      | ok stream =>
          rw [ok_bind, hsignature, ok_bind]
          rfl

/-! ## Two streams -/

/-- The transaction as the script of a group of inputs sees it. -/
structure ShownTo (tx : TransactionView) (group : List ℕ) (chain : Transaction) : Prop where
  hash : chain.hash = tx.hash
  inputs : chain.inputs = tx.inputs
  group : chain.group = group
  witnesses : chain.witnesses = tx.witnesses

/-- The witnesses that the script hashes behind the first one of its group. -/
def others (chain : Transaction) : List Bytes :=
  chain.groupWitnesses.drop 1 ++ chain.witnesses.drop chain.inputs

section Streams

variable {b len : ℕ} {sig : Bytes} {more : List ℕ} {chain : Transaction}

theorem digestStream_eq [MoleculeCrate] (hw : tx.witnesses[b]? = some wa.asSlice)
    (hzero : LockFits wa config.getSignSize) (hlen : b + len ≤ tx.witnesses.length) :
    digestStream tx config b len =
      .ok (tx.hash ++ (frame (leBytes 8) (zeroLocked wa config.getSignSize hzero).asSlice ++
        ((tx.witnesses.drop (b + 1)).take (len - 1)).flatMap (frame (leBytes 8)))) := by
  have hb : b < tx.witnesses.length := (List.getElem?_eq_some_iff.mp hw).1
  rw [digestStream, hw, unwrap, ok_bind, setLock_asSlice (lockFits_zeros hzero), ok_bind,
    mapM_unwrap (by omega), ok_bind, List.append_assoc]
  rfl

/-- Behind the index of the signature the witnesses are the same. -/
theorem drop_signed (v : Bytes) :
    ((padded tx).set b v).drop (b + 1) = (padded tx).drop (b + 1) :=
  List.drop_set_of_lt (Nat.lt_succ_self b)

theorem mem_padded_drop {w : Bytes} (hw : w ∈ (tx.witnesses.drop (b + 1)).take (len - 1)) :
    w ∈ (padded tx).drop (b + 1) := by
  have hmem := List.mem_of_mem_take hw
  rw [padded, List.drop_append]
  exact List.mem_append_left _ hmem

section Shown

variable {hsig : LockFits wa sig.length} (hb : b < tx.inputs)
  (hshown : ShownTo { tx with witnesses := (padded tx).set b (withLock wa sig hsig).asSlice }
    (b :: more) chain)

include hshown

/-- The signed stream is the one that is checked for a signature of the size that was
configured and for the witnesses that the script hashes. -/
theorem digestStream_eq_iff [MoleculeCrate] (hw : tx.witnesses[b]? = some wa.asSlice)
    (hzero : LockFits wa config.getSignSize) (hlen : b + len ≤ tx.witnesses.length) :
    digestStream tx config b len =
        .ok (sighashStream chain (withLock wa sig hsig).asSlice) ↔
      sig.length = config.getSignSize ∧
        others chain = (tx.witnesses.drop (b + 1)).take (len - 1) := by
  have hslice {wa : WitnessArgs} : wa.asSlice.length < 2 ^ 64 :=
    wa.length_asSlice_lt.trans (by decide)
  have hfit : ∀ w ∈ (tx.witnesses.drop (b + 1)).take (len - 1), w.length < 2 ^ 64 := by
    intro w hmem
    refine chain.length_witness w ?_
    rw [hshown.witnesses]
    refine List.mem_of_mem_drop (i := b + 1) ?_
    rw [drop_signed]
    exact mem_padded_drop hmem
  rw [digestStream_eq hw hzero hlen, sighashStream_eq chain (lockLength_le_withLock hsig),
    clearLock_withLock, hshown.hash, Except.ok.injEq, List.append_cancel_left_eq]
  constructor
  · intro heq
    obtain ⟨hfirst, hothers⟩ := frame_append_inj words_leBytes hslice hslice heq
    exact ⟨(zeroLocked_inj hfirst).symm,
      (flatMap_frame_inj words_leBytes (by decide) hfit (length_others chain) hothers).symm⟩
  · rintro ⟨hsize, hothers⟩
    have hsame {n : ℕ} (hn : LockFits wa n) (heq : sig.length = n) :
        (zeroLocked wa sig.length hsig).asSlice = (zeroLocked wa n hn).asSlice := by
      subst heq
      rfl
    rw [← hothers, hsame hzero hsize]
    rfl

include hb

theorem groupWitnesses_shown :
    chain.groupWitnesses = (withLock wa sig hsig).asSlice ::
      more.filterMap fun i ↦ ((padded tx).set b (withLock wa sig hsig).asSlice)[i]? := by
  have hlen := inputs_le_length_padded tx
  have hat : ((padded tx).set b (withLock wa sig hsig).asSlice)[b]? =
      some (withLock wa sig hsig).asSlice := by
    rw [List.getElem?_set, if_pos rfl, if_pos (by omega)]
  rw [Transaction.groupWitnesses, hshown.group, hshown.witnesses]
  exact List.filterMap_cons_some hat

theorem others_shown :
    others chain = (more.filterMap fun i ↦
        ((padded tx).set b (withLock wa sig hsig).asSlice)[i]?) ++
      ((padded tx).set b (withLock wa sig hsig).asSlice).drop tx.inputs := by
  rw [others, groupWitnesses_shown hb hshown, hshown.inputs, hshown.witnesses]
  rfl

theorem signable_shown {fuel : ℕ} {stale : Bytes} (hloaded : 20 + sig.length ≤ 32768)
    (hstale : stale.length = 32768) (hfuel : Enough chain fuel) :
    Signable chain (withLock wa sig hsig).asSlice fuel stale 32 where
  group := ⟨_, groupWitnesses_shown hb hshown⟩
  lock := by
    have hlen := length_withLock hsig
    rw [lockLength_withLock]
    omega
  message := le_rfl
  stale := hstale
  fuel := hfuel

/-- The demo finds the signature that was put into the witness. -/
theorem main_shown {env : Env} {fuel : ℕ} {args stale : Bytes}
    (hloaded : 20 + sig.length ≤ 32768) (hargs : args.length = 55)
    (hstale : stale.length = 32768) (hfuel : Enough chain fuel) :
    Demo.main env chain fuel args stale =
      .ret (authCall args sig
        (env.hash.blake2b (sighashStream chain (withLock wa sig hsig).asSlice))) := by
  have hle := lockLength_le_withLock hsig
  rw [Demo.main_eq (groupWitnesses_shown hb hshown) hle
    (hle.trans_lt (withLock wa sig hsig).length_asSlice_lt) hargs hstale hfuel,
    lockLength_withLock, if_neg (Nat.not_lt.mpr hloaded), ← lockLength_withLock hsig,
    slice_withLock]

end Shown

/-- The signature that is made fits into the witness, and into what the script loads of it. -/
def SignatureFits [MoleculeCrate] (tx : TransactionView) (config : TestConfig) (rng : Rng)
    (blake2b : Bytes → Bytes) (wa : WitnessArgs) (b len : ℕ) : Prop :=
  ∀ stream sig, digestStream tx config b len = .ok stream →
    signatureFor config rng (blake2b stream) = .ok sig →
    LockFits wa sig.length ∧ 20 + sig.length ≤ 32768

/-- The script of a group finds in a signed transaction the signature that was made for a
stream, and hashes a stream itself.  The two are one exactly if the signature has the size that
was configured, under a condition. -/
def CheckedExactlyIf [MoleculeCrate] (tx : TransactionView) (config : TestConfig) (rng : Rng)
    (blake2b : Bytes → Bytes) (b len : ℕ) (signed : TransactionView) (group : List ℕ)
    (condition : Prop) : Prop :=
  ∃ stream sig, digestStream tx config b len = .ok stream ∧
    signatureFor config rng (blake2b stream) = .ok sig ∧
    ∀ chain fuel stale, ShownTo signed group chain → Enough chain fuel → stale.length = 32768 →
      ∃ checkedStream, sighashContext chain fuel stale 32 = .ret checkedStream ∧
        (stream = checkedStream ↔ sig.length = config.getSignSize ∧ condition) ∧
        ∀ env args, args.length = 55 → Demo.main env chain fuel args stale =
          .ret (authCall args sig (env.hash.blake2b checkedStream))

theorem checkedExactlyIf [MoleculeCrate] {condition : Prop}
    (hsigned : signTxByInputGroup tx config rng blake2b b len = .ok signed)
    (hw : tx.witnesses[b]? = some wa.asSlice) (hb : b < tx.inputs)
    (hzero : LockFits wa config.getSignSize) (hfits : SignatureFits tx config rng blake2b wa b len)
    (hlen : b + len ≤ tx.witnesses.length)
    (hothers : ∀ chain sig (hsig : LockFits wa sig.length), ShownTo { tx with
        witnesses := (padded tx).set b (withLock wa sig hsig).asSlice } (b :: more) chain →
      (others chain = (tx.witnesses.drop (b + 1)).take (len - 1) ↔ condition)) :
    CheckedExactlyIf tx config rng blake2b b len signed (b :: more) condition := by
  obtain ⟨stream, sig, v, hstream, hsignature, hlock, rfl⟩ := signTxByInputGroup_ok hb hw hsigned
  obtain ⟨hsig, hloaded⟩ := hfits stream sig hstream hsignature
  rw [setLock_asSlice hsig] at hlock
  obtain rfl := Except.ok.inj hlock
  refine ⟨stream, sig, hstream, hsignature, ?_⟩
  intro chain fuel stale hshown hfuel hstale
  refine ⟨_, (signable_shown hb hshown hloaded hstale hfuel).context, ?_,
    fun env args hargs ↦ main_shown hb hshown hloaded hargs hstale hfuel⟩
  have hiff := digestStream_eq_iff hshown hw hzero hlen
  rwa [hstream, Except.ok.injEq, hothers chain sig hsig hshown] at hiff

theorem range_eq_cons {n : ℕ} (hn : 0 < n) :
    List.range n = 0 :: List.range' 1 (n - 1) := by
  obtain ⟨k, rfl⟩ := Nat.exists_eq_succ_of_ne_zero hn.ne'
  rw [List.range_eq_range', List.range'_succ, Nat.succ_sub_one]

/-- All inputs are one group. -/
theorem others_all {hsig : LockFits wa sig.length} (hinputs : 0 < tx.inputs)
    (hshown : ShownTo { tx with witnesses := (padded tx).set 0 (withLock wa sig hsig).asSlice }
      (0 :: List.range' 1 (tx.inputs - 1)) chain) :
    others chain = (padded tx).drop 1 := by
  have hdrop := @drop_signed tx 0 (withLock wa sig hsig).asSlice
  have hcount : tx.inputs = 1 + (tx.inputs - 1) := by omega
  rw [Nat.zero_add] at hdrop
  rw [others_shown hinputs hshown, filterMap_range', ← hdrop]
  nth_rewrite 2 [hcount]
  rw [← List.drop_drop, List.take_append_drop]

/-- All inputs are one group: `sign_tx` covers their witnesses, and all that are behind. -/
theorem signTx_checked_iff [MoleculeCrate] (hsigned : signTx tx config rng blake2b = .ok signed)
    (hw : tx.witnesses[0]? = some wa.asSlice) (hinputs : 0 < tx.inputs)
    (hzero : LockFits wa config.getSignSize)
    (hfits : SignatureFits tx config rng blake2b wa 0 tx.witnesses.length) :
    CheckedExactlyIf tx config rng blake2b 0 tx.witnesses.length signed (List.range tx.inputs)
      (tx.inputs ≤ tx.witnesses.length) := by
  rw [range_eq_cons hinputs]
  refine checkedExactlyIf hsigned hw hinputs hzero hfits (Nat.zero_add _).le ?_
  intro chain sig hsig hshown
  have hpos : 1 ≤ tx.witnesses.length := (List.getElem?_eq_some_iff.mp hw).1
  rw [others_all hinputs hshown, List.take_of_length_le (by rw [List.length_drop]), Nat.zero_add]
  constructor
  · intro heq
    have hlen := congrArg List.length heq
    rw [List.length_drop, List.length_drop] at hlen
    have hle := inputs_le_length_padded tx
    omega
  · intro hle
    rw [padded_of_le hle]

/-- With a witness for each input, `len` has to be the number of inputs of the group. -/
theorem signTxByInputGroup_checked_iff [MoleculeCrate] {size : ℕ}
    (hsigned : signTxByInputGroup tx config rng blake2b b len = .ok signed)
    (hw : tx.witnesses[b]? = some wa.asSlice)
    (hcount : tx.witnesses.length = tx.inputs) (hpos : 0 < len) (hlen : b + len ≤ tx.inputs)
    (hsize : 0 < size) (hgroup : b + size ≤ tx.inputs) (hzero : LockFits wa config.getSignSize)
    (hfits : SignatureFits tx config rng blake2b wa b len) :
    CheckedExactlyIf tx config rng blake2b b len signed (List.range' b size) (len = size) := by
  obtain ⟨k, rfl⟩ := Nat.exists_eq_add_of_lt hsize
  rw [Nat.zero_add, List.range'_succ]
  refine checkedExactlyIf hsigned hw (by omega) hzero hfits (by omega) ?_
  intro chain sig hsig hshown
  have hbehind : (tx.witnesses.set b (withLock wa sig hsig).asSlice).drop tx.inputs = [] :=
    List.drop_of_length_le (by rw [List.length_set, hcount])
  rw [others_shown (by omega) hshown, filterMap_range', drop_signed, padded_of_le hcount.ge,
    hbehind, List.append_nil]
  constructor
  · intro heq
    have hlens := congrArg List.length heq
    rw [List.length_take, List.length_take, List.length_drop] at hlens
    omega
  · rintro rfl
    rfl

end Streams

/-! ## Two inputs -/

attribute [local instance] demoCrate

/-- A signer of two bytes. -/
def pairConfig : TestConfig :=
  ⟨⟨List.replicate 20 0, 0, id, List.take 2⟩, 2, .spawn, 2, false, false, false, .none⟩

def pairArgs : WitnessArgs := ⟨none, some [5], none, by decide⟩

/-- The second input has no witness. -/
def unevenView : TransactionView := ⟨List.replicate 32 0, 2, [pairArgs.asSlice]⟩

def evenView : TransactionView := ⟨List.replicate 32 0, 2, [pairArgs.asSlice, [9]]⟩

/-- A generator that gives zeros. -/
def zeroRng : Rng where
  pubkey := List.replicate 32 0
  msg := List.replicate 32 0
  sign := List.replicate 16 0
  signSize := 1
  fill := []
  extraWitness _ := List.replicate 64 0
  length_pubkey := List.length_replicate
  length_msg := List.length_replicate
  length_sign := List.length_replicate
  length_fill := Nat.succ_pos 62
  length_extraWitness _ := List.length_replicate

theorem pairArgs_fits : LockFits pairArgs 2 := by
  rw [LockFits]
  decide

theorem evenView_two_steps :
    signTxByInputGroup evenView pairConfig zeroRng id 0 2 =
      getMessageToSignByInputGroup evenView pairConfig id 0 2 >>= fun message ↦
        setSignatureByIndex evenView (pairConfig.auth.sign message) 0 :=
  signTx_eq_setSignature rfl rfl rfl (Nat.succ_pos 1)

theorem pair_signatureFits {tx : TransactionView} {b len : ℕ} :
    SignatureFits tx pairConfig zeroRng id pairArgs b len := by
  intro stream sig _ hsig
  have hsign : stream.take 2 = sig := Except.ok.inj hsig
  have hle : sig.length ≤ 2 := hsign ▸ List.length_take_le ..
  have hfits := pairArgs_fits
  rw [LockFits] at hfits ⊢
  exact ⟨by omega, by omega⟩

/-- The signature of two zeros, and an empty witness for the second input. -/
def unevenSigned : TransactionView :=
  ⟨List.replicate 32 0, 2, [(withLock pairArgs [0, 0] pairArgs_fits).asSlice, []]⟩

theorem unevenView_never_checked :
    CheckedExactlyIf unevenView pairConfig zeroRng id 0 1 unevenSigned (List.range 2) (2 ≤ 1) :=
  @signTx_checked_iff unevenView unevenSigned pairConfig zeroRng id pairArgs _ rfl rfl
    (Nat.succ_pos 1) pairArgs_fits pair_signatureFits

def evenSigned : TransactionView :=
  ⟨List.replicate 32 0, 2, [(withLock pairArgs [0, 0] pairArgs_fits).asSlice, [9]]⟩

theorem evenView_group_of_one :
    CheckedExactlyIf evenView pairConfig zeroRng id 0 2 evenSigned (List.range' 0 1) (2 = 1) :=
  @signTxByInputGroup_checked_iff evenView evenSigned pairConfig zeroRng id pairArgs 0 2 _ 1 rfl rfl
    rfl (Nat.succ_pos 1) le_rfl Nat.one_pos (Nat.le_succ 1) pairArgs_fits pair_signatureFits

end CkbAuth.SignTx
