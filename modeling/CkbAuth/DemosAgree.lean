import CkbAuth.Demo
import CkbAuth.SighashSpec

/-!
# Where the two demos agree

Both demos run on a witness that is a `WitnessArgs` of the molecule format.
-/

namespace CkbAuth

open CRun

variable {tx : Transaction} {fuel : ℕ} {source : Source}

/-! ## Agreement -/

/-- A program that ends with a code of its own. -/
def Fails {α : Type} (o : Outcome α) : Prop := ∃ e, o = .fail e ∨ o = .exit e

/-- Two programs that both fail, or both make the same call. -/
def Agree (c r : Outcome AuthCall) : Prop :=
  (∃ call, c = .ret call ∧ r = .ret call) ∨ (Fails c ∧ Fails r)

theorem not_fails_ret {α : Type} (a : α) : ¬Fails (.ret a : Outcome α) := by
  rintro ⟨e, h | h⟩ <;> cases h

theorem agree_ret_iff {c r : AuthCall} : Agree (.ret c) (.ret r) ↔ c = r := by
  constructor
  · rintro (⟨call, hc, hr⟩ | ⟨hc, -⟩)
    · exact (Outcome.ret.inj hc).trans (Outcome.ret.inj hr).symm
    · exact absurd hc (not_fails_ret c)
  · rintro rfl
    exact .inl ⟨c, rfl, rfl⟩

theorem not_agree_of_fails {c : AuthCall} {r : Outcome AuthCall} (hr : Fails r) :
    ¬Agree (.ret c) r := by
  rintro (⟨call, -, rfl⟩ | ⟨hc, -⟩)
  · exact not_fails_ret call hr
  · exact not_fails_ret c hc

/-! ## Witness arguments -/

/-- `BytesOpt`: nothing, or the content behind its length. -/
def bytesOpt : Option Bytes → Bytes
  | none => []
  | some content => leBytes 4 content.length ++ content

def tableSize (lock inputType outputType : Option Bytes) : ℕ :=
  16 + (bytesOpt lock).length + (bytesOpt inputType).length + (bytesOpt outputType).length

/-- The fields of a `WitnessArgs`.  The size of its table is a `uint32_t`. -/
structure WitnessArgs where
  lock : Option Bytes
  inputType : Option Bytes
  outputType : Option Bytes
  size_lt : tableSize lock inputType outputType < 2 ^ 32

namespace WitnessArgs

variable {wa : WitnessArgs} {lock : Bytes}

/-- What is behind the lock. -/
def types (wa : WitnessArgs) : Bytes := bytesOpt wa.inputType ++ bytesOpt wa.outputType

/-- The size of the table, and where its three fields are. -/
def header (wa : WitnessArgs) : Bytes :=
  leBytes 4 (tableSize wa.lock wa.inputType wa.outputType) ++ leBytes 4 16 ++
    leBytes 4 (16 + (bytesOpt wa.lock).length) ++
    leBytes 4 (16 + (bytesOpt wa.lock).length + (bytesOpt wa.inputType).length)

/-- `as_slice` -/
def asSlice (wa : WitnessArgs) : Bytes := wa.header ++ (bytesOpt wa.lock ++ wa.types)

theorem length_header (wa : WitnessArgs) : wa.header.length = 16 := by simp [header]

theorem length_asSlice_eq (wa : WitnessArgs) :
    wa.asSlice.length = tableSize wa.lock wa.inputType wa.outputType := by
  simp only [asSlice, types, tableSize, List.length_append, length_header]
  omega

/-- Neither demo's sum of 20 and the length of the lock overflows. -/
theorem length_asSlice_lt (wa : WitnessArgs) : wa.asSlice.length < 2 ^ 32 :=
  wa.length_asSlice_eq.trans_lt wa.size_lt

theorem asSlice_eq (hlock : wa.lock = some lock) :
    wa.asSlice = wa.header ++ (leBytes 4 lock.length ++ (lock ++ wa.types)) := by
  rw [asSlice, hlock, bytesOpt, List.append_assoc]

theorem length_asSlice (hlock : wa.lock = some lock) :
    wa.asSlice.length = 20 + lock.length + wa.types.length := by
  rw [asSlice_eq hlock]
  simp only [List.length_append, length_header, length_leBytes]
  omega

theorem lockLength_asSlice (hlock : wa.lock = some lock) :
    lockLength wa.asSlice = lock.length := by
  have hlen := length_asSlice hlock
  have hlt := wa.length_asSlice_lt
  rw [lockLength, asSlice_eq hlock, List.drop_left' wa.length_header,
    List.take_left' (length_leBytes 4 _), leToNat_leBytes (by omega)]

theorem drop_asSlice (hlock : wa.lock = some lock) : wa.asSlice.drop 20 = lock ++ wa.types := by
  rw [asSlice_eq hlock, ← List.append_assoc, List.drop_left']
  simp only [List.length_append, length_header, length_leBytes]

theorem types_eq_nil_iff : wa.types = [] ↔ wa.inputType = none ∧ wa.outputType = none := by
  have hopt (field : Option Bytes) : bytesOpt field = [] ↔ field = none := by
    cases field with
    | none => simp [bytesOpt]
    | some content => simp [bytesOpt, leBytes]
  rw [types, List.append_eq_nil_iff, hopt, hopt]

end WitnessArgs

/-! ## The C demo -/

/-- The witnesses that are hashed: those of the group and those behind the inputs. -/
def Transaction.hashed (tx : Transaction) : List Bytes :=
  tx.groupWitnesses ++ tx.witnesses.drop tx.inputs

/-- The call of a demo, with the arguments of the script in it. -/
def authCall (args signature message : Bytes) : AuthCall where
  algorithmId := args.getD 0 0
  content := (args.drop 1).take 20
  codeHash := (args.drop 21).take 32
  hashType := args.getD 53 0
  entryCategory := args.getD 54 0
  signature := signature
  message := message

section

variable {w args stale : Bytes} {rest : List Bytes} {env : Env}

theorem extractWitnessLock_eq (stale : Bytes) {len : ℕ} (hw : 20 + lockLength w ≤ w.length)
    (hlt : 20 + lockLength w < 2 ^ 32) (hlen : 20 ≤ len) :
    extractWitnessLock (overwrite stale (w.take 32768)) len =
      if len < 20 + lockLength w then .error ckbInvalidData else .ok ⟨20, lockLength w⟩ := by
  rw [extractWitnessLock, lockLength_overwrite (by decide) (by omega), if_neg (by omega),
    Nat.mod_eq_of_lt hlt]

theorem sighashContext_refused (hgroup : tx.groupWitnesses = w :: rest)
    (hw : 20 + lockLength w ≤ w.length) (hlt : 20 + lockLength w < 2 ^ 32)
    (hlong : 32768 < 20 + lockLength w) :
    sighashContext tx fuel stale 32 = .fail ckbInvalidData := by
  have hextract := extractWitnessLock_eq stale hw hlt (show 20 ≤ min w.length 32768 by omega)
  rw [if_pos ((Nat.min_le_right _ _).trans_lt hlong)] at hextract
  exact sighashContext_rejected (witness_zero hgroup) hextract

theorem Demo.main_extracted {seg : Seg} (hw : tx.witness .groupInput 0 = some w)
    (hargs : args.length = 55)
    (hseg : extractWitnessLock (overwrite stale (w.take maxWitnessSize)) w.length = .ok seg) :
    Demo.main env tx fuel args stale =
      ((generateSighashAll tx fuel stale env 32).mapFail fun _ ↦ ckbInvalidData).bind
        fun msg32 ↦
      (seg.read (overwrite stale (w.take maxWitnessSize))).bind fun signature ↦
      .ret (authCall args signature msg32) := by
  rw [Demo.main, if_neg (not_not_intro hargs), ckbLoadWitness_zero hw]
  simp only [hseg]
  rfl

/-- The signature that `main` reads, behind a message from `generate_sighash_all`. -/
theorem read_loaded (hstale : stale.length = 32768)
    (hle : 20 + lockLength w ≤ min w.length 32768) :
    Seg.read ⟨20, lockLength w⟩ (overwrite stale (w.take maxWitnessSize)) =
      .ret ((w.drop 20).take (lockLength w)) := by
  rw [Seg.read, length_loaded hstale, if_pos (hle.trans (Nat.min_le_right _ _))]
  exact congrArg Outcome.ret
    (slice_overwrite (hle.trans (Nat.min_le_right _ _)) (hle.trans (Nat.min_le_left _ _)))

theorem Demo.main_eq (hgroup : tx.groupWitnesses = w :: rest)
    (hw : 20 + lockLength w ≤ w.length) (hlt : 20 + lockLength w < 2 ^ 32)
    (hargs : args.length = 55) (hstale : stale.length = 32768) (hfuel : Enough tx fuel) :
    Demo.main env tx fuel args stale =
      if 32768 < 20 + lockLength w then .fail ckbInvalidData
      else .ret (authCall args ((w.drop 20).take (lockLength w))
        (env.hash.blake2b (sighashStream tx w))) := by
  have hextract := extractWitnessLock_eq stale hw hlt (show 20 ≤ w.length by omega)
  rw [if_neg (Nat.not_lt.mpr hw)] at hextract
  rw [Demo.main_extracted (witness_zero hgroup) hargs hextract, generateSighashAll]
  by_cases hlong : 32768 < 20 + lockLength w
  · rw [if_pos hlong, sighashContext_refused hgroup hw hlt hlong]
    rfl
  · have hfits : 20 + lockLength w ≤ min w.length 32768 := by omega
    rw [if_neg hlong, sighashContext_eq hgroup hfits (Nat.le_refl 32) hstale hfuel]
    simp only [Outcome.bind_ret, Outcome.mapFail, read_loaded hstale hfits]

end

/-! ## The Rust demo -/

namespace RsDemo

open Rs (AuthAlgorithmIdType EntryCategoryType CkbAuthError)

theorem loadWitness_eq {index : ℕ} {w : Bytes} (hw : tx.witness source index = some w) :
    loadWitness tx (List.replicate 32768 0) 0 index source =
      if w.length ≤ 32768 then .ok (overwrite (List.replicate 32768 0) w, w.length)
      else .error (.lengthNotEnough w.length) := by
  simp only [loadWitness, hw, List.length_replicate, List.drop_zero, Nat.sub_zero]
  by_cases hfits : w.length ≤ 32768
  · rw [if_pos hfits, if_neg (Nat.not_lt.mpr hfits)]
  · rw [if_neg hfits, if_pos (Nat.not_le.mp hfits)]

theorem loadAndHashWitness_eq {index : ℕ} {w : Bytes} (ctx : Bytes)
    (hw : tx.witness source index = some w) (hfuel : 0 < fuel) :
    loadAndHashWitness tx fuel ctx 0 index source true =
      if w.length ≤ 32768 then .ret (.ok (), ctx ++ lengthed w)
      else .ret (.error (.lengthNotEnough w.length), ctx) := by
  obtain ⟨fuel, rfl⟩ : ∃ k, fuel = k + 1 := ⟨fuel - 1, by omega⟩
  rw [loadAndHashWitness, oneBatchSize, loadWitness_eq hw]
  by_cases hfits : w.length ≤ 32768
  · have htake : (overwrite (List.replicate 32768 0) w).take w.length = w := List.take_left
    simp only [if_pos hfits, if_neg (Nat.not_lt.mpr hfits), htake, hashBatches, lt_irrefl,
      if_false, if_true]
    rw [lengthed, List.append_assoc]
  · rw [if_neg hfits, if_neg hfits]

theorem loadAndHashWitness_missing {index : ℕ} (ctx : Bytes)
    (hw : tx.witness source index = none) :
    loadAndHashWitness tx fuel ctx 0 index source true = .ret (.error .indexOutOfBound, ctx) := by
  simp [loadAndHashWitness, loadWitness, hw]

/-- A loop fails at the first witness that does not fit. -/
theorem hashWitnesses_eq (hfuel : Enough tx fuel) {n : ℕ} : ∀ {i : ℕ} {ctx : Bytes},
    (tx.shown source).length - i < n →
      hashWitnesses tx fuel source n i ctx =
        if ∀ w ∈ (tx.shown source).drop i, w.length ≤ 32768
        then .ret (ctx ++ ((tx.shown source).drop i).flatMap lengthed)
        else .fail errorLengthNotEnough := by
  induction n with
  | zero => intro _ _ hn; omega
  | succ n ih =>
      intro i ctx hn
      rw [hashWitnesses]
      by_cases hi : i < (tx.shown source).length
      · have hw : tx.witness source i = some (tx.shown source)[i] := by
          rw [witness_eq, List.getElem?_eq_getElem hi]
        have hpos : 0 < fuel := (Nat.zero_le _).trans_lt (hfuel.count source)
        rw [loadAndHashWitness_eq ctx hw hpos, List.drop_eq_getElem_cons hi, List.flatMap_cons]
        simp only [List.forall_mem_cons]
        by_cases hfits : (tx.shown source)[i].length ≤ 32768
        · rw [if_pos hfits, Outcome.bind_ret]
          dsimp only
          rw [ih (by omega), List.append_assoc]
          simp only [hfits, true_and]
        · rw [if_neg hfits, if_neg fun h ↦ hfits h.1]
          rfl
      · have hw : tx.witness source i = none := by
          rw [witness_eq, List.getElem?_eq_none (by omega)]
        rw [loadAndHashWitness_missing ctx hw, List.drop_of_length_le (by omega)]
        simp

theorem calculateInputsLen_eq {n : ℕ} : ∀ {i : ℕ}, i ≤ tx.inputs → tx.inputs - i < n →
    calculateInputsLen tx n i = .ret tx.inputs := by
  induction n with
  | zero => intro _ _ hn; omega
  | succ n ih =>
      intro i hi hn
      rw [calculateInputsLen, loadInputSince]
      by_cases hlt : i < tx.inputs
      · rw [if_pos hlt]
        exact ih hlt (by omega)
      · rw [if_neg hlt, Nat.le_antisymm hi (Nat.not_lt.mp hlt)]

variable {w args : Bytes} {rest : List Bytes} {env : Env}

theorem generateSighashAll_eq (env : Env) (hgroup : tx.groupWitnesses = w :: rest)
    (hw : 20 + lockLength w ≤ w.length) (hfuel : Enough tx fuel) (hinputs : tx.inputs < fuel) :
    generateSighashAll env tx fuel =
      if ∀ w ∈ tx.hashed, w.length ≤ 32768 then .ret (env.hash.blake2b (sighashStream tx w))
      else .fail errorLengthNotEnough := by
  have hfirst : w ∈ tx.hashed := by
    rw [Transaction.hashed, hgroup]
    exact List.mem_cons_self
  rw [generateSighashAll, maxWitnessSize, loadWitness_eq (witness_zero hgroup)]
  by_cases hfits : w.length ≤ 32768
  · have htake : w.take w.length = w := List.take_length
    have hlength : lockLength (overwrite (List.replicate 32768 0) w) = lockLength w := by
      have h := @lockLength_overwrite (List.replicate 32768 0) w w.length (by omega) (by omega)
      rwa [htake] at h
    have hclear := @clearLock_eq (List.replicate 32768 0) w (lockLength w) w.length hw le_rfl
    rw [htake, List.drop_length, List.append_nil] at hclear
    have htemp : (overwrite (List.replicate 32768 0) w).length = 32768 := by
      rw [length_overwrite (hfits.trans_eq List.length_replicate.symm), List.length_replicate]
    have hgroupCount := hfuel.count .groupInput
    have hcount := hfuel.count .input
    simp only [if_pos hfits, if_neg (Nat.not_lt.mpr hfits), hlength, htemp,
      if_neg (show ¬w.length < 20 by omega), if_neg (Nat.not_lt.mpr hw),
      if_pos (hw.trans hfits), Outcome.bind_ret, lt_irrefl, if_false, hclear]
    have hhashed : (∀ v ∈ tx.hashed, v.length ≤ 32768) ↔
        (∀ v ∈ (tx.shown .groupInput).drop 1, v.length ≤ 32768) ∧
          ∀ v ∈ (tx.shown .input).drop tx.inputs, v.length ≤ 32768 := by
      simp only [Transaction.hashed, Transaction.shown, hgroup, List.forall_mem_append,
        List.forall_mem_cons, List.drop_one, List.tail_cons, hfits, true_and]
    rw [hashWitnesses_eq hfuel (by omega)]
    by_cases hrest : ∀ v ∈ (tx.shown .groupInput).drop 1, v.length ≤ 32768
    · rw [if_pos hrest, Outcome.bind_ret, calculateInputsLen_eq (Nat.zero_le _) (by omega),
        Outcome.bind_ret, hashWitnesses_eq hfuel (by omega)]
      by_cases hbehind : ∀ v ∈ (tx.shown .input).drop tx.inputs, v.length ≤ 32768
      · rw [if_pos hbehind, if_pos (hhashed.mpr ⟨hrest, hbehind⟩), Outcome.bind_ret,
          sighashStream, List.append_assoc tx.hash]
        rfl
      · rw [if_neg hbehind, if_neg fun h ↦ hbehind (hhashed.mp h).2]
        rfl
    · rw [if_neg hrest, if_neg fun h ↦ hrest (hhashed.mp h).1]
      rfl
  · rw [if_neg hfits, if_neg fun h ↦ hfits (h w hfirst)]
    rfl

/-- An algorithm of `AuthAlgorithmIdType`, a hash type up to `Data1` and an entry category. -/
def TakesArgs (args : Bytes) : Prop :=
  (args.getD 0 0 ≤ 9 ∨ args.getD 0 0 = 0xFC) ∧ args.getD 53 0 ≤ 2 ∧
    (args.getD 54 0 = 1 ∨ args.getD 54 0 = 2)

instance (args : Bytes) : Decidable (TakesArgs args) :=
  inferInstanceAs (Decidable (_ ∧ _))

theorem algorithm_taken_iff {value : UInt8} {id : Rs.AuthAlgorithmIdType} :
    Rs.AuthAlgorithmIdType.tryFrom value = .ok id ↔ id.toU8 = value := by
  constructor
  · intro h
    unfold Rs.AuthAlgorithmIdType.tryFrom at h
    split at h
    case isTrue hvalue =>
      change (0 ≤ value ∧ value ≤ 9) ∨ value = 0xFC at hvalue
      split at h <;> cases h
      case h_11 =>
        -- all numbers up to 9 are in the alternatives before
        change 0xFC = value
        grind
      all_goals rfl
    case isFalse => cases h
  · rintro rfl
    cases id <;> rfl

theorem exists_algorithm_iff {value : UInt8} :
    (∃ id : Rs.AuthAlgorithmIdType, id.toU8 = value) ↔ value ≤ 9 ∨ value = 0xFC := by
  constructor
  · rintro ⟨id, rfl⟩
    cases id <;> decide
  · intro h
    have hvalue : (Rs.AuthAlgorithmIdType.ckb.toU8 ≤ value ∧
        value ≤ Rs.AuthAlgorithmIdType.iso97962.toU8) ∨
          value = Rs.AuthAlgorithmIdType.ownerLock.toU8 :=
      h.imp_left fun hle ↦ ⟨UInt8.zero_le, hle⟩
    simp only [← algorithm_taken_iff, Rs.AuthAlgorithmIdType.tryFrom, if_pos hvalue]
    split <;> exact ⟨_, rfl⟩

theorem hashType_taken_iff {value : UInt8} {hashType : Rs.ScriptHashType} :
    hashTypeOf value = some hashType ↔ value ≤ 2 ∧ hashType.toU8 = value := by
  constructor
  · intro h
    unfold hashTypeOf at h
    split at h <;> cases h <;> decide
  · rintro ⟨hvalue, rfl⟩
    cases hashType
    case data2 => exact absurd hvalue (by decide)
    all_goals rfl

theorem exists_hashType {value : UInt8} (h : value ≤ 2) :
    ∃ hashType, hashTypeOf value = some hashType := by
  obtain rfl | rfl | rfl : value = 0 ∨ value = 1 ∨ value = 2 := by grind
  · exact ⟨.data, rfl⟩
  · exact ⟨.type, rfl⟩
  · exact ⟨.data1, rfl⟩

theorem category_taken_iff {value : UInt8} {category : EntryCategoryType} :
    EntryCategoryType.tryFrom value = .ok category ↔ category.toU8 = value := by
  constructor
  · intro h
    unfold EntryCategoryType.tryFrom at h
    split at h <;> cases h <;> rfl
  · rintro rfl
    cases category <;> rfl

/-- The signature is all that is behind the length of the lock. -/
theorem main_eq {verify : Bytes → Bool} (hgroup : tx.groupWitnesses = w :: rest)
    (hw : 20 + lockLength w ≤ w.length) (hfuel : Enough tx fuel) (hinputs : tx.inputs < fuel)
    (hargs : args.length = 55) (hverify : verify w = true)
    (hfits : ∀ v ∈ tx.hashed, v.length ≤ 32768) (htakes : TakesArgs args) :
    main env tx fuel args verify =
      .ret (authCall args (w.drop 20) (env.hash.blake2b (sighashStream tx w))) := by
  obtain ⟨halgorithm, htype, hcategory⟩ := htakes
  obtain ⟨id, hid⟩ := exists_algorithm_iff.mpr halgorithm
  obtain ⟨hashType, hhashType⟩ := exists_hashType htype
  obtain ⟨category, hcat⟩ : ∃ c : EntryCategoryType, c.toU8 = args.getD 54 0 :=
    hcategory.elim (fun h ↦ ⟨.dynamicLinking, h.symm⟩) fun h ↦ ⟨.spawn, h.symm⟩
  rw [main, generateSighashAll_eq env hgroup hw hfuel hinputs, if_pos hfits]
  simp only [Outcome.mapFail, Outcome.bind_ret, hargs, ne_eq, not_true_eq_false, if_false,
    hhashType, witness_zero hgroup, hverify, if_neg (show ¬w.length < 20 by omega),
    algorithm_taken_iff.mpr hid, category_taken_iff.mpr hcat, authCall]
  rw [hid, hcat, (hashType_taken_iff.mp hhashType).2]

theorem main_fails {verify : Bytes → Bool} (hgroup : tx.groupWitnesses = w :: rest)
    (hw : 20 + lockLength w ≤ w.length) (hfuel : Enough tx fuel) (hinputs : tx.inputs < fuel)
    (hargs : args.length = 55) (hverify : verify w = true)
    (h : ¬((∀ v ∈ tx.hashed, v.length ≤ 32768) ∧ TakesArgs args)) :
    Fails (main env tx fuel args verify) := by
  rw [main, generateSighashAll_eq env hgroup hw hfuel hinputs]
  by_cases hfits : ∀ v ∈ tx.hashed, v.length ≤ 32768
  · have htakes : ¬TakesArgs args := fun ht ↦ h ⟨hfits, ht⟩
    simp only [if_pos hfits, Outcome.mapFail, Outcome.bind_ret, hargs, ne_eq, not_true_eq_false,
      if_false, witness_zero hgroup, hverify, if_neg (show ¬w.length < 20 by omega)]
    cases htype : hashTypeOf (args.getD 53 0) with
    | none => exact ⟨_, .inl rfl⟩
    | some hashType =>
        cases hid : Rs.AuthAlgorithmIdType.tryFrom (args.getD 0 0) with
        | error e => exact ⟨_, .inl rfl⟩
        | ok id =>
            cases hcategory : EntryCategoryType.tryFrom (args.getD 54 0) with
            | error e => exact ⟨_, .inr rfl⟩
            | ok category =>
                refine absurd ⟨exists_algorithm_iff.mp ⟨id, algorithm_taken_iff.mp hid⟩,
                  (hashType_taken_iff.mp htype).1, ?_⟩ htakes
                rw [← category_taken_iff.mp hcategory]
                cases category
                · exact .inl rfl
                · exact .inr rfl
  · rw [if_neg hfits]
    exact ⟨_, .inl rfl⟩

end RsDemo

/-! ## Both -/

section

variable {wa : WitnessArgs} {args stale lock : Bytes} {rest : List Bytes} {verify : Bytes → Bool}

/-- The demos agree where no lock is read, or where the Rust demo can load all that it hashes,
finds nothing behind the lock and takes the arguments. -/
theorem demos_agree_iff (env : Env) (hverify : ∀ wa : WitnessArgs, verify wa.asSlice = true)
    (hgroup : tx.groupWitnesses = wa.asSlice :: rest) (hlock : wa.lock = some lock)
    (hargs : args.length = 55) (hstale : stale.length = 32768) (hfuel : Enough tx fuel)
    (hinputs : tx.inputs < fuel) :
    Agree (Demo.main env tx fuel args stale) (RsDemo.main env tx fuel args verify) ↔
      32768 < 20 + lock.length ∨
        ((∀ w ∈ tx.hashed, w.length ≤ 32768) ∧ RsDemo.TakesArgs args) ∧
          wa.inputType = none ∧ wa.outputType = none := by
  have hlen := WitnessArgs.length_asSlice hlock
  have hlt := wa.length_asSlice_lt
  have hlength := WitnessArgs.lockLength_asSlice hlock
  have hw : 20 + lockLength wa.asSlice ≤ wa.asSlice.length := by omega
  rw [Demo.main_eq hgroup hw (by omega) hargs hstale hfuel, hlength]
  by_cases hlong : 32768 < 20 + lock.length
  · rw [if_pos hlong]
    have hfirst : wa.asSlice ∈ tx.hashed := by
      rw [Transaction.hashed, hgroup]
      exact List.mem_cons_self
    have hlarge : ¬((∀ w ∈ tx.hashed, w.length ≤ 32768) ∧ RsDemo.TakesArgs args) := by
      intro h
      have := h.1 wa.asSlice hfirst
      omega
    exact iff_of_true
      (.inr ⟨⟨_, .inl rfl⟩, RsDemo.main_fails hgroup hw hfuel hinputs hargs (hverify wa) hlarge⟩)
      (.inl hlong)
  · rw [if_neg hlong, or_iff_right hlong]
    by_cases hruns : (∀ w ∈ tx.hashed, w.length ≤ 32768) ∧ RsDemo.TakesArgs args
    · rw [RsDemo.main_eq hgroup hw hfuel hinputs hargs (hverify wa) hruns.1 hruns.2,
        agree_ret_iff, and_iff_right hruns, ← WitnessArgs.types_eq_nil_iff,
        WitnessArgs.drop_asSlice hlock, List.take_left]
      simp [authCall]
    · refine iff_of_false (not_agree_of_fails ?_) fun h ↦ hruns h.1
      exact RsDemo.main_fails hgroup hw hfuel hinputs hargs (hverify wa) hruns

end

/-! ## Two witness arguments -/

/-- The total size in the header is the length: a part of what `from_slice` checks. -/
def sizeMatches (w : Bytes) : Bool := leToNat (w.take 4) == w.length

theorem sizeMatches_asSlice (wa : WitnessArgs) : sizeMatches wa.asSlice = true := by
  have htake : wa.asSlice.take 4 = leBytes 4 wa.asSlice.length := by
    rw [wa.length_asSlice_eq, WitnessArgs.asSlice, WitnessArgs.header, List.append_assoc,
      List.append_assoc, List.append_assoc, List.take_left' (length_leBytes 4 _)]
  rw [sizeMatches, htake, leToNat_leBytes wa.length_asSlice_lt, beq_self_eq_true]

theorem lockOnly_size : tableSize (some [7, 8]) none none < 2 ^ 32 := by decide

theorem shortLock_size : tableSize (some [7, 8]) (some [5]) none < 2 ^ 32 := by decide

def lockOnly : WitnessArgs := ⟨some [7, 8], none, none, lockOnly_size⟩

/-- The first witness of `shortLockTransaction`, with an input type. -/
def shortLockArgs : WitnessArgs := ⟨some [7, 8], some [5], none, shortLock_size⟩

theorem lockOnly_fits : ∀ w ∈ [lockOnly.asSlice], w.length < 2 ^ 64 := by decide

def lockOnlyTransaction : Transaction where
  hash := List.replicate 32 0
  inputs := 1
  group := [0]
  witnesses := [lockOnly.asSlice]
  length_hash := zeroHash_length
  group_sorted := soleInput_sorted
  group_lt := soleInput_lt
  length_witness := lockOnly_fits

theorem lockOnly_enough : Enough lockOnlyTransaction 100 where
  count source := by cases source <;> decide
  length := by decide

/-- The algorithm of CKB with a cell to be loaded dynamically. -/
def ckbArgs : Bytes := List.replicate 53 0 ++ [1, 1]

theorem lockOnly_demos_agree :
    Agree (Demo.main KnownAnswers.empty.env lockOnlyTransaction 100 ckbArgs
        (List.replicate 32768 0))
      (RsDemo.main KnownAnswers.empty.env lockOnlyTransaction 100 ckbArgs sizeMatches) :=
  (@demos_agree_iff lockOnlyTransaction 100 lockOnly ckbArgs (List.replicate 32768 0) [7, 8] []
    sizeMatches KnownAnswers.empty.env sizeMatches_asSlice rfl rfl (by decide)
    List.length_replicate lockOnly_enough (by decide)).mpr
      (.inr ⟨⟨by decide, by decide⟩, rfl, rfl⟩)

/-- The input type is a part of the Rust demo's signature. -/
theorem shortLock_demos_differ :
    ¬Agree (Demo.main KnownAnswers.empty.env shortLockTransaction 100 ckbArgs
        (List.replicate 32768 0))
      (RsDemo.main KnownAnswers.empty.env shortLockTransaction 100 ckbArgs sizeMatches) := by
  have hgroup : shortLockTransaction.groupWitnesses = [shortLockArgs.asSlice] := by decide
  have hlength : lockLength shortLockArgs.asSlice = 2 := by decide
  have hbehind : shortLockArgs.asSlice.drop 20 = [7, 8, 1, 0, 0, 0, 5] := by decide
  rw [Demo.main_eq hgroup (by decide) (by decide) (by decide) List.length_replicate
      shortLock_enough, hlength, if_neg (by decide),
    RsDemo.main_eq hgroup (by decide) shortLock_enough (by decide) (by decide)
      (sizeMatches_asSlice shortLockArgs) (by decide) (by decide), agree_ret_iff, hbehind]
  intro h
  exact absurd (congrArg AuthCall.signature h) (by decide)

end CkbAuth
