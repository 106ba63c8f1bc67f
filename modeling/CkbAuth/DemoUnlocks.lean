import CkbAuth.Authorises
import CkbAuth.WitnessLock
import Mathlib.Order.Filter.AtTopBot.Basic

/-!
# What unlocks the demo

The whole of `auth_demo.c`, with the call of `ckb_auth`: it exits with 0 exactly if a key that
the arguments name has signed what the script shows of the transaction, in the lock of the first
witness of the group.
-/

namespace CkbAuth

open CRun

variable {tx : Transaction} {fuel fuel' n n' : ℕ} {stale args w : Bytes} {source : Source}
  {env : Env} {child : ChildMemory} {loader : Loader}

/-! ## More fuel -/

theorem hashBatches_mono {start index len : ℕ} {x : ℤ × Bytes} (hn : n ≤ n') :
    ∀ {temp : Bytes} {offset : ℕ} {ctx : Bytes},
      hashBatches tx start index source len n temp offset ctx = .ret x →
        hashBatches tx start index source len n' temp offset ctx = .ret x := by
  induction n generalizing n' with
  | zero => rintro _ _ _ ⟨⟩
  | succ n ih =>
      intro temp offset ctx h
      obtain ⟨k, rfl⟩ := Nat.exists_eq_add_of_le' ((Nat.succ_pos n).trans_le hn)
      rw [hashBatches] at h ⊢
      by_cases hlt : offset < len
      · rw [if_pos hlt] at h ⊢
        cases hload : ckbLoadWitness tx temp oneBatchSize (start + offset) index source with
        | error ret =>
            rw [hload] at h
            exact h
        | ok loaded =>
            rw [hload] at h
            exact ih (Nat.le_of_succ_le_succ hn) h
      · rw [if_neg hlt] at h ⊢
        exact h

theorem loadAndHashWitness_mono {ctx : Bytes} {start index : ℕ} {hashLength : Bool}
    {x : ℤ × Bytes} (hfuel : fuel ≤ fuel')
    (h : loadAndHashWitness tx fuel stale ctx start index source hashLength = .ret x) :
    loadAndHashWitness tx fuel' stale ctx start index source hashLength = .ret x := by
  rw [loadAndHashWitness] at h ⊢
  cases hload : ckbLoadWitness tx stale oneBatchSize start index source with
  | error ret =>
      rw [hload] at h
      exact h
  | ok loaded =>
      rw [hload] at h
      exact hashBatches_mono hfuel h

theorem hashWitnesses_mono {ctx' : Bytes} (hfuel : fuel ≤ fuel') (hn : n ≤ n') :
    ∀ {i : ℕ} {ctx : Bytes}, hashWitnesses tx fuel stale source n i ctx = .ret ctx' →
      hashWitnesses tx fuel' stale source n' i ctx = .ret ctx' := by
  induction n generalizing n' with
  | zero => rintro _ _ ⟨⟩
  | succ n ih =>
      intro i ctx h
      obtain ⟨k, rfl⟩ := Nat.exists_eq_add_of_le' ((Nat.succ_pos n).trans_le hn)
      rw [hashWitnesses] at h ⊢
      obtain ⟨⟨ret, ctx⟩, hread, h⟩ := Outcome.bind_eq_ret_iff.mp h
      rw [loadAndHashWitness_mono hfuel hread, Outcome.bind_ret]
      dsimp only at h ⊢
      split at h
      next hend => rw [if_pos hend, h]
      next hend =>
        rw [if_neg hend]
        split at h
        next => cases h
        next hread =>
          rw [if_neg hread]
          exact ih (Nat.le_of_succ_le_succ hn) h

/-- What is fed behind the loaded part of the first witness. -/
theorem hashRest_mono {ctx ctx' : Bytes} {readLen witnessLen : ℕ} (hfuel : fuel ≤ fuel')
    (h : ((if readLen < witnessLen then
        (loadAndHashWitness tx fuel stale ctx readLen 0 .groupInput false).bind
          fun x ↦ if x.1 ≠ ckbSuccess then .fail ckbInvalidData else .ret x.2
      else .ret ctx).bind fun ctx ↦
      (hashWitnesses tx fuel stale .groupInput fuel 1 ctx).bind fun ctx ↦
      hashWitnesses tx fuel stale .input fuel tx.inputs ctx) = .ret ctx') :
    ((if readLen < witnessLen then
        (loadAndHashWitness tx fuel' stale ctx readLen 0 .groupInput false).bind
          fun x ↦ if x.1 ≠ ckbSuccess then .fail ckbInvalidData else .ret x.2
      else .ret ctx).bind fun ctx ↦
      (hashWitnesses tx fuel' stale .groupInput fuel' 1 ctx).bind fun ctx ↦
      hashWitnesses tx fuel' stale .input fuel' tx.inputs ctx) = .ret ctx' := by
  obtain ⟨first, hfirst, h⟩ := Outcome.bind_eq_ret_iff.mp h
  obtain ⟨group, hgroup, h⟩ := Outcome.bind_eq_ret_iff.mp h
  refine Outcome.bind_eq_ret_iff.mpr ⟨first, ?_, Outcome.bind_eq_ret_iff.mpr ⟨group,
    hashWitnesses_mono hfuel hfuel hgroup, hashWitnesses_mono hfuel hfuel h⟩⟩
  by_cases hmore : readLen < witnessLen
  · rw [if_pos hmore] at hfirst ⊢
    obtain ⟨read, hread, hfirst⟩ := Outcome.bind_eq_ret_iff.mp hfirst
    rw [loadAndHashWitness_mono hfuel hread, Outcome.bind_ret]
    exact hfirst
  · rw [if_neg hmore] at hfirst ⊢
    exact hfirst

theorem sighashContext_mono {msgLen : ℕ} {ctx : Bytes} (hfuel : fuel ≤ fuel')
    (h : sighashContext tx fuel stale msgLen = .ret ctx) :
    sighashContext tx fuel' stale msgLen = .ret ctx := by
  rw [sighashContext] at h ⊢
  split at h
  next => cases h
  next hmsg =>
    rw [if_neg hmsg]
    cases hload : ckbLoadWitness tx stale maxWitnessSize 0 0 .groupInput with
    | error ret =>
        rw [hload] at h
        cases h
    | ok loaded =>
        rw [hload] at h
        dsimp only at h ⊢
        generalize (if maxWitnessSize < loaded.2 then maxWitnessSize else loaded.2) = readLen at h ⊢
        cases hseg : extractWitnessLock loaded.1 readLen with
        | error ret =>
            rw [hseg] at h
            cases h
        | ok seg =>
            rw [hseg] at h
            dsimp only at h ⊢
            rw [if_neg (not_not_intro tx.length_hash)] at h ⊢
            obtain ⟨temp, hmemset, h⟩ := Outcome.bind_eq_ret_iff.mp h
            rw [hmemset, Outcome.bind_ret]
            exact hashRest_mono hfuel h

/-- More fuel changes no message. -/
theorem generateSighashAll_mono {msgLen : ℕ} {msg : Bytes} (hfuel : fuel ≤ fuel')
    (h : generateSighashAll tx fuel stale env msgLen = .ret msg) :
    generateSighashAll tx fuel' stale env msgLen = .ret msg := by
  obtain ⟨ctx, hctx, h⟩ := Outcome.bind_eq_ret_iff.mp h
  rw [generateSighashAll, sighashContext_mono hfuel hctx, Outcome.bind_ret, h]

/-! ## The script -/

/-- `main` of `auth_demo.c` with its call of `ckb_auth`, the loops of which take `authFuel`.  What
the demo passes lies in its own buffers. -/
def Demo.run (env : Env) (child : ChildMemory) (loader : Loader) (tx : Transaction)
    (fuel authFuel : ℕ) (args stale : Bytes) : Outcome Unit :=
  (Demo.main env tx fuel args stale).bind fun call ↦
    if h : call.content.length = 20 ∧ call.signature.length ≤ 2 ^ 64 ∧
        call.message.length ≤ 2 ^ 64 then
      (ckbAuth env authFuel child loader call.entry ⟨call.algorithmId, call.content, h.1⟩
        ⟨.signature, 0⟩ call.signature.length ⟨.message, 0⟩).outcome
          (bufferMem call.signature call.message h.2.1 h.2.2)
    else .fault

/-- The script of a group exits with 0. -/
def Demo.Unlocks (env : Env) (child : ChildMemory) (loader : Loader) (tx : Transaction)
    (args stale : Bytes) : Prop :=
  ∃ fuel authFuel, Demo.run env child loader tx fuel authFuel args stale = .ret ()

/-- The signature that stands in the lock of a witness. -/
def lockBytesOf (w : Bytes) : Bytes := (w.drop 20).take (lockLength w)

/-- A key that the arguments name has signed, in the lock of the first witness of the group. -/
structure Demo.Signed (env : Env) (loader : Loader) (tx : Transaction) (args w : Bytes) :
    Prop where
  first : tx.witness .groupInput 0 = some w
  lock : 20 + lockLength w ≤ min w.length 32768
  length_args : args.length = 55
  runs : loader.Runs (authCall args [] []).entry (lockLength w)
  authorised : (schemeOf env (args.getD 0 0)).Authorises (lockBytesOf w)
    (env.hash.blake2b (sighashStream tx w)) ((args.drop 1).take 20)

theorem exists_groupWitnesses (hw : tx.witness .groupInput 0 = some w) :
    ∃ rest, tx.groupWitnesses = w :: rest := by
  rw [witness_eq, ← List.head?_eq_getElem?] at hw
  exact List.head?_eq_some_iff.mp hw

theorem length_lockBytesOf (h : 20 + lockLength w ≤ min w.length 32768) :
    (lockBytesOf w).length = lockLength w := by
  rw [lockBytesOf, List.length_take_of_le]
  rw [List.length_drop]
  omega

/-- The call that `main` makes, however much fuel it took. -/
theorem Demo.main_ret {call : AuthCall} (hstale : stale.length = 32768)
    (hcall : Demo.main env tx fuel args stale = .ret call) :
    ∃ w, tx.witness .groupInput 0 = some w ∧ 20 + lockLength w ≤ min w.length 32768 ∧
      args.length = 55 ∧
      call = authCall args (lockBytesOf w) (env.hash.blake2b (sighashStream tx w)) := by
  cases hw : tx.witness .groupInput 0 with
  | none =>
      rw [Demo.main] at hcall
      simp only [ckbLoadWitness, hw, ite_self] at hcall
      cases hcall
  | some w =>
      rcases Demo.main_cases hw with hfail | ⟨hargs, seg, hseg⟩
      · rw [hfail] at hcall
        cases hcall
      have hwraps : ¬LockWraps w (min w.length 32768) := by
        intro h
        rw [Demo.main_wrapped hw hargs hstale h] at hcall
        cases hcall
      obtain ⟨hle, hsignature⟩ := Demo.main_signature hw hstale hwraps hcall
      refine ⟨w, rfl, hle, hargs, ?_⟩
      obtain ⟨enough, henough, hmore⟩ :=
        ((eventually_enough tx).and (Filter.eventually_ge_atTop fuel)).exists
      obtain ⟨rest, hgroup⟩ := exists_groupWitnesses hw
      rw [Demo.main_extracted hw hargs hseg, Outcome.bind_eq_ret_iff] at hcall
      obtain ⟨msg32, hmsg, hcall⟩ := hcall
      obtain ⟨signature, -, hcall⟩ := Outcome.bind_eq_ret_iff.mp hcall
      obtain rfl := Outcome.ret.inj hcall
      have hhashed := generateSighashAll_mono hmore (Outcome.mapFail_eq_ret_iff.mp hmsg)
      rw [generateSighashAll, sighashContext_eq hgroup hle (Nat.le_refl 32) hstale henough,
        Outcome.bind_ret] at hhashed
      have hsame : signature = lockBytesOf w := hsignature
      rw [hsame, ← Outcome.ret.inj hhashed]

section

variable (hload : ckbSecp256k1CustomVerifyOnlyInitialize env = .ok ()) (hmd : MdErrors env)
  (hauth : loader.NamesAuth ((args.drop 21).take 32) (args.getD 53 0))
  (hstale : stale.length = 32768)
  (hregular : ∀ w ∈ tx.witness .groupInput 0, Regular env.ed (args.getD 0 0) (lockBytesOf w))

include hload hmd hauth hstale hregular

theorem Demo.signed_of_unlocks (h : Demo.Unlocks env child loader tx args stale) :
    ∃ w, Demo.Signed env loader tx args w := by
  obtain ⟨fuel, authFuel, hrun⟩ := h
  obtain ⟨call, hcall, hrun⟩ := Outcome.bind_eq_ret_iff.mp hrun
  obtain ⟨w, hw, hle, hargs, rfl⟩ := Demo.main_ret hstale hcall
  split at hrun
  next hfits =>
    obtain ⟨hruns, hauthorised⟩ := authorised_of_ckbAuth hload hmd hauth
      (bufferMem_holds_signature ..) (bufferMem_holds_message ..) (env.hash.blake2b_length _)
      (hregular w hw) hrun
    exact ⟨w, hw, hle, hargs, length_lockBytesOf hle ▸ hruns, hauthorised⟩
  next => cases hrun

theorem Demo.unlocks_of_signed (h : Demo.Signed env loader tx args w) :
    Demo.Unlocks env child loader tx args stale := by
  obtain ⟨hw, hle, hargs, hruns, hauthorised⟩ := h
  obtain ⟨fuel, henough⟩ := (eventually_enough tx).exists
  obtain ⟨rest, hgroup⟩ := exists_groupWitnesses hw
  have hlen := length_lockBytesOf hle
  have hmsg := env.hash.blake2b_length (sighashStream tx w)
  have hcontent : ((args.drop 1).take 20).length = 20 := by
    rw [List.length_take, List.length_drop, hargs]
    rfl
  have hfits : ((args.drop 1).take 20).length = 20 ∧ (lockBytesOf w).length ≤ 2 ^ 64 ∧
      (env.hash.blake2b (sighashStream tx w)).length ≤ 2 ^ 64 :=
    ⟨hcontent, by omega, by rw [hmsg]; omega⟩
  obtain ⟨authFuel, hrun⟩ := @ckbAuth_of_authorised env _ _ _ (lockBytesOf w) _ child loader
    (authCall args [] []).entry ⟨args.getD 0 0, _, hcontent⟩ hload hmd hauth
    (bufferMem_holds_signature _ _ hfits.2.1 hfits.2.2)
    (bufferMem_holds_message _ _ hfits.2.1 hfits.2.2) hmsg
    (hregular w hw) (hlen.symm ▸ hruns) hauthorised
  refine ⟨fuel, authFuel, Outcome.bind_eq_ret_iff.mpr ⟨authCall args (lockBytesOf w)
    (env.hash.blake2b (sighashStream tx w)), ?_, (dif_pos hfits).trans hrun⟩⟩
  rw [Demo.main_eq hgroup (by omega) (by omega) hargs hstale henough, if_neg (by omega)]
  rfl

/-- The script exits with 0 exactly if a key that its arguments name has signed. -/
theorem demo_unlocks_iff :
    Demo.Unlocks env child loader tx args stale ↔ ∃ w, Demo.Signed env loader tx args w := by
  constructor
  · exact Demo.signed_of_unlocks hload hmd hauth hstale hregular
  · rintro ⟨w, hsigned⟩
    exact Demo.unlocks_of_signed hload hmd hauth hstale hregular hsigned

end

/-! ## The transaction of the tests -/

section Template

open SignTx

def templateLocked : Bytes := templateWitness (templateCompact ++ [1])

theorem template_signed :
    Demo.Signed templateAnswers.env readyLoader templateTransaction templateArgs
      templateLocked where
  first := rfl
  lock := by decide +kernel
  length_args := by decide +kernel
  runs := .inr ⟨rfl, by decide +kernel, rfl⟩
  authorised := by
    refine ⟨(serializeKnown templatePubkey true).getD [], ⟨templateCompact, 1, ?_, ?_, ?_, ?_⟩, ?_⟩
    · decide +kernel
    · decide +kernel
    · decide
    · decide +kernel
    · change blake160 _ _ = _
      decide +kernel

theorem template_regular {s : Bytes} :
    Regular templateAnswers.env.ed (templateArgs.getD 0 0) s :=
  ⟨fun h ↦ absurd h (by decide +kernel), fun h ↦ absurd h (by decide +kernel),
    fun h ↦ absurd h (by decide +kernel)⟩

theorem template_unlocks :
    Demo.Unlocks templateAnswers.env bareChild readyLoader templateTransaction templateArgs
      (List.replicate 32768 0) :=
  (demo_unlocks_iff templateAnswers.env_initialize (mdErrors_of_knownAnswers templateAnswers)
    (readyLoader_namesAuth _ _) List.length_replicate fun _ _ ↦ template_regular).mpr
      ⟨templateLocked, template_signed⟩

end Template

end CkbAuth
