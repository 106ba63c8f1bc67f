import CkbAuth.DemoUnlocks

/-!
# What unlocks the Rust demo

The whole of the Rust demo, with its own call of `ckb_auth`.  A linked auth program has to accept
what stands behind the length of the lock; a spawned one has to end.
-/

namespace CkbAuth

open CRun

/-! ## ckb_auth in Rust -/

section

variable {env : Env} {child : ChildMemory} {loader : Loader} {entry : Rs.CkbEntryType}
  {id : Rs.CkbAuthType} {s msg : Bytes} {m : Mem Region} {p q : Prog.Ptr Region}

/-- What is taken for an acceptance. -/
inductive Rs.Passes (env : Env) (child : ChildMemory) (loader : Loader) (entry : Rs.CkbEntryType)
    (id : Rs.CkbAuthType) (s msg : Bytes) : Prop
  | linked (category : entry.entryCategory = .dynamicLinking)
      (opened : loader.dlopen2 entry.codeHash entry.hashType = 0)
      (symbol : loader.dlsym entry.codeHash entry.hashType = true)
      (authorised : (schemeOf env id.algorithmId.toU8).Authorises s msg id.pubkeyHash)
  | spawned (category : entry.entryCategory = .spawn)
      (started : loader.spawn entry.codeHash entry.hashType = 0)
      (ended : ∃ fuel code, exitCode (CkbAuth.main env fuel child (rsArgs id s msg)) = .ret code)

/-- The Rust side does not know of Solana, Monero and Cardano. -/
theorem regular_toU8 (ed : Ed25519) (id : Rs.AuthAlgorithmIdType) (s : Bytes) :
    Regular ed id.toU8 s := by
  refine ⟨fun h ↦ absurd h ?_, fun h ↦ absurd h ?_, fun h ↦ absurd h ?_⟩
  all_goals
    cases id <;> decide

theorem rs_ckbAuthDl_iff (hload : ckbSecp256k1CustomVerifyOnlyInitialize env = .ok ())
    (hauth : loader.NamesAuth entry.codeHash entry.hashType) (hp : p.Holds m s)
    (hsize : s.length < 2 ^ 32) (hq : q.Holds m msg) (hmsg : msg.length = 32) :
    (∃ fuel, (Rs.ckbAuthDl env fuel loader entry id p s.length q).outcome m = .ret (.ok ())) ↔
      loader.dlopen2 entry.codeHash entry.hashType = 0 ∧
        loader.dlsym entry.codeHash entry.hashType = true ∧
        (schemeOf env id.algorithmId.toU8).Authorises s msg id.pubkeyHash := by
  have hdispatch := @dispatch_authorises_iff env m p q s msg id.pubkeyHash hload hp
    id.pubkeyHash_length hq hmsg id.algorithmId.toU8 (regular_toU8 ..)
  by_cases hopen : loader.dlopen2 entry.codeHash entry.hashType = 0
  · by_cases hsym : loader.dlsym entry.codeHash entry.hashType = true
    · rw [and_iff_right hopen, and_iff_right hsym, ← hdispatch]
      refine exists_congr fun fuel ↦ ?_
      rw [Rs.ckbAuthDl, if_neg (not_not_intro hopen), if_neg (not_not_intro hsym), hauth,
        Nat.mod_eq_of_lt hsize, ← outcome_ckbAuthValidate (by decide), Prog.outcome_bind,
        Outcome.bind_eq_ret_iff, ← Prog.outcome_catchFail_eq_ok_iff]
      constructor
      · rintro ⟨rcCode, hrun, hok⟩
        cases rcCode with
        | ok => exact hrun
        | error e => cases hok
      · exact fun hrun ↦ ⟨_, hrun, rfl⟩
    · refine iff_of_false ?_ fun h ↦ hsym h.2.1
      rintro ⟨fuel, h⟩
      rw [Rs.ckbAuthDl, if_neg (not_not_intro hopen), if_pos hsym] at h
      cases h
  · refine iff_of_false ?_ fun h ↦ hopen h.1
    rintro ⟨fuel, h⟩
    rw [Rs.ckbAuthDl, if_pos hopen] at h
    cases h

theorem passes_linked_iff (hcategory : entry.entryCategory = .dynamicLinking) :
    Rs.Passes env child loader entry id s msg ↔
      loader.dlopen2 entry.codeHash entry.hashType = 0 ∧
        loader.dlsym entry.codeHash entry.hashType = true ∧
        (schemeOf env id.algorithmId.toU8).Authorises s msg id.pubkeyHash := by
  constructor
  · rintro (⟨-, hopen, hsym, hauthorised⟩ | ⟨hspawn, -, -⟩)
    · exact ⟨hopen, hsym, hauthorised⟩
    · rw [hcategory] at hspawn
      cases hspawn
  · rintro ⟨hopen, hsym, hauthorised⟩
    exact .linked hcategory hopen hsym hauthorised

theorem passes_spawned_iff (hcategory : entry.entryCategory = .spawn) :
    Rs.Passes env child loader entry id s msg ↔
      loader.spawn entry.codeHash entry.hashType = 0 ∧
        ∃ fuel code, exitCode (CkbAuth.main env fuel child (rsArgs id s msg)) = .ret code := by
  constructor
  · rintro (⟨hlink, -, -, -⟩ | ⟨-, hstart, hended⟩)
    · rw [hcategory] at hlink
      cases hlink
    · exact ⟨hstart, hended⟩
  · rintro ⟨hstart, hended⟩
    exact .spawned hcategory hstart hended

theorem rs_ckbAuth_passes_iff (hload : ckbSecp256k1CustomVerifyOnlyInitialize env = .ok ())
    (hauth : loader.NamesAuth entry.codeHash entry.hashType) (hp : p.Holds m s)
    (hsize : s.length < 2 ^ 32) (hq : q.Holds m msg) (hmsg : msg.length = 32) :
    (∃ fuel, (Rs.ckbAuth env fuel child loader entry id p s.length q).outcome m =
      .ret (.ok ())) ↔ Rs.Passes env child loader entry id s msg := by
  cases hcategory : entry.entryCategory with
  | dynamicLinking =>
      simp only [Rs.ckbAuth, hcategory]
      rw [rs_ckbAuthDl_iff hload hauth hp hsize hq hmsg, passes_linked_iff hcategory]
  | spawn =>
      simp only [outcome_rs_ckbAuth_spawn hcategory hauth id hp hq hmsg]
      rw [passes_spawned_iff hcategory]
      by_cases hstart : loader.spawn entry.codeHash entry.hashType = 0
      · simp only [if_pos hstart, and_iff_right hstart, Outcome.bind_eq_ret_iff, and_true]
      · refine iff_of_false ?_ fun h ↦ hstart h.1
        rintro ⟨fuel, h⟩
        rw [if_neg hstart] at h
        cases h

end

namespace RsDemo

open Rs (AuthAlgorithmIdType EntryCategoryType CkbAuthError)

variable {tx : Transaction} {fuel authFuel : ℕ} {args w : Bytes} {env : Env}
  {child : ChildMemory} {loader : Loader} {verify : Bytes → Bool}

/-! ## The script -/

@[simp] def errorLoadDLError : ℤ := 8
@[simp] def errorRunAuthError : ℤ := 9

/-- `From<CkbAuthError> for Error` -/
def authErrorInto : CkbAuthError → Outcome Unit
  | .unknowAlgorithmID => .fail errorEncoding
  | .loadDLError => .fail errorLoadDLError
  | .loadDLFuncError => .fail errorLoadDLError
  | .runDLError => .fail errorRunAuthError
  | _ => panic

/-- The entry and the id of a call, out of the bytes that `main` took them from. -/
def callOf (call : AuthCall) : Option (Rs.CkbEntryType × Rs.CkbAuthType) :=
  match AuthAlgorithmIdType.tryFrom call.algorithmId,
    EntryCategoryType.tryFrom call.entryCategory with
  | .ok algorithmId, .ok entryCategory =>
      if h : call.content.length = 20 then
        some (⟨call.codeHash, call.hashType, entryCategory⟩, ⟨algorithmId, call.content, h⟩)
      else none
  | _, _ => none

/-- `main` of `entry.rs` with its call of `ckb_auth`, the loops of which take `authFuel`. -/
def run (env : Env) (child : ChildMemory) (loader : Loader) (tx : Transaction)
    (fuel authFuel : ℕ) (args : Bytes) (verify : Bytes → Bool) : Outcome Unit :=
  (main env tx fuel args verify).bind fun call ↦
    match callOf call with
    | none => panic
    | some (entry, id) =>
        if h : call.signature.length ≤ 2 ^ 64 ∧ call.message.length ≤ 2 ^ 64 then
          ((Rs.ckbAuth env authFuel child loader entry id ⟨.signature, 0⟩ call.signature.length
            ⟨.message, 0⟩).outcome (bufferMem call.signature call.message h.1 h.2)).bind
              fun
              | .ok _ => .ret ()
              | .error err => authErrorInto err
        else .fault

/-- The script of a group exits with 0. -/
def Unlocks (env : Env) (child : ChildMemory) (loader : Loader) (tx : Transaction) (args : Bytes)
    (verify : Bytes → Bool) : Prop :=
  ∃ fuel authFuel, Enough tx fuel ∧ tx.inputs < fuel ∧
    run env child loader tx fuel authFuel args verify = .ret ()

theorem authErrorInto_ne_ret (err : CkbAuthError) : authErrorInto err ≠ .ret () := by
  cases err <;> rintro ⟨⟩

/-! ## The call -/

theorem lock_le_of_generateSighashAll {msg : Bytes}
    (h : generateSighashAll env tx fuel = .ret msg) :
    ∃ w, tx.witness .groupInput 0 = some w ∧ 20 + lockLength w ≤ w.length := by
  rw [generateSighashAll, maxWitnessSize] at h
  cases hw : tx.witness .groupInput 0 with
  | none =>
      simp only [loadWitness, hw] at h
      cases h
  | some w =>
      rw [loadWitness_eq hw] at h
      refine ⟨w, rfl, ?_⟩
      by_cases hfits : w.length ≤ 32768
      · simp only [if_pos hfits, if_neg (Nat.not_lt.mpr hfits)] at h
        by_cases h20 : w.length < 20
        · rw [if_pos h20] at h
          cases h
        have hlength := @lockLength_overwrite (List.replicate 32768 0) w w.length (by omega)
          (by omega)
        rw [List.take_length] at hlength
        rw [if_neg h20, hlength] at h
        by_cases hlock : w.length < 20 + lockLength w
        · rw [if_pos hlock] at h
          cases h
        · exact Nat.not_lt.mp hlock
      · rw [if_neg hfits] at h
        cases h

/-- What `main` needs to come to its call. -/
structure Reaches (tx : Transaction) (args : Bytes) (verify : Bytes → Bool) (w : Bytes) :
    Prop where
  first : tx.witness .groupInput 0 = some w
  lock : 20 + lockLength w ≤ w.length
  hashed : ∀ v ∈ tx.hashed, v.length ≤ 32768
  verified : verify w = true
  length_args : args.length = 55
  takes : TakesArgs args

theorem Reaches.length_le (h : Reaches tx args verify w) : (w.drop 20).length ≤ 32768 := by
  obtain ⟨rest, hgroup⟩ := exists_groupWitnesses h.first
  have hfirst : w ∈ tx.hashed := by
    rw [Transaction.hashed, hgroup]
    exact List.mem_cons_self
  have hle := h.hashed w hfirst
  rw [List.length_drop]
  omega

theorem main_ret {call : AuthCall} (hfuel : Enough tx fuel) (hinputs : tx.inputs < fuel)
    (hcall : main env tx fuel args verify = .ret call) :
    ∃ w, Reaches tx args verify w ∧
      call = authCall args (w.drop 20) (env.hash.blake2b (sighashStream tx w)) := by
  obtain ⟨msg, hmsg, hrest⟩ := Outcome.bind_eq_ret_iff.mp hcall
  obtain ⟨w, hw, hlock⟩ := lock_le_of_generateSighashAll (Outcome.mapFail_eq_ret_iff.mp hmsg)
  obtain ⟨rest, hgroup⟩ := exists_groupWitnesses hw
  have hargs : args.length = 55 := by
    by_contra hargs
    rw [if_pos hargs] at hrest
    cases hrest
  have hverify : verify w = true := by
    by_contra hverify
    rw [if_neg (not_not_intro hargs)] at hrest
    split at hrest
    next => cases hrest
    next =>
      simp only [hw, if_pos hverify] at hrest
      cases hrest
  have hruns : (∀ v ∈ tx.hashed, v.length ≤ 32768) ∧ TakesArgs args := by
    by_contra hno
    obtain ⟨e, hfails | hfails⟩ :=
      @main_fails tx fuel w args rest env verify hgroup hlock hfuel hinputs hargs hverify hno
    · rw [hfails] at hcall
      cases hcall
    · rw [hfails] at hcall
      cases hcall
  refine ⟨w, ⟨hw, hlock, hruns.1, hverify, hargs, hruns.2⟩, ?_⟩
  rw [main_eq hgroup hlock hfuel hinputs hargs hverify hruns.1 hruns.2] at hcall
  exact (Outcome.ret.inj hcall).symm

/-- The entry of a call is the one that the arguments name. -/
theorem entry_of_callOf {call : AuthCall} {entry : Rs.CkbEntryType} {id : Rs.CkbAuthType}
    (h : callOf call = some (entry, id)) :
    entry.codeHash = call.codeHash ∧ entry.hashType = call.hashType := by
  rw [callOf] at h
  split at h
  next =>
    split at h
    next =>
      obtain ⟨rfl, -⟩ := Prod.mk.inj (Option.some.inj h)
      exact ⟨rfl, rfl⟩
    next => cases h
  next => cases h

theorem exists_callOf (hargs : args.length = 55) (htakes : TakesArgs args) (s msg : Bytes) :
    ∃ entry id, callOf (authCall args s msg) = some (entry, id) := by
  obtain ⟨halgorithm, -, hcategory⟩ := htakes
  obtain ⟨algorithmId, hid⟩ := exists_algorithm_iff.mpr halgorithm
  obtain ⟨category, hcat⟩ : ∃ c : EntryCategoryType, c.toU8 = args.getD 54 0 :=
    hcategory.elim (fun h ↦ ⟨.dynamicLinking, h.symm⟩) fun h ↦ ⟨.spawn, h.symm⟩
  have hcontent : ((args.drop 1).take 20).length = 20 := by
    rw [List.length_take, List.length_drop, hargs]
    rfl
  refine ⟨⟨(args.drop 21).take 32, args.getD 53 0, category⟩, ⟨algorithmId, _, hcontent⟩, ?_⟩
  rw [callOf, authCall]
  simp only [algorithm_taken_iff.mpr hid, category_taken_iff.mpr hcat]
  rw [dif_pos hcontent]

/-- The script exits with 0 exactly if it comes to its call, and there a linked auth program
finds that a key has signed, or a spawned one ends, whatever its verdict. -/
theorem rsDemo_unlocks_iff (hload : ckbSecp256k1CustomVerifyOnlyInitialize env = .ok ())
    (hauth : loader.NamesAuth ((args.drop 21).take 32) (args.getD 53 0)) :
    Unlocks env child loader tx args verify ↔ ∃ w, Reaches tx args verify w ∧ ∃ entry id,
      callOf (authCall args (w.drop 20) (env.hash.blake2b (sighashStream tx w))) =
        some (entry, id) ∧
      Rs.Passes env child loader entry id (w.drop 20)
        (env.hash.blake2b (sighashStream tx w)) := by
  have hmsg (w : Bytes) : (env.hash.blake2b (sighashStream tx w)).length = 32 :=
    env.hash.blake2b_length _
  have hfits {w : Bytes} (h : Reaches tx args verify w) : (w.drop 20).length ≤ 2 ^ 64 ∧
      (env.hash.blake2b (sighashStream tx w)).length ≤ 2 ^ 64 := by
    have hle := h.length_le
    have h32 := hmsg w
    exact ⟨by omega, by omega⟩
  have hnamed {entry : Rs.CkbEntryType} {id : Rs.CkbAuthType} {s msg : Bytes}
      (hcall : callOf (authCall args s msg) = some (entry, id)) :
      loader.NamesAuth entry.codeHash entry.hashType := by
    obtain ⟨hcode, htype⟩ := entry_of_callOf hcall
    rw [hcode, htype]
    exact hauth
  have hiff {w : Bytes} (h : Reaches tx args verify w) {entry : Rs.CkbEntryType}
      {id : Rs.CkbAuthType} (hcall : callOf (authCall args (w.drop 20)
        (env.hash.blake2b (sighashStream tx w))) = some (entry, id)) :=
    @rs_ckbAuth_passes_iff env child loader entry id (w.drop 20) _
    (bufferMem _ _ (hfits h).1 (hfits h).2) ⟨.signature, 0⟩ ⟨.message, 0⟩ hload (hnamed hcall)
    (bufferMem_holds_signature ..) (h.length_le.trans_lt (by decide)) (bufferMem_holds_message ..)
    (hmsg w)
  constructor
  · rintro ⟨fuel, authFuel, hfuel, hinputs, hrun⟩
    obtain ⟨call, hcall, hrun⟩ := Outcome.bind_eq_ret_iff.mp hrun
    obtain ⟨w, hreaches, rfl⟩ := main_ret hfuel hinputs hcall
    obtain ⟨entry, id, hcallOf⟩ := exists_callOf hreaches.length_args hreaches.takes (w.drop 20)
      (env.hash.blake2b (sighashStream tx w))
    refine ⟨w, hreaches, entry, id, hcallOf, (hiff hreaches hcallOf).mp ⟨authFuel, ?_⟩⟩
    rw [hcallOf] at hrun
    dsimp only at hrun
    split at hrun
    next =>
      obtain ⟨result, hresult, hrun⟩ := Outcome.bind_eq_ret_iff.mp hrun
      cases result with
      | ok => exact hresult
      | error err => exact absurd hrun (authErrorInto_ne_ret err)
    next => cases hrun
  · rintro ⟨w, hreaches, entry, id, hcallOf, hpasses⟩
    obtain ⟨authFuel, hrun⟩ := (hiff hreaches hcallOf).mpr hpasses
    obtain ⟨rest, hgroup⟩ := exists_groupWitnesses hreaches.first
    obtain ⟨fuel, hfuel, hinputs⟩ :=
      ((eventually_enough tx).and (Filter.eventually_gt_atTop tx.inputs)).exists
    refine ⟨fuel, authFuel, hfuel, hinputs, ?_⟩
    rw [run, main_eq hgroup hreaches.lock hfuel hinputs hreaches.length_args hreaches.verified
      hreaches.hashed hreaches.takes, Outcome.bind_ret, hcallOf]
    exact (dif_pos (hfits hreaches)).trans (Outcome.bind_eq_ret_iff.mpr ⟨_, hrun, rfl⟩)

/-! ## A child that rejects -/

def spawnedArgs : Bytes := List.replicate 53 0 ++ [1, 2]

def lockOnlyMessage : Bytes :=
  KnownAnswers.empty.env.hash.blake2b (sighashStream lockOnlyTransaction lockOnly.asSlice)

theorem lockOnly_rejected :
    exitCode (CkbAuth.main KnownAnswers.empty.env 0 bareChild
      (rsArgs zeroSignatureId [7, 8] lockOnlyMessage)) = .ret errorInvalidArg := by
  decide +kernel

theorem lockOnly_reaches :
    Reaches lockOnlyTransaction spawnedArgs sizeMatches lockOnly.asSlice where
  first := by decide +kernel
  lock := by decide
  hashed := by decide +kernel
  verified := by decide
  length_args := by decide
  takes := by decide

/-- The lock is unlocked by two bytes that are no signature. -/
theorem lockOnly_unlocks :
    Unlocks KnownAnswers.empty.env bareChild readyLoader lockOnlyTransaction spawnedArgs
      sizeMatches := by
  refine (rsDemo_unlocks_iff KnownAnswers.empty.env_initialize
    (readyLoader_namesAuth _ _)).mpr
    ⟨_, lockOnly_reaches, ⟨List.replicate 32 0, 1, .spawn⟩, zeroSignatureId, rfl, ?_⟩
  exact .spawned rfl rfl ⟨0, _, lockOnly_rejected⟩

end RsDemo

end CkbAuth
