import CkbAuth.AuthSpec
import CkbAuth.SolanaSpec
import CkbAuth.SpawnSpec
import CkbAuth.VerifySpec

/-!
# Spawning and dynamic linking give one verdict

What `ckb_auth_validate` accepts is decided by the bytes at the signature and at
the message, so it does not matter whether they lie with the caller or have been
copied into a child.
-/

namespace CkbAuth

open CRun

variable {env : Env} {m m' : Mem Region} {p p' q q' : Prog.Ptr Region} {s msg hash : Bytes}
variable {fuel : ℕ}

/-! ## One verdict in two memories -/

/-- A validator accepts in both memories, and with the same output. -/
def SameVerdict (func : ValidateSignature) (m m' : Mem Region) (p p' : Prog.Ptr Region) (n : ℕ)
    (msg : Bytes) : Prop :=
  ∀ out, (func p n msg 32 20).outcome m = .ret out ↔ (func p' n msg 32 20).outcome m' = .ret out

theorem SameVerdict.of_eq {func : ValidateSignature} {n : ℕ}
    (h : (func p n msg 32 20).outcome m = (func p' n msg 32 20).outcome m') :
    SameVerdict func m m' p p' n msg := fun _ ↦ by rw [h]

theorem sameVerdict_btc (hs : p.Holds m s) (hs' : p'.Holds m' s) :
    SameVerdict (validateSignatureBtc env) m m' p p' s.length msg := by
  by_cases h65 : s.length = 65
  · exact .of_eq (by rw [h65, outcome_validateSignatureBtc hs h65,
      outcome_validateSignatureBtc hs' h65])
  · exact .of_eq (by rw [validateSignatureBtc_size h65, validateSignatureBtc_size h65])

theorem sameVerdict_schnorr (hs : p.Holds m s) (hs' : p'.Holds m' s) :
    SameVerdict (validateSignatureSchnorr env) m m' p p' s.length msg := by
  by_cases h96 : s.length = 96
  · exact .of_eq (by rw [h96, outcome_validateSignatureSchnorr hs h96,
      outcome_validateSignatureSchnorr hs' h96])
  · exact .of_eq (by rw [validateSignatureSchnorr_size h96, validateSignatureSchnorr_size h96])

theorem sameVerdict_monero (hs : p.Holds m s) (hs' : p'.Holds m' s) :
    SameVerdict (validateSignatureMonero env) m m' p p' s.length msg := by
  by_cases h129 : s.length = 129
  · exact .of_eq (by rw [h129, outcome_validateSignatureMonero hs h129,
      outcome_validateSignatureMonero hs' h129])
  · exact .of_eq (by rw [validateSignatureMonero_size h129, validateSignatureMonero_size h129])

/-- What is read of a witness, but not where it is read, is the same. -/
theorem sameVerdict_cardano (hs : p.Holds m s) (hs' : p'.Holds m' s) :
    SameVerdict (validateSignatureCardano env fuel) m m' p p' s.length msg := by
  intro out
  simp only [outcome_validateSignatureCardano, Outcome.bind_eq_ret_iff, Outcome.mapFail_eq_ret_iff,
    outcome_getCardanoData_eq_ret_iff hs, outcome_getCardanoData_eq_ret_iff hs']
  constructor
  · rintro ⟨_, ⟨h, k, sg, hwalk, rfl⟩, hout⟩
    exact ⟨_, ⟨h, k, sg, hwalk, rfl⟩, hout⟩
  · rintro ⟨_, ⟨h, k, sg, hwalk, rfl⟩, hout⟩
    exact ⟨_, ⟨h, k, sg, hwalk, rfl⟩, hout⟩

/-- The search for the signer ends inside the 512 bytes of the wrapping. -/
def SearchInBuffer (w pk : Bytes) (M : LegacyMessage) : Prop :=
  98 + M.keysStart + 32 * M.numSigners.toNat ≤ 512 ∨ ∃ i < M.numSigners.toNat,
    98 + M.keysStart + 32 * i + 32 ≤ 512 ∧ (w.drop (98 + M.keysStart + 32 * i)).take 32 = pk

theorem signerFound_iff_of_inBuffer (hs : p.Holds m s) (h512 : s.length = 512) {pk : Bytes}
    {M : LegacyMessage} (hin : SearchInBuffer s pk M) :
    SignerFound m (p + (98 + M.keysStart)) pk M.numSigners.toNat ↔
      ∃ i < M.numSigners.toNat, 98 + M.keysStart + 32 * i + 32 ≤ 512 ∧
        (s.drop (98 + M.keysStart + 32 * i)).take 32 = pk := by
  constructor
  · rintro ⟨i, hi, _, heq⟩
    rcases hin with hfew | hfound
    · refine ⟨i, hi, by omega, ?_⟩
      rw [← heq, Prog.Ptr.add_add, hs.slice (by omega)]
    · exact hfound
  · rintro ⟨i, hi, hle, heq⟩
    refine ⟨i, hi, ?_, ?_⟩
    · rw [Prog.Ptr.add_add]
      exact hs.mapped (by omega)
    · rw [Prog.Ptr.add_add, hs.slice (by omega), heq]

/-- What passes every check but the search for its signer, for a key hash, has that search in
the wrapping. -/
def SearchesInBuffer (env : Env) (s msg hash : Bytes) : Prop :=
  ∀ sig pk M, Wraps s sig pk M → M.blockhash = msg → env.ed.verify sig M.bytes pk = 1 →
    (env.hash.blake2b pk).take 20 = hash → SearchInBuffer s pk M

theorem solana_ret_congr (hs : p.Holds m s) (hs' : p'.Holds m' s) (hmsg : msg.length = 32)
    (hhash : hash.length = 20) (hin : SearchesInBuffer env s msg hash) {out : Bytes}
    (hout : hash.take 20 = out.take 20) :
    (validateSignatureSolana env p s.length msg 32 20).outcome m = .ret out ↔
      (validateSignatureSolana env p' s.length msg 32 20).outcome m' = .ret out := by
  by_cases h512 : s.length = 512
  · have hiff : ∀ {m p}, Prog.Ptr.Holds m p s →
        ((validateSignatureSolana env p s.length msg 32 20).outcome m = .ret out ↔ _) :=
      fun hs ↦ hmsg ▸ outcome_validateSignatureSolana_eq_ret_iff hs h512 hmsg
    rw [hiff hs, hiff hs']
    refine exists_congr fun sig ↦ exists_congr fun pk ↦ exists_congr fun M ↦
      and_congr_right fun hwraps ↦ and_congr_right fun hblock ↦
        and_congr_left fun ⟨hverify, hpk⟩ ↦ ?_
    have hname : (env.hash.blake2b pk).take 20 = hash := by
      rw [List.take_of_length_le hhash.le, ← hpk, List.take_take, Nat.min_self] at hout
      exact hout.symm
    have hsearch := hin sig pk M hwraps hblock hverify hname
    rw [signerFound_iff_of_inBuffer hs h512 hsearch, signerFound_iff_of_inBuffer hs' h512 hsearch]
  · simp [validateSignatureSolana, h512]

theorem verify_ret_congr {convert : ConvertMsg} {g : Bytes → Outcome Bytes}
    (hg : Converts convert g) (hmsg : q.Holds m msg) (hmsg' : q'.Holds m' msg)
    (hlen : msg.length = 32) {n : ℕ} {func : ValidateSignature}
    (hfunc : ∀ newMsg, g msg = .ret newMsg → ∀ out, hash.take 20 = out.take 20 →
      ((func p n newMsg 32 20).outcome m = .ret out ↔
        (func p' n newMsg 32 20).outcome m' = .ret out)) :
    (verify hash p n q 32 func convert).outcome m = .ret () ↔
      (verify hash p' n q' 32 func convert).outcome m' = .ret () := by
  rw [outcome_verify hg hmsg hlen, outcome_verify hg hmsg' hlen, Outcome.bind_eq_ret_iff,
    Outcome.bind_eq_ret_iff]
  refine exists_congr fun newMsg ↦ and_congr_right fun hnew ↦ ?_
  rw [Outcome.bind_eq_ret_iff, Outcome.bind_eq_ret_iff]
  exact exists_congr fun out ↦ and_congr_left fun hcompare ↦
    hfunc newMsg hnew out (Outcome.ite_ret_eq_ret_iff.mp hcompare)

/-- The routes with a size check of their own for the signature. -/
theorem checked_verify_ret_congr {convert : ConvertMsg} {g : Bytes → Outcome Bytes}
    (hg : Converts convert g) (hmsg : q.Holds m msg) (hmsg' : q'.Holds m' msg)
    (hlen : msg.length = 32) {func : ValidateSignature}
    (hfunc : ∀ newMsg, s.length = 65 →
      (func p 65 newMsg 32 20).outcome m = (func p' 65 newMsg 32 20).outcome m') :
    (Prog.check (s.length = secp256k1SignatureSize) errorInvalidArg >>= fun _ ↦
        verify hash p s.length q 32 func convert).outcome m = .ret () ↔
      (Prog.check (s.length = secp256k1SignatureSize) errorInvalidArg >>= fun _ ↦
        verify hash p' s.length q' 32 func convert).outcome m' = .ret () := by
  simp only [Prog.outcome_bind, Prog.outcome_check, Outcome.bind_unit_eq_ret_iff,
    Outcome.ite_ret_eq_ret_iff]
  refine and_congr_right fun h65 ↦ verify_ret_congr hg hmsg hmsg' hlen fun newMsg _ ↦ ?_
  have h65 : s.length = 65 := h65
  rw [h65]
  exact fun out _ ↦ SameVerdict.of_eq (hfunc newMsg h65) out

theorem verifyMultisig_ret_congr (hs : p.Holds m s) (hs' : p'.Holds m' s) (hmsg : q.Holds m msg)
    (hmsg' : q'.Holds m' msg) (hlen : msg.length = 32) (hhash : hash.length = 20) :
    (verifyMultisig env p s.length q hash).outcome m = .ret () ↔
      (verifyMultisig env p' s.length q' hash).outcome m' = .ret () := by
  by_cases hsize : 4 ≤ s.length
  · rw [outcome_verifyMultisig_eq_ret_iff hs hsize hhash hmsg hlen,
      outcome_verifyMultisig_eq_ret_iff hs' hsize hhash hmsg' hlen]
  · exact iff_of_false (fun h ↦ hsize (mapped_of_verifyMultisig h).1)
      fun h ↦ hsize (mapped_of_verifyMultisig h).1

theorem dispatch_ret_congr (hs : p.Holds m s) (hs' : p'.Holds m' s) (hmsg : q.Holds m msg)
    (hmsg' : q'.Holds m' msg) (hlen : msg.length = 32) (hhash : hash.length = 20) (id : UInt8)
    (hin : id = AuthAlgorithmIdType.solana.toByte → SearchesInBuffer env s msg hash) :
    (dispatch env fuel id p s.length q 32 hash).outcome m = .ret () ↔
      (dispatch env fuel id p' s.length q' 32 hash).outcome m' = .ret () := by
  unfold dispatch
  cases halg : AuthAlgorithmIdType.ofByte id with
  | none => exact iff_of_eq rfl
  | some alg =>
      cases alg with
      | ckb =>
          exact checked_verify_ret_congr converts_copy hmsg hmsg' hlen fun newMsg h65 ↦ by
            rw [outcome_validateSignatureCkb hs h65, outcome_validateSignatureCkb hs' h65]
      | ethereum =>
          exact checked_verify_ret_congr converts_eth hmsg hmsg' hlen fun newMsg h65 ↦ by
            rw [outcome_validateSignatureEth hs h65, outcome_validateSignatureEth hs' h65]
      | eos =>
          exact checked_verify_ret_congr converts_eos hmsg hmsg' hlen fun newMsg h65 ↦ by
            rw [outcome_validateSignatureEth hs h65, outcome_validateSignatureEth hs' h65]
      | tron =>
          exact checked_verify_ret_congr converts_tron hmsg hmsg' hlen fun newMsg h65 ↦ by
            rw [outcome_validateSignatureEth hs h65, outcome_validateSignatureEth hs' h65]
      | bitcoin =>
          exact verify_ret_congr (converts_btc _ _) hmsg hmsg' hlen
            fun _ _ out _ ↦ sameVerdict_btc hs hs' out
      | dogecoin =>
          exact verify_ret_congr (converts_btc _ _) hmsg hmsg' hlen
            fun _ _ out _ ↦ sameVerdict_btc hs hs' out
      | litecoin =>
          exact verify_ret_congr (converts_btc _ _) hmsg hmsg' hlen
            fun _ _ out _ ↦ sameVerdict_btc hs hs' out
      | ckbMultisig => exact verifyMultisig_ret_congr hs hs' hmsg hmsg' hlen hhash
      | schnorr =>
          exact verify_ret_congr converts_copy hmsg hmsg' hlen
            fun _ _ out _ ↦ sameVerdict_schnorr hs hs' out
      | monero =>
          exact verify_ret_congr converts_copy hmsg hmsg' hlen
            fun _ _ out _ ↦ sameVerdict_monero hs hs' out
      | cardano =>
          exact verify_ret_congr converts_copy hmsg hmsg' hlen
            fun _ _ out _ ↦ sameVerdict_cardano hs hs' out
      | solana =>
          refine verify_ret_congr converts_copy hmsg hmsg' hlen fun newMsg hnew out hout ↦ ?_
          obtain rfl : msg = newMsg := by simpa using hnew
          exact solana_ret_congr hs hs' hlen hhash (hin (ofByte_eq_some_iff.mp halg)) hout
      | ownerLock =>
          simp only [Prog.outcome_check]
      | rsa => exact iff_of_eq rfl
      | iso97962 => exact iff_of_eq rfl

/-! ## The two ways of ckb_auth -/

section Parent

variable {child : ChildMemory} {loader : Loader} {entry : CkbEntryType} {id : CkbAuthType}

theorem outcome_hexString {bin : Bytes} (h32 : bin.length * 2 + 1 < 2 ^ 32) :
    (hexString bin).outcome m = .ret (encodes_ckbGethex.string bin) := by
  obtain ⟨hex, hhex, hstring⟩ := ckbBin2hex_eq h32
  rw [hexString, Prog.outcome_bind, hhex, ← hstring]
  rfl

/-- Spawning: the encoded arguments are handed to the child. -/
theorem outcome_ckbAuth_spawn (entry : CkbEntryType)
    (hentry : entry.entryCategory = entryCategorySpawn)
    (hauth : loader.NamesAuth entry.codeHash entry.hashType)
    (hp : p.Holds m s) (hsig : s.length ≤ 1024 * 8) (hq : q.Holds m msg) (hmsg : msg.length = 32)
    (hstart : loader.spawn entry.codeHash entry.hashType = 0) :
    (ckbAuth env fuel child loader entry id p s.length q).outcome m =
      (exitCode (main env fuel child
        (encodedArgs encodes_ckbGethex id.algorithmId s msg id.content))).bind fun code ↦
          if code = 0 then .ret () else .fail code := by
  have hsigbytes : (Prog.bytes p s.length).outcome m = .ret s := hp.bytes_all rfl
  have hmsgbytes : (Prog.bytes q 32).outcome m = .ret msg := hq.bytes_all hmsg
  have hcontent := id.content_length
  rw [Loader.NamesAuth] at hauth
  rw [ckbAuth, if_neg (by rw [hentry]; decide), if_pos hentry, hauth, authProgram]
  simp only [Prog.outcome_bind, Prog.outcome_check, Prog.outcome_done, hsigbytes, hmsgbytes,
    Outcome.bind_ret, outcome_hexString (show [id.algorithmId].length * 2 + 1 < 2 ^ 32 by simp),
    outcome_hexString (show s.length * 2 + 1 < 2 ^ 32 by omega),
    outcome_hexString (show msg.length * 2 + 1 < 2 ^ 32 by omega),
    outcome_hexString (show id.content.length * 2 + 1 < 2 ^ 32 by omega), hstart, if_true]
  rw [if_pos (by omega), Outcome.bind_ret]
  rfl

theorem outcome_ckbAuth_dynamicLinking (entry : CkbEntryType)
    (hentry : entry.entryCategory = entryCategoryDynamicLinking)
    (hauth : loader.NamesAuth entry.codeHash entry.hashType) {n : ℕ}
    (hload : loader.dlopen2 entry.codeHash entry.hashType = 0)
    (hsym : loader.dlsym entry.codeHash entry.hashType = true) :
    (ckbAuth env fuel child loader entry id p n q).outcome m =
      (ckbAuthValidate env fuel id.algorithmId (some p) n (some q) 32 id.content 20).outcome m := by
  rw [Loader.NamesAuth] at hauth
  rw [ckbAuth, if_pos hentry, hauth, authProgram]
  simp only [Prog.outcome_bind, Prog.outcome_check, hload, hsym, if_true, Outcome.bind_ret]

/-- A signature that does not fit is not handed to a child. -/
theorem outcome_ckbAuth_spawn_long (entry : CkbEntryType)
    (hentry : entry.entryCategory = entryCategorySpawn) {n : ℕ} (hsig : 1024 * 8 < n) :
    (ckbAuth env fuel child loader entry id p n q).outcome m = .fail ckbInvalidData := by
  rw [ckbAuth, if_neg (by rw [hentry]; decide), if_pos hentry, Prog.outcome_bind,
    Prog.outcome_check, if_neg (by omega), Outcome.bind_fail]

/-- A signature of at most 8 KiB is accepted in both ways or in none; a longer
one is not spawned. -/
theorem spawn_agrees_with_dynamicLinking (hmd : MdErrors env)
    (hauth : loader.NamesAuth entry.codeHash entry.hashType)
    (hload : loader.dlopen2 entry.codeHash entry.hashType = 0)
    (hsym : loader.dlsym entry.codeHash entry.hashType = true)
    (hstart : loader.spawn entry.codeHash entry.hashType = 0)
    (hp : p.Holds m s) (hq : q.Holds m msg) (hmsg : msg.length = 32) :
    (s.length ≤ 1024 * 8 →
      (id.algorithmId = AuthAlgorithmIdType.solana.toByte →
        SearchesInBuffer env s msg id.content) →
      ((ckbAuth env fuel child loader { entry with entryCategory := entryCategorySpawn } id p
          s.length q).outcome m = .ret () ↔
        (ckbAuth env fuel child loader { entry with entryCategory := entryCategoryDynamicLinking }
          id p s.length q).outcome m = .ret ())) ∧
    (1024 * 8 < s.length →
      (ckbAuth env fuel child loader { entry with entryCategory := entryCategorySpawn } id p
        s.length q).outcome m = .fail ckbInvalidData) := by
  constructor
  · intro hsig hin
    have hchild : s.length ≤ 1024 * 64 := by omega
    have hhash := id.content_length
    rw [outcome_ckbAuth_spawn { entry with entryCategory := entryCategorySpawn } rfl hauth hp
        hsig hq hmsg hstart,
      outcome_ckbAuth_dynamicLinking { entry with entryCategory := entryCategoryDynamicLinking } rfl
        hauth hload hsym, outcome_ckbAuthValidate (by decide),
      dispatch_ret_congr hp (child.holds_signature hchild hmsg) hq
        (child.holds_message hchild hmsg) hmsg hhash id.algorithmId hin,
      ← outcome_ckbAuthValidate (by decide)]
    have hexit := @exitCode_main_eq_zero_iff env fuel child _ encodes_ckbGethex id.algorithmId s _ _
      hmd hmsg hhash
    rw [and_iff_right hchild, childValidate] at hexit
    rw [← hexit]
    cases exitCode (main env fuel child
        (encodedArgs encodes_ckbGethex id.algorithmId s msg id.content)) with
    | ret code => by_cases hzero : code = 0 <;> simp [hzero]
    | fail e => simp
    | exit e => simp
    | fault => simp
    | running => simp
  · exact fun hsig ↦ outcome_ckbAuth_spawn_long _ rfl hsig

end Parent

/-! ## A witness for one key -/

def someEntry (entryCategory : UInt8) : CkbEntryType := ⟨List.replicate 32 0, 0, entryCategory⟩

def soleMultisigId : CkbAuthType := ⟨6, soleScriptHash.take 20, length_soleScriptHash⟩

theorem soleWitness_spawned_and_linked :
    (ckbAuth soleAnswers.env 0 bareChild readyLoader (someEntry entryCategorySpawn) soleMultisigId
        ⟨.signature, 0⟩ soleWitness.length ⟨.message, 0⟩).outcome soleMem = .ret () ∧
    (ckbAuth soleAnswers.env 0 bareChild readyLoader (someEntry entryCategoryDynamicLinking)
        soleMultisigId ⟨.signature, 0⟩ soleWitness.length ⟨.message, 0⟩).outcome soleMem =
          .ret () := by
  have hlinked : (ckbAuth soleAnswers.env 0 bareChild readyLoader
      (someEntry entryCategoryDynamicLinking) soleMultisigId ⟨.signature, 0⟩ soleWitness.length
      ⟨.message, 0⟩).outcome soleMem = .ret () := by decide +kernel
  have hagree := @spawn_agrees_with_dynamicLinking _ soleMem _ _ _ _ 0 bareChild readyLoader
    (someEntry 0) soleMultisigId (mdErrors_of_knownAnswers soleAnswers)
    (readyLoader_namesAuth _ _) rfl rfl rfl (bufferMem_holds_signature ..)
    (bufferMem_holds_message ..) (by decide +kernel)
  exact ⟨(hagree.1 (by decide +kernel) fun hid ↦ absurd hid (by decide)).mpr hlinked, hlinked⟩

/-! ## A witness for 97 keys -/

theorem slice_flatten_replicate (b rest : Bytes) {n i : ℕ} (hi : i < n) :
    (((List.replicate n b).flatten ++ rest).drop (i * b.length)).take b.length = b := by
  induction i generalizing n with
  | zero =>
      obtain ⟨n, rfl⟩ := Nat.exists_eq_succ_of_ne_zero (Nat.ne_of_gt hi)
      simp [List.replicate_succ]
  | succ i ih =>
      obtain ⟨n, rfl⟩ := Nat.exists_eq_succ_of_ne_zero (Nat.ne_of_gt (Nat.lt_of_le_of_lt
        (Nat.zero_le _) hi))
      have hdrop : ((List.replicate (n + 1) b).flatten ++ rest).drop ((i + 1) * b.length) =
          ((List.replicate n b).flatten ++ rest).drop (i * b.length) := by
        rw [List.replicate_succ, List.flatten_cons, List.append_assoc, Nat.succ_mul, Nat.add_comm,
          ← List.drop_drop, List.drop_left]
      rw [hdrop]
      exact ih (by omega)

def manyScript : Bytes :=
  [0, 0, 97, 97] ++ (List.replicate 97 (solePubkeyHash.take 20)).flatten

def manyScriptHash : Bytes :=
  bytesOfNat 32 0xbf9ead73e23b3fd0aac9811a754458ca81249ab036decb404cc2617cc42c3f52

/-- The same key and the same signature 97 times. -/
def manyWitness : Bytes := manyScript ++ (List.replicate 97 soleSignature).flatten

def manyAnswers : KnownAnswers :=
  { soleAnswers with blake2b := (manyScript, manyScriptHash) :: soleAnswers.blake2b }

theorem length_manyScript : manyScript.length = 1944 := by
  have hlen : (solePubkeyHash.take 20).length = 20 := by simp [solePubkeyHash]
  simp [manyScript, hlen]

theorem length_manyWitness : manyWitness.length = 8249 := by
  have hlen : soleSignature.length = 65 := length_soleSignature
  simp [manyWitness, length_manyScript, hlen]

theorem manyWitness_fits : manyWitness.length ≤ 2 ^ 64 := by
  rw [length_manyWitness]
  decide

theorem multisigScript_manyWitness : multisigScript manyWitness = manyScript :=
  List.take_left' length_manyScript

theorem pubkeyHashAt_manyWitness {i : ℕ} (hi : i < 97) :
    pubkeyHashAt manyWitness i = solePubkeyHash.take 20 := by
  have hlen : (solePubkeyHash.take 20).length = 20 := by simp [solePubkeyHash]
  have hslice := slice_flatten_replicate (solePubkeyHash.take 20)
    (List.replicate 97 soleSignature).flatten hi
  rw [hlen] at hslice
  rw [pubkeyHashAt, manyWitness, manyScript, List.append_assoc, ← List.drop_drop]
  exact hslice

theorem signatureAt_manyWitness {j : ℕ} (hj : j < 97) :
    signatureAt manyWitness j = soleSignature := by
  have hlen : soleSignature.length = 65 := length_soleSignature
  have hslice := slice_flatten_replicate soleSignature [] hj
  rw [hlen, List.append_nil] at hslice
  have hscript : manyWitness.drop 1944 = (List.replicate 97 soleSignature).flatten :=
    List.drop_left' length_manyScript
  rw [← hscript, List.drop_drop] at hslice
  exact hslice

theorem manyAnswers_blake2b : manyAnswers.env.hash.blake2b manyScript = manyScriptHash := by
  have hlen : manyScriptHash.length = 32 := length_bytesOfNat ..
  exact KnownAnswers.env_blake2b rfl hlen

theorem manyWitness_witness :
    MultisigWitness manyAnswers.env manyWitness soleMessage (manyScriptHash.take 20) where
  reserved := rfl
  one_le_pubkeysCnt := show 1 ≤ 97 by decide
  threshold_le := show 97 ≤ 97 by decide
  one_le_threshold := show 1 ≤ 97 by decide
  requireFirstN_le := show 0 ≤ 97 by decide
  length_eq := length_manyWitness
  script := by
    rw [multisigScript_manyWitness, manyAnswers_blake2b]
  signed := by
    have hsigner : signerHash manyAnswers.env soleSignature soleMessage =
        some (solePubkeyHash.take 20) := by decide +kernel
    refine ⟨fun _ ↦ solePubkeyHash.take 20, fun j ↦ ?_, fun j ↦ ⟨j, j.isLt⟩, ?_, fun j ↦ ?_, ?_⟩
    · rw [signatureAt_manyWitness j.isLt]
      exact hsigner
    · intro j k hjk
      exact Fin.ext (Fin.mk.inj hjk)
    · exact (pubkeyHashAt_manyWitness j.isLt).symm
    · intro i hi
      exact absurd hi (Nat.not_lt_zero _)

/-! ## A key behind the wrapped signature -/

/-- Twenty signers are announced, one key follows. -/
def solanaStray : LegacyMessage where
  numSigners := 20
  readonlySigned := 0
  readonlyUnsigned := 1
  keyCount := [1]
  keys := [solanaOtherKey]
  blockhash := solanaMsg
  instructions := [0]
  keyCount_eq := compact_one
  length_key := length_solanaOtherKey
  length_blockhash := length_solanaMsg
  instructions_ne_nil := zero_ne_nil

def solanaStraySig : Bytes :=
  bytesOfNat 32 0x2c44e71e6f992246edc34993f3dbc3a004138a2a4482352078c9d9e3b26c2de7 ++
  bytesOfNat 32 0x2e5b0f85747af8ec3b4b0386ff8d0933490206b24fe82ea6e8aa64d6e7670504

def solanaStrayAnswers : KnownAnswers :=
  { KnownAnswers.empty with
    ed25519 := [(solanaStraySig, solanaStray.bytes, solanaKey)]
    blake2b := [(solanaKey, solanaKeyHash)] }

def solanaStrayWrapped : Bytes := wrapSolana solanaStraySig solanaKey solanaStray.bytes

/-- The caller has the signer's key behind the 512 bytes, the child has not. -/
def solanaStrayMem : Mem Region :=
  bufferMem (solanaStrayWrapped ++ List.replicate 6 0 ++ solanaKey) solanaMsg (by decide +kernel)
    (by decide +kernel)

def manyId : CkbAuthType := ⟨6, manyScriptHash.take 20, by decide +kernel⟩

def solanaStrayId : CkbAuthType := ⟨13, solanaKeyHash.take 20, by decide +kernel⟩

def manyMem : Mem Region :=
  bufferMem manyWitness soleMessage manyWitness_fits soleMessage_fits

theorem dynamicLinking_accepts_spawn_rejects :
    (ckbAuth manyAnswers.env 0 bareChild readyLoader (someEntry entryCategoryDynamicLinking) manyId
        ⟨.signature, 0⟩ 8249 ⟨.message, 0⟩).outcome manyMem = .ret () ∧
    (ckbAuth manyAnswers.env 0 bareChild readyLoader (someEntry entryCategorySpawn) manyId
        ⟨.signature, 0⟩ 8249 ⟨.message, 0⟩).outcome manyMem = .fail 4 ∧
    (ckbAuth solanaStrayAnswers.env 0 bareChild readyLoader (someEntry entryCategoryDynamicLinking)
        solanaStrayId ⟨.signature, 0⟩ 512 ⟨.message, 0⟩).outcome solanaStrayMem = .ret () ∧
    (ckbAuth solanaStrayAnswers.env 0 bareChild readyLoader (someEntry entryCategorySpawn)
        solanaStrayId ⟨.signature, 0⟩ 512 ⟨.message, 0⟩).outcome solanaStrayMem = .fault := by
  refine ⟨?_, outcome_ckbAuth_spawn_long _ rfl (by decide), by decide +kernel, by decide +kernel⟩
  rw [outcome_ckbAuth_dynamicLinking _ rfl (readyLoader_namesAuth _ _) rfl rfl,
    outcome_ckbAuthValidate (by decide)]
  change (verifyMultisig manyAnswers.env ⟨.signature, 0⟩ 8249 ⟨.message, 0⟩
    (manyScriptHash.take 20)).outcome manyMem = .ret ()
  rw [← length_manyWitness]
  exact (outcome_verifyMultisig_eq_ret_iff (bufferMem_holds_signature ..)
    (by rw [length_manyWitness]; decide) (by decide +kernel) (bufferMem_holds_message ..)
    (by decide +kernel)).mpr ⟨manyAnswers.env_initialize, manyWitness_witness⟩

end CkbAuth
