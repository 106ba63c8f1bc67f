import CkbAuth.SignTxSpec
import CkbAuth.SignerSpec
import CkbAuth.SpawnAgrees

/-!
# The verdict on a transaction of the tests

A transaction that the tests generate and sign goes through the demo and through either way
of `ckb_auth`.  The verdict is the one that the tests expect of their configuration.
-/

namespace CkbAuth

open CRun

/-! ## ckb_auth -/

def AuthCall.entry (call : AuthCall) : CkbEntryType :=
  ⟨call.codeHash, call.hashType, call.entryCategory⟩

/-- The program of the entry can be loaded, or started with a signature of this size. -/
def Loader.Runs (loader : Loader) (entry : CkbEntryType) (n : ℕ) : Prop :=
  (entry.entryCategory = entryCategoryDynamicLinking ∧
    loader.dlopen2 entry.codeHash entry.hashType = 0 ∧
    loader.dlsym entry.codeHash entry.hashType = true) ∨
  (entry.entryCategory = entryCategorySpawn ∧ n ≤ 1024 * 8 ∧
    loader.spawn entry.codeHash entry.hashType = 0)

/-- The verdicts that a child's exit code tells its parent unchanged. -/
def Told (o : Outcome Unit) : Prop := o = .ret () ∨ ∃ e : ℤ, o = .fail e ∧ e.bmod 256 = e ∧ e ≠ 0

theorem exitCode_told {o : Outcome Unit} (h : Told o) :
    ((exitCode o).bind fun code ↦ if code = 0 then .ret () else .fail code) = o := by
  rcases h with rfl | ⟨e, rfl, hmod, hne⟩
  · rfl
  · rw [exitCode, Outcome.bind_ret, hmod, if_neg hne]

/-- Wherever the buffers lie, both ways give the verdict of `ckb_auth_validate`, if they come to
it. -/
theorem ckbAuth_told {env : Env} {fuel : ℕ} {child : ChildMemory} {loader : Loader}
    {entry : CkbEntryType} {id : CkbAuthType} {o : Outcome Unit} {s msg : Bytes}
    {m : Mem Region} {p q : Prog.Ptr Region}
    (hauth : loader.NamesAuth entry.codeHash entry.hashType) (hruns : loader.Runs entry s.length)
    (ho : Told o) (hmsg : msg.length = 32)
    (hvalidate : ∀ {m : Mem Region} {p q : Prog.Ptr Region}, p.Holds m s → q.Holds m msg →
      (ckbAuthValidate env fuel id.algorithmId (some p) s.length (some q) 32 id.content
        20).outcome m = o) (hp : p.Holds m s) (hq : q.Holds m msg) :
    (ckbAuth env fuel child loader entry id p s.length q).outcome m = o := by
  obtain ⟨hlink, hload, hsym⟩ | ⟨hspawn, hsig, hstart⟩ := hruns
  · rw [outcome_ckbAuth_dynamicLinking entry hlink hauth hload hsym, hvalidate hp hq]
  · have hchild : s.length ≤ 1024 * 64 := by omega
    rw [outcome_ckbAuth_spawn entry hspawn hauth hp hsig hq hmsg hstart,
      outcome_main encodes_ckbGethex hchild hmsg id.content_length,
      hvalidate (child.holds_signature hchild hmsg) (child.holds_message hchild hmsg),
      exitCode_told ho]

end CkbAuth

namespace CkbAuth.Signer

open CkbAuth CRun

variable {env : Env} {c : Crates env.secp.Pubkey} {m : Mem Region} {p q : Prog.Ptr Region}

/-! ## The validator of a signer -/

/-- The functions that `ckb_auth_validate` calls for the algorithm of a signer. -/
def EcdsaAuth.functions : EcdsaAuth c → ValidateSignature × ConvertMsg
  | ckb _ => (validateSignatureCkb env, convertCopy)
  | ethereum _ => (validateSignatureEth env, convertEthMessage env)
  | eos _ => (validateSignatureEth env, convertEosMessage env)
  | tron _ => (validateSignatureEth env, convertTronMessage env)
  | bitcoin _ => (validateSignatureBtc env, convertBtcMessage env)
  | dogecoin _ => (validateSignatureBtc env, convertDogeMessage env)
  | litecoin _ => (validateSignatureBtc env, convertLitecoinMessage env)

/-- Only the size of a signature is looked at first, by some of them. -/
theorem outcome_dispatch_functions (auth : EcdsaAuth c) {fuel n : ℕ} {hash : Bytes} :
    (dispatch env fuel auth.auth.getAlgorithmType p n q 32 hash).outcome m =
        (verify hash p n q 32 auth.functions.1 auth.functions.2).outcome m ∨
      n ≠ 65 ∧ (dispatch env fuel auth.auth.getAlgorithmType p n q 32 hash).outcome m =
        .fail errorInvalidArg := by
  have hchecked (rest : Call Unit) :
      (Prog.check (n = secp256k1SignatureSize) errorInvalidArg >>= fun _ ↦ rest).outcome m =
          rest.outcome m ∨
        n ≠ 65 ∧ (Prog.check (n = secp256k1SignatureSize) errorInvalidArg >>=
          fun _ ↦ rest).outcome m = .fail errorInvalidArg := by
    rw [Prog.outcome_bind, Prog.outcome_check]
    by_cases hn : n = secp256k1SignatureSize
    · rw [if_pos hn, Outcome.bind_ret]
      exact .inl rfl
    · rw [if_neg hn, Outcome.bind_fail]
      exact .inr ⟨hn, rfl⟩
  cases auth with
  | ckb _ => exact hchecked _
  | ethereum _ => exact hchecked _
  | eos _ => exact hchecked _
  | tron _ => exact hchecked _
  | bitcoin _ => exact .inl rfl
  | dogecoin _ => exact .inl rfl
  | litecoin _ => exact .inl rfl

/-- The conversion gives the digest that the signer signs. -/
theorem converts_digest (auth : EcdsaAuth c) (hshare : Shares env c) {msg : Bytes}
    (h32 : msg.length = 32) :
    ∃ g, Converts auth.functions.2 g ∧ g msg = .ret (auth.digest msg) := by
  cases auth with
  | ckb _ => exact ⟨_, converts_copy, rfl⟩
  | ethereum _ =>
      exact ⟨_, converts_eth, congrArg Outcome.ret (keccakPrefixed_eq hshare (by decide) h32)⟩
  | eos _ => exact ⟨_, converts_eos, congrArg Outcome.ofExcept (hshare.sha256 msg)⟩
  | tron _ =>
      exact ⟨_, converts_tron, congrArg Outcome.ret (keccakPrefixed_eq hshare (by decide) h32)⟩
  | bitcoin _ => exact ⟨_, converts_btc _ _, btcDigest_eq hshare (by decide)⟩
  | dogecoin _ => exact ⟨_, converts_btc _ _, btcDigest_eq hshare (by decide)⟩
  | litecoin _ => exact ⟨_, converts_btc _ _, btcDigest_eq hshare (by decide)⟩

/-- No validator takes a signature of another size. -/
theorem outcome_functions_size (auth : EcdsaAuth c) {digest : Bytes} {n : ℕ} (hn : n ≠ 65) :
    (auth.functions.1 p n digest 32 20).outcome m = .fail errorInvalidArg := by
  have hcheck {α : Type} (rest : Unit → Call α) :
      (Prog.check (n = secp256k1SignatureSize) errorInvalidArg >>= rest).outcome m =
        .fail errorInvalidArg := by
    have hsize : ¬n = secp256k1SignatureSize := hn
    rw [Prog.outcome_bind, Prog.outcome_check, if_neg hsize, Outcome.bind_fail]
  have hrecover (compressed : Bool) :
      (recoverSecp256k1Pubkey env p n digest 32 compressed).outcome m = .fail errorInvalidArg :=
    hcheck _
  have hrecoverBtc : (recoverSecp256k1PubkeyBtc env p n digest 32).outcome m =
      .fail errorInvalidArg := hcheck _
  have hckb : (validateSignatureCkb env p n digest 32 20).outcome m = .fail errorInvalidArg := by
    rw [validateSignatureCkb, Prog.outcome_bind, Prog.outcome_check, if_pos (by decide),
      Outcome.bind_ret, Prog.outcome_bind, hrecover, Outcome.bind_fail]
  have heth : (validateSignatureEth env p n digest 32 20).outcome m = .fail errorInvalidArg := by
    rw [validateSignatureEth, Prog.outcome_bind, Prog.outcome_check, if_pos (by decide),
      Outcome.bind_ret, Prog.outcome_bind, hrecover, Outcome.bind_fail]
  have hbtc : (validateSignatureBtc env p n digest 32 20).outcome m = .fail errorInvalidArg := by
    rw [validateSignatureBtc, Prog.outcome_bind, Prog.outcome_check, if_pos (by decide),
      Outcome.bind_ret, Prog.outcome_bind, hrecoverBtc, Outcome.bind_fail]
  cases auth with
  | ckb _ => exact hckb
  | ethereum _ => exact heth
  | eos _ => exact heth
  | tron _ => exact heth
  | bitcoin _ => exact hbtc
  | dogecoin _ => exact hbtc
  | litecoin _ => exact hbtc

/-- A Litecoin daemon, where one is asked, gives the signature that the software would. -/
theorem litecoin_sign (self : LitecoinAuth c) {msg : Bytes}
    (hdaemon : (EcdsaAuth.litecoin self).DaemonSigns msg) :
    self.auth.sign (self.auth.convertMessage msg) =
      BitcoinAuth.btcSign c (LitecoinAuth.convertLitecoin c msg) self.sk self.compress := by
  by_cases hofficial : self.official = true
  · simp only [LitecoinAuth.auth, hofficial, if_true, self.official_compress hofficial]
    exact hdaemon hofficial
  · simp only [LitecoinAuth.auth, hofficial, if_false, Bool.false_eq_true]

section Signed

variable (auth : EcdsaAuth c) {msg : Bytes}
  (hr : Recovers env c auth.privkey (auth.digest msg)) (hdaemon : auth.DaemonSigns msg)

include hr hdaemon

theorem length_sign : (auth.auth.sign (auth.auth.convertMessage msg)).length = 65 := by
  cases auth with
  | ckb _ => exact length_signRecoverable hr
  | ethereum _ => exact length_signRecoverable hr
  | eos _ => exact length_signRecoverable hr
  | tron _ => exact length_signRecoverable hr
  | bitcoin _ => exact length_btcSign hr _
  | dogecoin _ => exact length_btcSign hr _
  | litecoin self =>
      have hsign := litecoin_sign self hdaemon
      exact (congrArg List.length hsign).trans (length_btcSign hr _)

/-- The validator finds the signer's key hash. -/
theorem outcome_functions_signed (hshare : Shares env c)
    (hload : ckbSecp256k1CustomVerifyOnlyInitialize env = .ok ())
    (hp : p.Holds m (auth.auth.sign (auth.auth.convertMessage msg))) :
    (auth.functions.1 p 65 (auth.digest msg) 32 20).outcome m =
      .ret auth.auth.getPubKeyHash := by
  cases auth with
  | ckb _ => exact outcome_validateSignatureCkb_signed hshare hload hr hp
  | ethereum self =>
      refine (outcome_validateSignatureEth_signed hshare hload hr hp).trans ?_
      exact congrArg (fun pubkey ↦ Outcome.ret (EthereumAuth.getEthPubKeyHash c pubkey))
        self.pubkey_eq.symm
  | eos self =>
      refine (outcome_validateSignatureEth_signed hshare hload hr hp).trans ?_
      exact congrArg (fun pubkey ↦ Outcome.ret (EthereumAuth.getEthPubKeyHash c pubkey))
        self.pubkey_eq.symm
  | tron self =>
      refine (outcome_validateSignatureEth_signed hshare hload hr hp).trans ?_
      exact congrArg (fun pubkey ↦ Outcome.ret (EthereumAuth.getEthPubKeyHash c pubkey))
        self.pubkey_eq.symm
  | bitcoin _ => exact outcome_validateSignatureBtc_signed hshare hload hr hp
  | dogecoin _ => exact outcome_validateSignatureBtc_signed hshare hload hr hp
  | litecoin self =>
      have hsign := litecoin_sign self hdaemon
      refine outcome_validateSignatureBtc_signed hshare hload hr ?_
      exact hsign ▸ hp

end Signed

theorem length_getPubKeyHash (auth : EcdsaAuth c) (hshare : Shares env c) :
    auth.auth.getPubKeyHash.length = 20 := by
  cases auth with
  | ckb _ => exact length_getCkbPubKeyHash hshare
  | ethereum _ => exact length_getEthPubKeyHash hshare _
  | eos _ => exact length_getEthPubKeyHash hshare _
  | tron _ => exact length_getEthPubKeyHash hshare _
  | bitcoin _ => exact length_getBtcPubKeyHash hshare _
  | dogecoin _ => exact length_getBtcPubKeyHash hshare _
  | litecoin _ => exact length_getBtcPubKeyHash hshare _

section Validate

variable {msg s hash : Bytes} {fuel : ℕ}

theorem outcome_validate_size (auth : EcdsaAuth c) (hshare : Shares env c) (h32 : msg.length = 32)
    (hsize : s.length ≠ 65) (hq : q.Holds m msg) :
    (ckbAuthValidate env fuel auth.auth.getAlgorithmType (some p) s.length (some q) 32 hash
        20).outcome m = .fail errorInvalidArg := by
  obtain ⟨g, hg, hdigest⟩ := converts_digest auth hshare h32
  rw [outcome_ckbAuthValidate (by decide)]
  rcases @outcome_dispatch_functions env c m p q auth fuel s.length hash with heq | ⟨-, heq⟩
  · rw [heq, outcome_verify hg hq h32, hdigest, Outcome.bind_ret,
      outcome_functions_size auth hsize, Outcome.bind_fail]
  · exact heq

theorem outcome_validate_signed (auth : EcdsaAuth c) (hshare : Shares env c)
    (hload : ckbSecp256k1CustomVerifyOnlyInitialize env = .ok ()) (h32 : msg.length = 32)
    (hr : Recovers env c auth.privkey (auth.digest msg)) (hdaemon : auth.DaemonSigns msg)
    (hs : s = auth.auth.sign (auth.auth.convertMessage msg)) (hhash : hash.length = 20)
    (hp : p.Holds m s) (hq : q.Holds m msg) :
    (ckbAuthValidate env fuel auth.auth.getAlgorithmType (some p) s.length (some q) 32 hash
        20).outcome m =
      if hash = auth.auth.getPubKeyHash then .ret () else .fail errorMismatched := by
  obtain ⟨g, hg, hdigest⟩ := converts_digest auth hshare h32
  subst hs
  rw [outcome_ckbAuthValidate (by decide), length_sign auth hr hdaemon]
  rcases @outcome_dispatch_functions env c m p q auth fuel 65 hash with heq | ⟨hne, -⟩
  · rw [heq]
    exact outcome_verify_signed hg hdigest hq h32
      (outcome_functions_signed auth hr hdaemon hshare hload hp)
      (length_getPubKeyHash auth hshare) hhash
  · exact absurd rfl hne

end Validate

end CkbAuth.Signer

namespace CkbAuth.SignTx

open CkbAuth Molecule Signer CRun

variable {tx signed : TransactionView} {config : TestConfig} {rng : Rng} {blake2b : Bytes → Bytes}

/-! ## What the tests generate -/

theorem extraArgs_size_lt {extraWitness : Bytes} (h : extraWitness.length = 64) :
    CkbAuth.tableSize none (some extraWitness) none < 2 ^ 32 := by
  simp only [CkbAuth.tableSize, bytesOpt, List.length_append, length_leBytes, List.length_nil]
  omega

/-- The witness of a generated input has no lock yet. -/
def extraArgs (extraWitness : Bytes) (h : extraWitness.length = 64) : WitnessArgs where
  lock := none
  inputType := some extraWitness
  outputType := none
  size_lt := extraArgs_size_lt h

theorem lockFits_extraArgs {extraWitness : Bytes} (h : extraWitness.length = 64) {n : ℕ}
    (hn : n < 128) : LockFits (extraArgs extraWitness h) n := by
  have htypes : (extraArgs extraWitness h).types.length = 68 := by
    simp [WitnessArgs.types, extraArgs, bytesOpt, h]
  rw [LockFits, htypes]
  omega

theorem genTx_first [MoleculeCrate] (rng : Rng) (hash : Bytes) (hpos : 0 < config.signSize) :
    (genTx config rng hash).witnesses[0]? =
      some (extraArgs (rng.extraWitness 0) (rng.length_extraWitness 0)).asSlice := by
  have hfirst : (genTx config rng hash).witnesses[0]? =
      some (extraWitnessArgs (rng.extraWitness 0)) := by
    rw [genTx, List.getElem?_map, List.getElem?_range hpos]
    rfl
  rw [hfirst, asSlice_eq_writeTable, extraWitnessArgs, bytesSlice_eq_bytesOpt]
  rfl

theorem genTx_length [MoleculeCrate] (config : TestConfig) (rng : Rng) (hash : Bytes) :
    (genTx config rng hash).witnesses.length = config.signSize := by
  rw [genTx, List.length_map, List.length_range]

/-- The content that the arguments of the lock ask for. -/
def lockContent (config : TestConfig) (rng : Rng) : Bytes :=
  if config.incorrectPubkey then rng.pubkey.take 20 else config.auth.getPubKeyHash

theorem doGenArgs_ok {codeHash args : Bytes} (hcode : codeHash.length = 32)
    (hargs : doGenArgs config rng codeHash none = .ok args) :
    (lockContent config rng).length = 20 ∧ args.length = 55 ∧
      ∀ sig msg, authCall args sig msg = ⟨config.auth.getAlgorithmType, lockContent config rng,
        codeHash, 4, config.entryCategoryType.toU8, sig, msg⟩ := by
  have hlen := rng.length_pubkey
  have hcontent : (lockContent config rng).length = 20 ∧
      args = config.auth.getAlgorithmType :: lockContent config rng ++
        (codeHash ++ [4, config.entryCategoryType.toU8]) := by
    rw [doGenArgs] at hargs
    by_cases hincorrect : config.incorrectPubkey = true
    · rw [if_pos hincorrect, ok_bind] at hargs
      rw [lockContent, if_pos hincorrect]
      exact ⟨by rw [List.length_take]; omega, (Except.ok.inj hargs).symm⟩
    · rw [if_neg hincorrect] at hargs
      rw [lockContent, if_neg hincorrect]
      by_cases h20 : config.auth.getPubKeyHash.length = 20
      · rw [Option.getD_none, if_pos h20, ok_bind] at hargs
        exact ⟨h20, (Except.ok.inj hargs).symm⟩
      · rw [Option.getD_none, if_neg h20] at hargs
        cases hargs
  obtain ⟨h20, rfl⟩ := hcontent
  refine ⟨h20, ?_, fun sig msg ↦ ?_⟩
  · simp only [List.length_append, List.length_cons, List.length_nil, h20, hcode]
  · have hfront : (config.auth.getAlgorithmType :: lockContent config rng).length = 21 := by
      rw [List.length_cons, h20]
    have hbehind (i : ℕ) (hi : 32 ≤ i) :
        ((config.auth.getAlgorithmType :: lockContent config rng) ++
          (codeHash ++ [4, config.entryCategoryType.toU8])).getD (21 + i) 0 =
            [4, config.entryCategoryType.toU8].getD (i - 32) 0 := by
      rw [List.getD_eq_getElem?_getD, List.getElem?_append_right (by omega), hfront,
        Nat.add_sub_cancel_left, List.getElem?_append_right (by omega), hcode,
        ← List.getD_eq_getElem?_getD]
    rw [authCall, hbehind 32 le_rfl, hbehind 33 (by decide), List.drop_left' hfront,
      List.take_left' hcode, List.cons_append, List.drop_succ_cons, List.drop_zero,
      List.take_left' h20]
    rfl

/-! ## The signature in the witness -/

/-- The size of the signature that a configuration puts into the lock. -/
def signedSize (config : TestConfig) (rng : Rng) : ℕ :=
  match config.incorrectSignSize with
  | .none => 65
  | .bigger => 65 + rng.fill.length
  | .smaller => rng.signSize

theorem signatureFor_ok {message sig : Bytes} (hmsg : config.incorrectMsg = false)
    (hsign : config.incorrectSign = false)
    (h65 : (config.auth.sign (config.auth.convertMessage message)).length = 65)
    (h : signatureFor config rng message = .ok sig) :
    sig.length = signedSize config rng ∧ sig.length < 128 ∧
      (sig.length = 65 → sig = config.auth.sign (config.auth.convertMessage message)) := by
  have hfill := rng.length_fill
  simp only [signatureFor, hmsg, hsign, Bool.false_eq_true, if_false] at h
  rw [signedSize]
  cases hsize : config.incorrectSignSize with
  | none =>
      rw [hsize] at h
      obtain rfl := Except.ok.inj h
      exact ⟨h65, by omega, fun _ ↦ rfl⟩
  | bigger =>
      rw [hsize] at h
      obtain rfl := Except.ok.inj h
      rw [List.length_append, h65]
      refine ⟨rfl, by omega, fun hlen ↦ ?_⟩
      rw [List.eq_nil_of_length_eq_zero (show rng.fill.length = 0 by omega), List.append_nil]
  | smaller =>
      rw [hsize] at h
      dsimp only at h
      rw [index, h65] at h
      by_cases hle : 0 ≤ rng.signSize ∧ rng.signSize ≤ 65
      · rw [if_pos hle, List.drop_zero, Nat.sub_zero] at h
        obtain rfl := Except.ok.inj h
        rw [List.length_take, h65]
        dsimp only
        refine ⟨by omega, by omega, fun hlen ↦ ?_⟩
        exact List.take_of_length_le (by omega)
      · rw [if_neg hle] at h
        cases h

/-! ## The verdict -/

/-- What the tests expect of a configuration. -/
def verdict (config : TestConfig) (rng : Rng) : Outcome Unit :=
  if signedSize config rng ≠ 65 then .fail errorInvalidArg
  else if lockContent config rng = config.auth.getPubKeyHash then .ret ()
  else .fail errorMismatched

theorem told_verdict (config : TestConfig) (rng : Rng) : Told (verdict config rng) := by
  rw [verdict]
  split
  · exact .inr ⟨102, rfl, by decide, by decide⟩
  · split
    · exact .inl rfl
    · exact .inr ⟨101, rfl, by decide, by decide⟩

section Harness

variable {env : Env} {c : Crates env.secp.Pubkey} {hash codeHash args stale : Bytes} {fuel : ℕ}
  {chain : Transaction}

/-- What the demo finds in the transaction is what the tests have put there. -/
structure CallOfTests [MoleculeCrate] (config : TestConfig) (rng : Rng) (blake2b : Bytes → Bytes)
    (tx : TransactionView) (codeHash : Bytes) (call : AuthCall) : Prop where
  signature : ∃ stream, digestStream tx config 0 tx.witnesses.length = .ok stream ∧
    signatureFor config rng (blake2b stream) = .ok call.signature ∧
    (call.signature.length = config.getSignSize → call.message = blake2b stream)
  algorithmId : call.algorithmId = config.auth.getAlgorithmType
  content : call.content = lockContent config rng
  codeHash : call.codeHash = codeHash
  hashType : call.hashType = Rs.ScriptHashType.data2.toU8
  entryCategory : call.entryCategory = config.entryCategoryType.toU8

/-- A transaction that the tests generate for an ECDSA signer and sign, with a wrong key hash
or a signature of a wrong size if that is configured, gets the verdict that they expect: from
the demo, with all inputs in one group, and in both ways of calling the auth library. -/
theorem signed_transaction_verdict [MoleculeCrate] (auth : EcdsaAuth c)
    (hauth : config.auth = auth.auth) (hsize : config.getSignSize = 65) (hpos : 0 < config.signSize)
    (hmsg : config.incorrectMsg = false) (hsign : config.incorrectSign = false)
    (hcode : codeHash.length = 32) (hshare : Shares env c)
    (hload : ckbSecp256k1CustomVerifyOnlyInitialize env = .ok ())
    (hkeys : ∀ stream,
      digestStream (genTx config rng hash) config 0 config.signSize = .ok stream →
        Recovers env c auth.privkey (auth.digest (env.hash.blake2b stream)) ∧
          auth.DaemonSigns (env.hash.blake2b stream))
    (hsigned : signTx (genTx config rng hash) config rng env.hash.blake2b = .ok signed)
    (hargs : doGenArgs config rng codeHash none = .ok args)
    (hshown : ShownTo signed (List.range config.signSize) chain) (hfuel : Enough chain fuel)
    (hstale : stale.length = 32768) :
    ∃ call, Demo.main env chain fuel args stale = .ret call ∧
      CallOfTests config rng env.hash.blake2b (genTx config rng hash) codeHash call ∧
      ∀ child loader m p q (id : CkbAuthType), loader.NamesAuth call.codeHash call.hashType →
        loader.Runs call.entry call.signature.length → id.algorithmId = call.algorithmId →
        id.content = call.content → p.Holds m call.signature → q.Holds m call.message →
        (ckbAuth env fuel child loader call.entry id p call.signature.length q).outcome m =
          verdict config rng := by
  have hinputs : 0 < (genTx config rng hash).inputs := hpos
  have hlength := genTx_length config rng hash
  have hw := genTx_first rng hash hpos
  obtain ⟨h20, h55, hcall⟩ := doGenArgs_ok hcode hargs
  rw [signTx, hlength] at hsigned
  obtain ⟨stream, sig, v, hstream, hsig, hlock, rfl⟩ := signTxByInputGroup_ok hinputs hw hsigned
  obtain ⟨hr, hdaemon⟩ := hkeys stream hstream
  have h65 : (config.auth.sign (config.auth.convertMessage (env.hash.blake2b stream))).length =
      65 := by
    rw [hauth]
    exact length_sign auth hr hdaemon
  obtain ⟨hsigSize, hshort, hgenuine⟩ := signatureFor_ok hmsg hsign h65 hsig
  have hfits : LockFits (extraArgs (rng.extraWitness 0) (rng.length_extraWitness 0)) sig.length :=
    lockFits_extraArgs _ hshort
  have hzero : LockFits (extraArgs (rng.extraWitness 0) (rng.length_extraWitness 0))
      config.getSignSize := lockFits_extraArgs _ (by omega)
  rw [setLock_asSlice hfits] at hlock
  obtain rfl := Except.ok.inj hlock
  rw [range_eq_cons hpos] at hshown
  -- for a signature of 65 bytes the message is the one that was signed
  have hsame : sig.length = 65 → sighashStream chain
      (withLock (extraArgs (rng.extraWitness 0) (rng.length_extraWitness 0)) sig hfits).asSlice =
        stream := by
    intro hlen
    have hothers : others chain =
        ((genTx config rng hash).witnesses.drop (0 + 1)).take (config.signSize - 1) := by
      rw [others_all hinputs hshown, padded_of_le hlength.ge, Nat.zero_add,
        List.take_of_length_le (by rw [List.length_drop, hlength])]
    have hiff := digestStream_eq_iff hshown hw hzero
      (show 0 + config.signSize ≤ _ by rw [Nat.zero_add, hlength])
    rw [hstream, Except.ok.injEq] at hiff
    exact (hiff.mpr ⟨hlen.trans hsize.symm, hothers⟩).symm
  have h32 : (env.hash.blake2b (sighashStream chain (withLock
      (extraArgs (rng.extraWitness 0) (rng.length_extraWitness 0)) sig hfits).asSlice)).length =
        32 := env.hash.blake2b_length _
  refine ⟨_, main_shown hinputs hshown (by omega) h55 hstale hfuel, ?_⟩
  rw [hcall]
  refine ⟨⟨⟨stream, hlength.symm ▸ hstream, hsig, fun hlen ↦ ?_⟩, rfl, rfl, rfl, rfl, rfl⟩, ?_⟩
  · exact congrArg env.hash.blake2b (hsame (hlen.trans hsize))
  intro child loader m p q id hnames hruns hid hcontent hp hq
  refine ckbAuth_told hnames hruns (told_verdict config rng) h32 ?_ hp hq
  intro m p q hp hq
  rw [hid, hcontent, hauth]
  by_cases hlen : sig.length = 65
  · rw [hsame hlen] at hq h32
    rw [verdict, ← hsigSize, if_neg (not_not.mpr hlen), hauth]
    refine outcome_validate_signed auth hshare hload h32 hr hdaemon ?_ h20 hp hq
    rw [← hauth]
    exact hgenuine hlen
  · rw [verdict, ← hsigSize, if_pos hlen]
    exact outcome_validate_size auth hshare h32 hlen hq

end Harness

/-! ## A transaction with one input -/

attribute [local instance] demoCrate

def templatePubkey : Bytes :=
  4 :: bytesOfNat 32 0x6645ac2c3deb3e8723b6ce566f8c93bdf1ede091d13a3915071a97a169b470e3 ++
  bytesOfNat 32 0xd51d2de571b881580553d700af8b056c7dd8fd53aaace0701e54fbffe6230132

def templateKeyHash : Bytes :=
  bytesOfNat 32 0xae9df3447c404a645bc48bea4b7643b95ac5c3aef3e11946fd5cf5c95a15d47b

def templateCompact : Bytes :=
  bytesOfNat 32 0xea5e3d2fa06ef839596f87301b9644c20183e1b7eb0c41e3b5a8cedd7ebff4fd ++
  bytesOfNat 32 0x7c65cfbfc7006400473889f43e75763aedb76fdc38491bfc9fdf4056e2683aec

def templateMessage : Bytes :=
  bytesOfNat 32 0x21fdabbe45663fc36184647c4b1e084e5a9044b5a104dddc5a894a697f4e5ff9

/-- The first witness with a lock of some bytes. -/
def templateWitness (lock : Bytes) : Bytes :=
  writeTable [bytesSlice lock, bytesSlice (List.replicate 64 0), []]

def templateStream : Bytes :=
  List.replicate 32 0 ++ lengthed (templateWitness (List.replicate 65 0))

def templateAnswers : KnownAnswers :=
  { KnownAnswers.empty with
    recover := [((templateCompact, 1, templateMessage), templatePubkey)]
    blake2b := [(templateStream, templateMessage),
      ((serializeKnown templatePubkey true).getD [], templateKeyHash)] }

def templateCrates : Crates templateAnswers.env.secp.Pubkey where
  Privkey := Unit
  pubkey _ := templatePubkey
  serialize pk := (serializeKnown pk true).getD []
  serializeUncompressed pk := pk
  asBytes pk := List.drop 1 pk
  signEcdsaRecoverable _ _ := (1, templateCompact)
  blake2b256 := templateAnswers.env.hash.blake2b
  keccak256 := templateAnswers.env.hash.keccak256
  sha256 b := digestOf 32 templateAnswers.md (.sha256, b)
  ripemd160 b := digestOf 20 templateAnswers.md (.ripemd160, b)
  litecoinSignmessage _ _ := []

theorem templateCrates_shares : Shares templateAnswers.env templateCrates where
  serialize _ := show serializeKnown templatePubkey true =
    some ((serializeKnown templatePubkey true).getD []) by decide +kernel
  serializeUncompressed _ := show serializeKnown templatePubkey false = some templatePubkey by
    decide +kernel
  asBytes _ := show templatePubkey = 4 :: templatePubkey.drop 1 by decide +kernel
  blake2b _ := rfl
  keccak256 _ := rfl
  sha256 _ := rfl
  length_sha256 b := length_digestOf 32 templateAnswers.md (.sha256, b)
  ripemd160 _ := rfl
  length_ripemd160 b := length_digestOf 20 templateAnswers.md (.ripemd160, b)

def templateSigner : CKbAuth templateCrates := ⟨()⟩

def templateConfig : TestConfig :=
  ⟨templateSigner.auth, 65, .spawn, 1, false, false, false, .none⟩

def templateSigned : TransactionView :=
  ⟨List.replicate 32 0, 1, [templateWitness (templateCompact ++ [1])]⟩

theorem templateSigned_fits : ∀ w ∈ templateSigned.witnesses, w.length < 2 ^ 64 := by
  decide +kernel

def templateTransaction : Transaction where
  hash := templateSigned.hash
  inputs := 1
  group := [0]
  witnesses := templateSigned.witnesses
  length_hash := zeroHash_length
  group_sorted := soleInput_sorted
  group_lt := soleInput_lt
  length_witness := templateSigned_fits

theorem templateTransaction_enough : Enough templateTransaction 200 where
  count source := by cases source <;> decide +kernel
  length := by decide +kernel

def templateArgs : Bytes :=
  0 :: templateKeyHash.take 20 ++ (List.replicate 32 0 ++ [4, 2])

theorem template_signed_transaction_accepted :
    ∃ call, Demo.main templateAnswers.env templateTransaction 200 templateArgs
        (List.replicate 32768 0) = .ret call ∧
      call.signature = templateCompact ++ [1] ∧ call.message = templateMessage ∧
      ∀ m p q (id : CkbAuthType), id.algorithmId = call.algorithmId → id.content = call.content →
        p.Holds m call.signature → q.Holds m call.message →
        (ckbAuth templateAnswers.env 200 bareChild readyLoader call.entry id p
          call.signature.length q).outcome m = .ret () := by
  have hrecover : (templateAnswers.recover.find? fun entry ↦
      entry.1 = (templateCompact, 1, templateMessage)).map Prod.snd = some templatePubkey := by
    decide +kernel
  have hstream : digestStream (genTx templateConfig zeroRng (List.replicate 32 0))
      templateConfig 0 1 = .ok templateStream := by decide +kernel
  have hmessage : templateAnswers.env.hash.blake2b templateStream = templateMessage := by
    decide +kernel
  have hr : Recovers templateAnswers.env templateCrates () templateMessage :=
    ⟨by decide +kernel, by decide +kernel, (templateCompact, 1), rfl, hrecover⟩
  have hkeys : ∀ stream, digestStream (genTx templateConfig zeroRng (List.replicate 32 0))
      templateConfig 0 1 = .ok stream →
        Recovers templateAnswers.env templateCrates ()
            (templateAnswers.env.hash.blake2b stream) ∧ True := by
    intro stream h
    obtain rfl := Except.ok.inj (hstream.symm.trans h)
    exact ⟨hmessage.symm ▸ hr, trivial⟩
  have hverdict : verdict templateConfig zeroRng = .ret () := by decide +kernel
  obtain ⟨call, hmain, hcall, hrun⟩ := @signed_transaction_verdict templateSigned templateConfig
    zeroRng templateAnswers.env templateCrates (List.replicate 32 0) (List.replicate 32 0)
    templateArgs (List.replicate 32768 0) 200 templateTransaction demoCrate (.ckb templateSigner)
    rfl rfl (by decide) rfl rfl List.length_replicate templateCrates_shares
    templateAnswers.env_initialize hkeys (by decide +kernel) (by decide +kernel)
    ⟨rfl, rfl, rfl, rfl⟩ templateTransaction_enough List.length_replicate
  obtain ⟨stream, hdigest, hsignature, hmsg⟩ := hcall.signature
  obtain rfl := Except.ok.inj (hstream.symm.trans hdigest)
  rw [hmessage] at hsignature hmsg
  have hsigned : signatureFor templateConfig zeroRng templateMessage =
      .ok (templateCompact ++ [1]) := by decide +kernel
  have hsig := Except.ok.inj (hsigned.symm.trans hsignature)
  have h65 : (templateCompact ++ [1]).length = 65 := by decide +kernel
  have hruns : readyLoader.Runs call.entry call.signature.length :=
    .inr ⟨hcall.entryCategory, by rw [← hsig, h65]; decide, rfl⟩
  refine ⟨call, hmain, hsig.symm, hmsg (by rw [← hsig, h65]; rfl), ?_⟩
  intro m p q id hid hcontent hp hq
  exact (hrun bareChild readyLoader m p q id (readyLoader_namesAuth _ _) hruns hid hcontent hp
    hq).trans hverdict

end CkbAuth.SignTx
