import CkbAuth.Auth

/-!
# No error is lost in an exit code

A process keeps the low 8 bits of what `main` returns.  None of the codes that
`ckb_auth_validate` ends with is a multiple of 256, as long as the message
digests report nothing but a failed allocation.
-/

namespace CkbAuth

open CRun

/-- The code is still an error as an `int8_t`. -/
def KeptCode (code : ℤ) : Prop := code.bmod 256 ≠ 0

instance (code : ℤ) : Decidable (KeptCode code) := inferInstanceAs (Decidable (_ ≠ _))

/-- With valid digest types the mbedtls calls fail only for want of memory. -/
def MdErrors (env : Env) : Prop :=
  ∀ t b e, env.hash.md t b = .error e → e = mbedtlsErrMdAllocFailed

variable {env : Env}

theorem codes_initialize :
    (Prog.ofExcept (ckbSecp256k1CustomVerifyOnlyInitialize env) : Call Unit).Codes KeptCode := by
  refine .ofExcept fun e he ↦ ?_
  unfold ckbSecp256k1CustomVerifyOnlyInitialize at he
  -- the loop over the cell deps has one error code
  have hcode : ∀ deps, searchSecp256k1Data env deps = .error e →
      e = ckbSecp256k1HelperErrorLoadingData := by
    intro deps
    induction deps with
    | nil => intro h; simpa [searchSecp256k1Data] using h.symm
    | cons dep deps ih =>
        intro h
        unfold searchSecp256k1Data at h
        split at h
        · split at h
          · exact ih h
          · simpa using h.symm
        · split at h
          · split at h
            · simpa using h.symm
            · split at h
              · cases h
              · simpa using h.symm
          · exact ih h
  rw [hcode _ he]
  decide

theorem codes_parseCompact (sig : Prog.Ptr Region) (recid : ℤ) :
    (secp256k1EcdsaRecoverableSignatureParseCompact env sig recid).Codes KeptCode := by
  unfold secp256k1EcdsaRecoverableSignatureParseCompact
  refine .ite (.bind (.bytes _ _) fun _ ↦ .pure _) ?_
  exact .done (by simp +decide [KeptCode])

theorem codes_md (hmd : MdErrors env) (t : MdType) (b : Bytes) :
    (Prog.ofExcept (mdString env (mdInfoFromType t) b) : Call Bytes).Codes KeptCode := by
  refine .ofExcept fun e he ↦ ?_
  have herr : env.hash.md t b = .error e := by cases t <;> exact he
  rw [hmd t b e herr]
  decide

/-! ## secp256k1 -/

theorem codes_recoverSecp256k1Pubkey (sig : Prog.Ptr Region) (sigLen : ℕ) (msg : Bytes)
    (msgLen : ℕ) (compressed : Bool) :
    (recoverSecp256k1Pubkey env sig sigLen msg msgLen compressed).Codes KeptCode :=
  .bind (.check (by decide)) fun _ ↦ .bind (.check (by decide)) fun _ ↦
    .bind codes_initialize fun _ ↦ .bind (.byte _) fun _ ↦
    .bind (codes_parseCompact _ _) fun _ ↦ .bind (.ofOption (by decide)) fun _ ↦
    .bind (.ofOption (by decide)) fun _ ↦ .ofOption (by decide)

theorem codes_recoverSecp256k1PubkeyBtc (sig : Prog.Ptr Region) (sigLen : ℕ) (msg : Bytes)
    (msgLen : ℕ) : (recoverSecp256k1PubkeyBtc env sig sigLen msg msgLen).Codes KeptCode :=
  .bind (.check (by decide)) fun _ ↦ .bind (.check (by decide)) fun _ ↦ .bind (.byte _) fun _ ↦
    .bind codes_initialize fun _ ↦ .bind (codes_parseCompact _ _) fun _ ↦
    .bind (.ofOption (by decide)) fun _ ↦ .bind (.ofOption (by decide)) fun _ ↦
    .ofOption (by decide)

section Validators

variable (sig : Prog.Ptr Region) (sigLen : ℕ) (msg : Bytes) (msgLen outputLen : ℕ)

theorem codes_validateSignatureCkb :
    (validateSignatureCkb env sig sigLen msg msgLen outputLen).Codes KeptCode :=
  .bind (.check (by decide)) fun _ ↦ .bind (codes_recoverSecp256k1Pubkey _ _ _ _ _) fun _ ↦
    .pure _

theorem codes_validateSignatureEth :
    (validateSignatureEth env sig sigLen msg msgLen outputLen).Codes KeptCode :=
  .bind (.check (by decide)) fun _ ↦ .bind (codes_recoverSecp256k1Pubkey _ _ _ _ _) fun _ ↦
    .pure _

theorem codes_validateSignatureBtc (hmd : MdErrors env) :
    (validateSignatureBtc env sig sigLen msg msgLen outputLen).Codes KeptCode :=
  .bind (.check (by decide)) fun _ ↦ .bind (codes_recoverSecp256k1PubkeyBtc _ _ _ _) fun _ ↦
    .bind (codes_md hmd _ _) fun _ ↦ .bind (codes_md hmd _ _) fun _ ↦ .pure _

theorem codes_validateSignatureSchnorr :
    (validateSignatureSchnorr env sig sigLen msg msgLen outputLen).Codes KeptCode :=
  .bind (.check (by decide)) fun _ ↦ .bind (.check (by decide)) fun _ ↦
    .bind codes_initialize fun _ ↦ .bind (.bytes _ _) fun _ ↦ .bind (.ofOption (by decide)) fun _ ↦
    .bind (.bytes _ _) fun _ ↦ .bind (.check (by decide)) fun _ ↦ .pure _

theorem codes_validateSignatureMonero :
    (validateSignatureMonero env sig sigLen msg msgLen outputLen).Codes KeptCode :=
  .bind (.check (by decide)) fun _ ↦ .bind (.check (by decide)) fun _ ↦ .bind (.byte _) fun _ ↦
    .bind (.check (by decide)) fun _ ↦ .bind (.bytes _ _) fun _ ↦ .bind (.bytes _ _) fun _ ↦
    .bind (.bytes _ _) fun _ ↦ .bind (.check (by decide)) fun _ ↦ .bind (.bytes _ _) fun _ ↦
    .pure _

end Validators

/-! ## Conversions and verify -/

section Conversions

variable (msg : Prog.Ptr Region) (msgLen newMsgLen : ℕ)

theorem codes_convertCopy : (convertCopy msg msgLen newMsgLen).Codes KeptCode :=
  .bind (.check (by decide)) fun _ ↦ .bytes _ _

theorem codes_convertEthMessage : (convertEthMessage env msg msgLen newMsgLen).Codes KeptCode :=
  .bind (.check (by decide)) fun _ ↦ .bind (.bytes _ _) fun _ ↦ .pure _

theorem codes_convertTronMessage : (convertTronMessage env msg msgLen newMsgLen).Codes KeptCode :=
  .bind (.check (by decide)) fun _ ↦ .bind (.bytes _ _) fun _ ↦ .pure _

theorem codes_convertEosMessage (hmd : MdErrors env) :
    (convertEosMessage env msg msgLen newMsgLen).Codes KeptCode :=
  .bind (.check (by decide)) fun _ ↦ .bind (.bytes _ _) fun _ ↦ codes_md hmd _ _

theorem codes_convertBtcMessageVariant (hmd : MdErrors env) (magic : Bytes) (magicLen : UInt8) :
    (convertBtcMessageVariant env magic magicLen msg msgLen newMsgLen).Codes KeptCode :=
  .bind (.check (by decide)) fun _ ↦ .bind (.bytes _ _) fun _ ↦ .bind (codes_md hmd _ _) fun _ ↦
    codes_md hmd _ _

end Conversions

theorem codes_verify {func : ValidateSignature} {convert : ConvertMsg}
    (hconvert : ∀ msg msgLen newMsgLen, (convert msg msgLen newMsgLen).Codes KeptCode)
    (hfunc : ∀ sig sigLen msg msgLen outputLen,
      (func sig sigLen msg msgLen outputLen).Codes KeptCode)
    (pubkeyHash : Bytes) (sig : Prog.Ptr Region) (sigLen : ℕ) (msg : Prog.Ptr Region)
    (msgLen : ℕ) : (verify pubkeyHash sig sigLen msg msgLen func convert).Codes KeptCode :=
  .bind (hconvert _ _ _) fun _ ↦ .bind (hfunc _ _ _ _ _) fun _ ↦ .check (by decide)

/-! ## Loops -/

theorem codes_matchPubkey (lockBytes : Prog.Ptr Region) (pubkeyHash : Bytes) (used : List UInt8)
    (n : ℕ) : ∀ i, (matchPubkey lockBytes pubkeyHash used n i).Codes KeptCode := by
  induction n with
  | zero => exact fun _ ↦ .pure _
  | succ n ih =>
      exact fun i ↦ .bind (.index _ _) fun _ ↦ .ite (ih _) <| .bind (.bytes _ _) fun _ ↦
        .ite (ih _) (.pure _)

theorem codes_recoverMultisigPubkey (sig message : Prog.Ptr Region) :
    (recoverMultisigPubkey env sig message).Codes KeptCode :=
  .bind (.byte _) fun _ ↦ .bind (codes_parseCompact _ _) fun _ ↦ .bind (.ofOption (by decide))
    fun _ ↦ .bind (.bytes _ _) fun _ ↦ .bind (.ofOption (by decide)) fun _ ↦ .ofOption (by decide)

theorem codes_verifySignatures (lockBytes message : Prog.Ptr Region) (scriptLen cnt n : ℕ) :
    ∀ i used, (verifySignatures env lockBytes message scriptLen cnt n i used).Codes KeptCode := by
  induction n with
  | zero => exact fun _ _ ↦ .pure _
  | succ n ih =>
      exact fun i used ↦ .bind (codes_recoverMultisigPubkey _ _) fun _ ↦
        .bind (codes_matchPubkey _ _ _ _ _) fun _ ↦ .bind (.ofOption (by decide)) fun _ ↦ ih _ _

theorem codes_checkRequireFirstN (used : List UInt8) (n : ℕ) :
    ∀ i, (checkRequireFirstN used n i).Codes KeptCode := by
  induction n with
  | zero => exact fun _ ↦ .pure _
  | succ n ih =>
      exact fun i ↦ .bind (.index _ _) fun _ ↦ .bind (.check (by decide)) fun _ ↦ ih _

theorem codes_verifyMultisig (lockBytes : Prog.Ptr Region) (lockBytesLen : ℕ)
    (message : Prog.Ptr Region) (hash : Bytes) :
    (verifyMultisig env lockBytes lockBytesLen message hash).Codes KeptCode :=
  .bind (.byte _) fun _ ↦ .bind (.byte _) fun _ ↦ .bind (.byte _) fun _ ↦ .bind (.byte _) fun _ ↦
    .bind (.check (by decide)) fun _ ↦ .bind (.check (by decide)) fun _ ↦
    .bind (.check (by decide)) fun _ ↦ .bind (.check (by decide)) fun _ ↦
    .bind (.check (by decide)) fun _ ↦ .bind (.check (by decide)) fun _ ↦
    .bind (.bytes _ _) fun _ ↦ .bind (.check (by decide)) fun _ ↦
    .bind codes_initialize fun _ ↦ .bind (codes_verifySignatures _ _ _ _ _ _ _) fun _ ↦
    codes_checkRequireFirstN _ _ _

theorem codes_readVarintU16Loop (srcSize n : ℕ) :
    ∀ i acc ptr, (readVarintU16Loop srcSize n i acc ptr).Codes KeptCode := by
  induction n with
  | zero => exact fun _ _ _ ↦ .pure _
  | succ n ih =>
      exact fun i acc ptr ↦ .bind (.check (by decide)) fun _ ↦ .bind (.byte _) fun _ ↦
        .ite (.pure _) (.ite (.fail (by decide)) (ih _ _ _))

theorem codes_searchSigner (pubKeyPtr pubKey : Prog.Ptr Region) (n : ℕ) :
    ∀ i, (searchSigner pubKeyPtr pubKey n i).Codes KeptCode := by
  induction n with
  | zero => exact fun _ ↦ .fail (by decide)
  | succ n ih =>
      exact fun i ↦ .bind (.bytes _ _) fun _ ↦ .bind (.bytes _ _) fun _ ↦ .ite (.pure _) (ih _)

theorem codes_validateSolanaSignedMessage (signedMsg : Prog.Ptr Region) (signedMsgLen : ℕ)
    (pubKey : Prog.Ptr Region) (blockhash : Bytes) :
    (validateSolanaSignedMessage signedMsg signedMsgLen pubKey blockhash).Codes KeptCode :=
  .bind (.check (by decide)) fun _ ↦ .bind (.byte _) fun _ ↦
    .bind (.mapFail (fun _ ↦ by decide) (codes_readVarintU16Loop _ _ _ _ _)) fun _ ↦
    .bind (.check (by decide)) fun _ ↦ .bind (.bytes _ _) fun _ ↦
    .bind (.check (by decide)) fun _ ↦ codes_searchSigner _ _ _ _

theorem codes_ed25519Verify (signature message publicKey : Prog.Ptr Region) (messageLen : ℕ) :
    (ed25519Verify env signature message messageLen publicKey).Codes KeptCode :=
  .bind (.bytes _ _) fun _ ↦ .bind (.bytes _ _) fun _ ↦
    .ite (.pure _) (.bind (.bytes _ _) fun _ ↦ .pure _)

theorem codes_validateSignatureSolana (sig : Prog.Ptr Region) (sigLen : ℕ) (msg : Bytes)
    (msgLen outputLen : ℕ) :
    (validateSignatureSolana env sig sigLen msg msgLen outputLen).Codes KeptCode :=
  .bind (.check (by decide)) fun _ ↦ .bind (.check (by decide)) fun _ ↦ .bind (.byte _) fun _ ↦
    .bind (.byte _) fun _ ↦ .bind (.check (by decide)) fun _ ↦
    .bind (codes_validateSolanaSignedMessage _ _ _ _) fun _ ↦
    .bind (codes_ed25519Verify _ _ _ _) fun _ ↦
    .bind (.check (by decide)) fun _ ↦ .bind (.bytes _ _) fun _ ↦ .pure _

/-! ## Cardano -/

section Cardano

open Nanocbor

theorem codes_checkOk {α : Type} {code : ℤ} (hcode : KeptCode code) (x : Except ℤ α) :
    (checkOk x code).Codes KeptCode := by
  cases x with
  | ok a => exact .done (by simp [Outcome.mapFail])
  | error e => exact .done (by simp [Outcome.mapFail, hcode])

theorem codes_checkWalk {α : Type} {code : ℤ} (hcode : KeptCode code) (x : Option (Except ℤ α)) :
    (checkWalk x code).Codes KeptCode := by
  cases x with
  | none => exact .done (by simp)
  | some x => exact codes_checkOk hcode x

variable (data : Prog.Ptr Region) (view : Bytes) (fuel : ℕ)

theorem codes_memcpyFrom (pos : Option ℕ) (len : ℕ) :
    (memcpyFrom data pos len).Codes KeptCode :=
  .bind (.bytes _ _) fun _ ↦ .pure _

theorem codes_getSignData (node : Value) : (getSignData data view fuel node).Codes KeptCode :=
  .bind (codes_checkWalk (by decide) _) fun _ ↦ .bind (codes_checkOk (by decide) _) fun _ ↦
    .bind (codes_checkOk (by decide) _) fun _ ↦ .bind (.check (by decide)) fun _ ↦
    .bind (.check (by decide)) fun _ ↦ .bind (codes_memcpyFrom _ _ _) fun _ ↦
    .bind (.check (by decide)) fun _ ↦ .bind (.check (by decide)) fun _ ↦
    .bind (codes_memcpyFrom _ _ _) fun _ ↦ .pure _

theorem codes_getCkbSignHash (node : Value) :
    (getCkbSignHash data view fuel node).Codes KeptCode :=
  .bind (codes_checkWalk (by decide) _) fun _ ↦ .bind (codes_checkOk (by decide) _) fun _ ↦
    .bind (codes_checkOk (by decide) _) fun _ ↦ .bind (.check (by decide)) fun _ ↦
    .bind (codes_memcpyFrom _ _ _) fun _ ↦ .bind (codes_checkOk (by decide) _) fun _ ↦
    .bind (.check (by decide)) fun _ ↦ .pure _

theorem codes_getCardanoData (dataLen : ℕ) :
    (getCardanoData env fuel data dataLen).Codes KeptCode := by
  refine .bind (.bytes _ _) fun view ↦ .bind (.check (by decide)) fun _ ↦
    .bind (codes_checkOk (by decide) _) fun rootArrNode ↦
    .bind (codes_checkOk (by decide) _) fun _ ↦ .bind (codes_getCkbSignHash _ _ _ _) fun _ ↦ ?_
  cases skip view fuel rootArrNode with
  | none => exact .done (by simp)
  | some skipped =>
      exact .bind (codes_checkOk (by decide) _) fun _ ↦ .bind (codes_getSignData _ _ _ _) fun _ ↦
        .bind (.bind (.bytes _ _) fun _ ↦ .pure _) fun _ ↦ .pure _

theorem codes_validateSignatureCardano (sig : Prog.Ptr Region) (sigLen : ℕ) (msg : Bytes)
    (msgLen outputLen : ℕ) :
    (validateSignatureCardano env fuel sig sigLen msg msgLen outputLen).Codes KeptCode :=
  .bind (.check (by decide)) fun _ ↦
    .bind (.mapFail (fun _ ↦ by decide) (codes_getCardanoData _ _ _)) fun _ ↦
    .bind (.check (by decide)) fun _ ↦ .bind (.check (by decide)) fun _ ↦ .pure _

end Cardano

/-! ## ckb_auth_validate -/

theorem codes_dispatch (hmd : MdErrors env) (fuel : ℕ) (id : UInt8) (p : Prog.Ptr Region)
    (n : ℕ) (q : Prog.Ptr Region) (messageSize : ℕ) (hash : Bytes) :
    (dispatch env fuel id p n q messageSize hash).Codes KeptCode := by
  unfold dispatch
  cases AuthAlgorithmIdType.ofByte id with
  | none => exact .fail (by decide)
  | some id =>
      have hbtc : ∀ magic magicLen, (verify hash p n q messageSize (validateSignatureBtc env)
          (convertBtcMessageVariant env magic magicLen)).Codes KeptCode := fun magic magicLen ↦
        codes_verify (fun _ _ _ ↦ codes_convertBtcMessageVariant _ _ _ hmd _ _)
          (fun _ _ _ _ _ ↦ codes_validateSignatureBtc _ _ _ _ _ hmd) _ _ _ _ _
      cases id with
      | ckb =>
          exact .bind (.check (by decide)) fun _ ↦
            codes_verify codes_convertCopy codes_validateSignatureCkb _ _ _ _ _
      | ethereum =>
          exact .bind (.check (by decide)) fun _ ↦
            codes_verify codes_convertEthMessage codes_validateSignatureEth _ _ _ _ _
      | eos =>
          exact .bind (.check (by decide)) fun _ ↦
            codes_verify (fun _ _ _ ↦ codes_convertEosMessage _ _ _ hmd)
              codes_validateSignatureEth _ _ _ _ _
      | tron =>
          exact .bind (.check (by decide)) fun _ ↦
            codes_verify codes_convertTronMessage codes_validateSignatureEth _ _ _ _ _
      | bitcoin => exact hbtc _ _
      | dogecoin => exact hbtc _ _
      | litecoin => exact hbtc _ _
      | ckbMultisig => exact codes_verifyMultisig _ _ _ _
      | schnorr => exact codes_verify codes_convertCopy codes_validateSignatureSchnorr _ _ _ _ _
      | cardano =>
          exact codes_verify codes_convertCopy (codes_validateSignatureCardano fuel) _ _ _ _ _
      | monero => exact codes_verify codes_convertCopy codes_validateSignatureMonero _ _ _ _ _
      | solana => exact codes_verify codes_convertCopy codes_validateSignatureSolana _ _ _ _ _
      | ownerLock => exact .check (by decide)
      | rsa => exact .fail (by decide)
      | iso97962 => exact .fail (by decide)

/-- Whatever `ckb_auth_validate` ends with, an error is an error in 8 bits. -/
theorem codes_ckbAuthValidate (hmd : MdErrors env) (fuel : ℕ) (id : UInt8)
    (signature : Option (Prog.Ptr Region)) (n : ℕ) (message : Option (Prog.Ptr Region))
    (messageSize : ℕ) (hash : Bytes) (hashSize : ℕ) :
    (ckbAuthValidate env fuel id signature n message messageSize hash hashSize).Codes KeptCode :=
  .bind (.ofOption (by decide)) fun _ ↦ .bind (.ofOption (by decide)) fun _ ↦
    .bind (.check (by decide)) fun _ ↦ .bind (.check (by decide)) fun _ ↦
    codes_dispatch hmd _ _ _ _ _ _ _

end CkbAuth
