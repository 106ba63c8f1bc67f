import CkbAuth.SignedLock

/-!
# One identity for a signature

Every route but that of the owner lock computes 20 bytes from the signature and the message
and compares them with the content.  So a signature of a message authorises at most one
content, in whatever way and from whatever memory it is handed to `ckb_auth`, and all others
are refused for the comparison.
-/

namespace CkbAuth

open CRun

variable {env : Env} {fuel fuel' : ℕ} {m m' : Mem Region} {p p' q q' : Prog.Ptr Region}
variable {s msg hash hash' : Bytes}

/-! ## One comparison -/

/-- The run accepts at most one content of 20 bytes, and fails with `code` for the others. -/
def Pins (code : ℤ) (run : Bytes → Outcome Unit) : Prop :=
  ∀ hash hash' : Bytes, hash.length = 20 → hash'.length = 20 → hash' ≠ hash →
    run hash = .ret () → run hash' = .fail code

theorem Pins.bind {α : Type} {code : ℤ} {o : Outcome α} {run : α → Bytes → Outcome Unit}
    (h : ∀ a, Pins code (run a)) : Pins code fun hash ↦ o.bind fun a ↦ run a hash := by
  intro hash hash' hlen hlen' hne haccepted
  obtain ⟨a, rfl, hrun⟩ := Outcome.bind_eq_ret_iff.mp haccepted
  exact h a hash hash' hlen hlen' hne hrun

theorem pins_compare {code : ℤ} {out : Bytes} :
    Pins code fun hash ↦ if hash.take 20 = out then .ret () else .fail code := by
  intro hash hash' hlen hlen' hne haccepted
  have hout := Outcome.ite_ret_eq_ret_iff.mp haccepted
  apply if_neg
  intro hout'
  apply hne
  rw [← List.take_of_length_le hlen.le, ← List.take_of_length_le hlen'.le, hout, hout']

/-- What is done behind the comparison does not matter. -/
theorem Pins.before {code : ℤ} {run : Bytes → Outcome Unit} (h : Pins code run)
    (rest : Unit → Outcome Unit) : Pins code fun hash ↦ (run hash).bind rest := by
  intro hash hash' hlen hlen' hne haccepted
  have hrun := (Outcome.bind_unit_eq_ret_iff.mp haccepted).1
  change (run hash').bind rest = _
  rw [h hash hash' hlen hlen' hne hrun, Outcome.bind_fail]

theorem pins_verify {n size : ℕ} {func : ValidateSignature} {convert : ConvertMsg} :
    Pins errorMismatched fun hash ↦ (verify hash p n q size func convert).outcome m := by
  simp only [verify, Prog.outcome_bind, Prog.outcome_check]
  exact .bind fun _ ↦ .bind fun _ ↦ pins_compare

theorem pins_checked_verify {c : Prop} [Decidable c] {e : ℤ} {n size : ℕ}
    {func : ValidateSignature} {convert : ConvertMsg} :
    Pins errorMismatched fun hash ↦ (Prog.check c e >>= fun _ ↦
      verify hash p n q size func convert).outcome m := by
  simp only [Prog.outcome_bind]
  exact .bind fun _ ↦ pins_verify

/-- The script hash is compared before the signatures are looked at. -/
theorem pins_verifyMultisig {n : ℕ} :
    Pins errorMultsigScriptHash fun hash ↦ (verifyMultisig env p n q hash).outcome m := by
  simp only [verifyMultisig, Prog.outcome_bind, Prog.outcome_check]
  exact .bind fun _ ↦ .bind fun _ ↦ .bind fun _ ↦ .bind fun _ ↦ .bind fun _ ↦ .bind fun _ ↦
    .bind fun _ ↦ .bind fun _ ↦ .bind fun _ ↦ .bind fun _ ↦ .bind fun _ ↦
    pins_compare.before _

/-- The error for a content that is not the one of the signature. -/
def mismatchCode (id : UInt8) : ℤ :=
  if id = AuthAlgorithmIdType.ckbMultisig.toByte then errorMultsigScriptHash else errorMismatched

theorem pins_dispatch {id : UInt8} (hid : id ≠ AuthAlgorithmIdType.ownerLock.toByte) {n size : ℕ} :
    Pins (mismatchCode id) fun hash ↦ (dispatch env fuel id p n q size hash).outcome m := by
  have hfails {code e : ℤ} : Pins code fun _ ↦ (Prog.fail e : Call Unit).outcome m := by
    intro _ _ _ _ _ haccepted
    cases haccepted
  unfold dispatch
  cases halg : AuthAlgorithmIdType.ofByte id with
  | none => exact hfails
  | some alg =>
      obtain rfl := ofByte_eq_some_iff.mp halg
      cases alg with
      | ckb => exact pins_checked_verify
      | ethereum => exact pins_checked_verify
      | eos => exact pins_checked_verify
      | tron => exact pins_checked_verify
      | bitcoin => exact pins_verify
      | dogecoin => exact pins_verify
      | litecoin => exact pins_verify
      | ckbMultisig => exact pins_verifyMultisig
      | schnorr => exact pins_verify
      | cardano => exact pins_verify
      | monero => exact pins_verify
      | solana => exact pins_verify
      | rsa => exact hfails
      | iso97962 => exact hfails
      | ownerLock => exact absurd rfl hid

/-! ## One output -/

/-- Wherever the signature lies, the validator gives no other output. -/
def OneOutput (func : ValidateSignature) (s newMsg : Bytes) : Prop :=
  ∀ {m m' : Mem Region} {p p' : Prog.Ptr Region} {out out' : Bytes}, p.Holds m s → p'.Holds m' s →
    (func p s.length newMsg 32 20).outcome m = .ret out →
    (func p' s.length newMsg 32 20).outcome m' = .ret out' → out = out'

theorem oneOutput_of_sameVerdict {func : ValidateSignature} {newMsg : Bytes}
    (h : ∀ {m m' : Mem Region} {p p' : Prog.Ptr Region}, p.Holds m s → p'.Holds m' s →
      SameVerdict func m m' p p' s.length newMsg) : OneOutput func s newMsg := by
  intro m m' p p' out out' hs hs' hout hout'
  exact Outcome.ret.inj (((h hs hs' out).mp hout).symm.trans hout')

theorem oneOutput_ckb {newMsg : Bytes} (h65 : s.length = 65) :
    OneOutput (validateSignatureCkb env) s newMsg := by
  apply oneOutput_of_sameVerdict
  intro m m' p p' hs hs'
  apply SameVerdict.of_eq
  rw [h65, outcome_validateSignatureCkb hs h65, outcome_validateSignatureCkb hs' h65]

theorem oneOutput_eth {newMsg : Bytes} (h65 : s.length = 65) :
    OneOutput (validateSignatureEth env) s newMsg := by
  apply oneOutput_of_sameVerdict
  intro m m' p p' hs hs'
  apply SameVerdict.of_eq
  rw [h65, outcome_validateSignatureEth hs h65, outcome_validateSignatureEth hs' h65]

/-- The search for the signer may leave the wrapping, but not what comes out of it. -/
theorem oneOutput_solana (hmsg : msg.length = 32) :
    OneOutput (validateSignatureSolana env) s msg := by
  intro m m' p p' out out' hs hs' hout hout'
  by_cases h512 : s.length = 512
  · rw [← hmsg] at hout hout'
    obtain ⟨sig, pk, M, hwraps, -, -, -, rfl⟩ :=
      (outcome_validateSignatureSolana_eq_ret_iff hs h512 hmsg).mp hout
    obtain ⟨sig', pk', M', hwraps', -, -, -, rfl⟩ :=
      (outcome_validateSignatureSolana_eq_ret_iff hs' h512 hmsg).mp hout'
    obtain ⟨-, rfl, -⟩ := hwraps.unique hwraps'
    rfl
  · simp [validateSignatureSolana, h512] at hout

section Accepted

variable (hs : p.Holds m s) (hs' : p'.Holds m' s) (hq : q.Holds m msg) (hq' : q'.Holds m' msg)
  (hmsg : msg.length = 32) (hhash : hash.length = 20) (hhash' : hash'.length = 20)

include hs hs' hq hq' hmsg hhash hhash'

theorem one_content_of_verify {func : ValidateSignature} {convert : ConvertMsg}
    {g : Bytes → Outcome Bytes} (hg : Converts convert g)
    (hfunc : ∀ newMsg, g msg = .ret newMsg → OneOutput func s newMsg)
    (h : (verify hash p s.length q 32 func convert).outcome m = .ret ())
    (h' : (verify hash' p' s.length q' 32 func convert).outcome m' = .ret ()) : hash = hash' := by
  rw [outcome_verify hg hq hmsg] at h
  rw [outcome_verify hg hq' hmsg] at h'
  obtain ⟨newMsg, hnew, h⟩ := Outcome.bind_eq_ret_iff.mp h
  rw [hnew, Outcome.bind_ret] at h'
  obtain ⟨out, hout, h⟩ := Outcome.bind_eq_ret_iff.mp h
  obtain ⟨out', hout', h'⟩ := Outcome.bind_eq_ret_iff.mp h'
  have heq := Outcome.ite_ret_eq_ret_iff.mp h
  have heq' := Outcome.ite_ret_eq_ret_iff.mp h'
  rw [List.take_of_length_le hhash.le] at heq
  rw [List.take_of_length_le hhash'.le] at heq'
  rw [heq, heq', hfunc newMsg hnew hs hs' hout hout']

theorem one_content_of_checked_verify {func : ValidateSignature} {convert : ConvertMsg}
    {g : Bytes → Outcome Bytes} (hg : Converts convert g)
    (hfunc : s.length = 65 → ∀ newMsg, OneOutput func s newMsg)
    (h : (Prog.check (s.length = secp256k1SignatureSize) errorInvalidArg >>= fun _ ↦
      verify hash p s.length q 32 func convert).outcome m = .ret ())
    (h' : (Prog.check (s.length = secp256k1SignatureSize) errorInvalidArg >>= fun _ ↦
      verify hash' p' s.length q' 32 func convert).outcome m' = .ret ()) : hash = hash' := by
  rw [Prog.outcome_bind, Prog.outcome_check] at h h'
  obtain ⟨hcheck, h⟩ := Outcome.bind_unit_eq_ret_iff.mp h
  have h65 : s.length = 65 := Outcome.ite_ret_eq_ret_iff.mp hcheck
  exact one_content_of_verify hs hs' hq hq' hmsg hhash hhash' hg (fun newMsg _ ↦ hfunc h65 newMsg)
    h (Outcome.bind_unit_eq_ret_iff.mp h').2

theorem one_content_of_verifyMultisig
    (h : (verifyMultisig env p s.length q hash).outcome m = .ret ())
    (h' : (verifyMultisig env p' s.length q' hash').outcome m' = .ret ()) : hash = hash' := by
  have hlen := (mapped_of_verifyMultisig h).1
  have hscript := ((outcome_verifyMultisig_eq_ret_iff hs hlen hhash hq hmsg).mp h).2.script
  have hscript' := ((outcome_verifyMultisig_eq_ret_iff hs' hlen hhash' hq' hmsg).mp h').2.script
  rw [← hscript, ← hscript']

theorem one_content_of_dispatch {id : UInt8} (hid : id ≠ AuthAlgorithmIdType.ownerLock.toByte)
    (h : (dispatch env fuel id p s.length q 32 hash).outcome m = .ret ())
    (h' : (dispatch env fuel id p' s.length q' 32 hash').outcome m' = .ret ()) : hash = hash' := by
  have hchecked {func convert g} := @one_content_of_checked_verify m m' p p' q q' s msg hash hash'
    hs hs' hq hq' hmsg hhash hhash' func convert g
  have hplain {func convert g} := @one_content_of_verify m m' p p' q q' s msg hash hash'
    hs hs' hq hq' hmsg hhash hhash' func convert g
  unfold dispatch at h h'
  cases halg : AuthAlgorithmIdType.ofByte id with
  | none =>
      rw [halg] at h
      cases h
  | some alg =>
      rw [halg] at h h'
      cases alg with
      | ckb => exact hchecked converts_copy (fun h65 _ ↦ oneOutput_ckb h65) h h'
      | ethereum => exact hchecked converts_eth (fun h65 _ ↦ oneOutput_eth h65) h h'
      | eos => exact hchecked converts_eos (fun h65 _ ↦ oneOutput_eth h65) h h'
      | tron => exact hchecked converts_tron (fun h65 _ ↦ oneOutput_eth h65) h h'
      | bitcoin =>
          exact hplain (converts_btc _ _) (fun _ _ ↦ oneOutput_of_sameVerdict sameVerdict_btc) h h'
      | dogecoin =>
          exact hplain (converts_btc _ _) (fun _ _ ↦ oneOutput_of_sameVerdict sameVerdict_btc) h h'
      | litecoin =>
          exact hplain (converts_btc _ _) (fun _ _ ↦ oneOutput_of_sameVerdict sameVerdict_btc) h h'
      | ckbMultisig =>
          exact one_content_of_verifyMultisig hs hs' hq hq' hmsg hhash hhash' h h'
      | schnorr =>
          exact hplain converts_copy (fun _ _ ↦ oneOutput_of_sameVerdict sameVerdict_schnorr) h h'
      | cardano =>
          exact hplain converts_copy (fun _ _ ↦ oneOutput_of_sameVerdict sameVerdict_cardano) h h'
      | monero =>
          exact hplain converts_copy (fun _ _ ↦ oneOutput_of_sameVerdict sameVerdict_monero) h h'
      | solana =>
          refine hplain converts_copy (fun newMsg hnew ↦ ?_) h h'
          obtain rfl : msg = newMsg := Outcome.ret.inj hnew
          exact oneOutput_solana hmsg
      | rsa => cases h
      | iso97962 => cases h
      | ownerLock => exact absurd (ofByte_eq_some_iff.mp halg) hid

end Accepted

/-! ## The calls of ckb_auth -/

section Parent

variable {child : ChildMemory} {loader : Loader} {entry : CkbEntryType} {id id' : CkbAuthType}

/-- An accepted call could load or start the program, and was not too long to spawn. -/
theorem runs_of_ckbAuth {n : ℕ}
    (h : (ckbAuth env fuel child loader entry id p n q).outcome m = .ret ()) :
    loader.Runs entry n := by
  unfold ckbAuth at h
  by_cases hlink : entry.entryCategory = entryCategoryDynamicLinking
  · rw [if_pos hlink] at h
    simp only [Prog.outcome_bind, Prog.outcome_check, Outcome.bind_unit_eq_ret_iff,
      Outcome.ite_ret_eq_ret_iff] at h
    exact .inl ⟨hlink, h.1, h.2.1⟩
  · rw [if_neg hlink] at h
    by_cases hspawn : entry.entryCategory = entryCategorySpawn
    · rw [if_pos hspawn] at h
      simp only [Prog.outcome_bind, Prog.outcome_check, Outcome.bind_eq_ret_iff,
        Outcome.ite_ret_eq_ret_iff] at h
      obtain ⟨_, hsize, _, _, _, _, _, _, _, _, _, _, _, _, _, hstart, _⟩ := h
      exact .inr ⟨hspawn, Nat.not_lt.mp hsize, hstart⟩
    · rw [if_neg hspawn] at h
      cases h

/-- Behind an accepted call stands an accepted run on the same bytes, and where this run fails
for another content the call fails with its error. -/
theorem dispatch_of_ckbAuth (hmd : MdErrors env)
    (hauth : loader.NamesAuth entry.codeHash entry.hashType)
    (hp : p.Holds m s) (hq : q.Holds m msg) (hmsg : msg.length = 32)
    (h : (ckbAuth env fuel child loader entry id p s.length q).outcome m = .ret ()) :
    ∃ m' p' q', Prog.Ptr.Holds m' p' s ∧ Prog.Ptr.Holds m' q' msg ∧
      (dispatch env fuel id.algorithmId p' s.length q' 32 id.content).outcome m' = .ret () ∧
      ∀ (content : Bytes) (hcontent : content.length = 20) (e : ℤ), e.bmod 256 = e → e ≠ 0 →
        (dispatch env fuel id.algorithmId p' s.length q' 32 content).outcome m' = .fail e →
        (ckbAuth env fuel child loader entry ⟨id.algorithmId, content, hcontent⟩ p s.length
          q).outcome m = .fail e := by
  rcases runs_of_ckbAuth h with ⟨hlink, hload, hsym⟩ | ⟨hspawn, hsize, hstart⟩
  · refine ⟨m, p, q, hp, hq, ?_, fun content hcontent e _ _ hfails ↦ ?_⟩
    · rw [← outcome_ckbAuthValidate (by decide),
        ← outcome_ckbAuth_dynamicLinking entry hlink hauth hload hsym, h]
    · rw [outcome_ckbAuth_dynamicLinking entry hlink hauth hload hsym,
        outcome_ckbAuthValidate (by decide), hfails]
  · have hchild : s.length ≤ 1024 * 64 := by omega
    refine ⟨child.mem s msg, _, _, child.holds_signature hchild hmsg,
      child.holds_message hchild hmsg, ?_, fun content hcontent e hmod hne hfails ↦ ?_⟩
    · rw [outcome_ckbAuth_spawn entry hspawn hauth hp hsize hq hmsg hstart] at h
      obtain ⟨code, hcode, hzero⟩ := Outcome.bind_eq_ret_iff.mp h
      obtain rfl : code = 0 := Outcome.ite_ret_eq_ret_iff.mp hzero
      have haccepted := ((exitCode_main_eq_zero_iff encodes_ckbGethex hmd hmsg
        id.content_length).mp hcode).2
      rwa [childValidate, outcome_ckbAuthValidate (by decide)] at haccepted
    · rw [outcome_ckbAuth_spawn entry hspawn hauth hp hsize hq hmsg hstart,
        outcome_main encodes_ckbGethex hchild hmsg hcontent, outcome_ckbAuthValidate (by decide),
        hfails, exitCode, Outcome.bind_ret, hmod, if_neg hne]

/-- A content that is not the one of the signature is refused with the error of the
comparison, by the call that accepts the other one. -/
theorem ckbAuth_other_content (hmd : MdErrors env)
    (hauth : loader.NamesAuth entry.codeHash entry.hashType)
    (hid : id.algorithmId ≠ AuthAlgorithmIdType.ownerLock.toByte)
    (halg : id'.algorithmId = id.algorithmId) (hne : id'.content ≠ id.content)
    (hp : p.Holds m s) (hq : q.Holds m msg) (hmsg : msg.length = 32)
    (h : (ckbAuth env fuel child loader entry id p s.length q).outcome m = .ret ()) :
    (ckbAuth env fuel child loader entry id' p s.length q).outcome m =
      .fail (mismatchCode id.algorithmId) := by
  obtain ⟨m', p', q', -, -, haccepted, hother⟩ := dispatch_of_ckbAuth hmd hauth hp hq hmsg h
  obtain ⟨algorithmId, content, hcontent⟩ := id'
  obtain rfl : algorithmId = id.algorithmId := halg
  have hkept : (mismatchCode id.algorithmId).bmod 256 = mismatchCode id.algorithmId ∧
      mismatchCode id.algorithmId ≠ 0 := by
    rw [mismatchCode]
    split <;> decide
  exact hother content hcontent _ hkept.1 hkept.2
    (pins_dispatch hid _ _ id.content_length hcontent hne haccepted)

/-- What is accepted is accepted with more iterations too. -/
theorem dispatch_mono {id : UInt8} (hs : p.Holds m s) (hq : q.Holds m msg) (hmsg : msg.length = 32)
    (hfuel : fuel ≤ fuel') (h : (dispatch env fuel id p s.length q 32 hash).outcome m = .ret ()) :
    (dispatch env fuel' id p s.length q 32 hash).outcome m = .ret () := by
  unfold dispatch at h ⊢
  cases halg : AuthAlgorithmIdType.ofByte id with
  | none =>
      rw [halg] at h
      exact h
  | some alg =>
      rw [halg] at h
      cases alg with
      | cardano =>
          -- the loops of the walk are the only ones that count
          rw [outcome_verify converts_copy hq hmsg, Outcome.bind_ret, Outcome.bind_eq_ret_iff] at h ⊢
          obtain ⟨out, hout, hcompare⟩ := h
          refine ⟨out, ?_, hcompare⟩
          simp only [outcome_validateSignatureCardano, Outcome.bind_eq_ret_iff,
            Outcome.mapFail_eq_ret_iff, outcome_getCardanoData_eq_ret_iff hs] at hout ⊢
          obtain ⟨d, ⟨h, k, sg, hwalk, rfl⟩, hchecked⟩ := hout
          exact ⟨_, ⟨h, k, sg, hwalk.mono hfuel, rfl⟩, hchecked⟩
      | _ => exact h

/-- Two accepted calls of the auth program with one signature of one message under one algorithm
are for one content, in whatever way they are made and from wherever the bytes are read. -/
theorem ckbAuth_one_content {child' : ChildMemory} {loader' : Loader} {entry' : CkbEntryType}
    (hmd : MdErrors env) (hauth : loader.NamesAuth entry.codeHash entry.hashType)
    (hauth' : loader'.NamesAuth entry'.codeHash entry'.hashType)
    (hid : id.algorithmId ≠ AuthAlgorithmIdType.ownerLock.toByte)
    (halg : id'.algorithmId = id.algorithmId) (hp : p.Holds m s) (hp' : p'.Holds m' s)
    (hq : q.Holds m msg) (hq' : q'.Holds m' msg) (hmsg : msg.length = 32)
    (h : (ckbAuth env fuel child loader entry id p s.length q).outcome m = .ret ())
    (h' : (ckbAuth env fuel' child' loader' entry' id' p' s.length q').outcome m' = .ret ()) :
    id = id' := by
  obtain ⟨m₁, p₁, q₁, hs₁, hmsg₁, haccepted, -⟩ := dispatch_of_ckbAuth hmd hauth hp hq hmsg h
  obtain ⟨m₂, p₂, q₂, hs₂, hmsg₂, haccepted', -⟩ := dispatch_of_ckbAuth hmd hauth' hp' hq'
    hmsg h'
  rw [halg] at haccepted'
  have hcontent := one_content_of_dispatch hs₁ hs₂ hmsg₁ hmsg₂ hmsg id.content_length
    id'.content_length hid
    (dispatch_mono hs₁ hmsg₁ hmsg (Nat.le_max_left fuel fuel') haccepted)
    (dispatch_mono hs₂ hmsg₂ hmsg (Nat.le_max_right fuel fuel') haccepted')
  obtain ⟨algorithmId, content, hlen⟩ := id
  obtain ⟨algorithmId', content', hlen'⟩ := id'
  obtain rfl : algorithmId' = algorithmId := halg
  obtain rfl : content = content' := hcontent
  rfl

/-! ## The owner lock -/

/-- An input has a lock hash that begins with the content, and all inputs before it could be
loaded. -/
def LockHashPresent (content : Bytes) (hashes : List (Except ℤ Bytes)) : Prop :=
  ∃ (loaded : List Bytes) (buff : Bytes) (rest : List (Except ℤ Bytes)),
    hashes = loaded.map .ok ++ .ok buff :: rest ∧ buff.take 20 = content

theorem lockHashPresent_cons_iff {content buff : Bytes} {hashes : List (Except ℤ Bytes)} :
    LockHashPresent content (.ok buff :: hashes) ↔
      buff.take 20 = content ∨ LockHashPresent content hashes := by
  constructor
  · rintro ⟨loaded, buff', rest, heq, hfound⟩
    cases loaded with
    | nil =>
        obtain ⟨hbuff, -⟩ := List.cons.inj heq
        obtain rfl := Except.ok.inj hbuff
        exact .inl hfound
    | cons first loaded => exact .inr ⟨loaded, buff', rest, (List.cons.inj heq).2, hfound⟩
  · rintro (hfound | ⟨loaded, buff', rest, rfl, hfound⟩)
    · exact ⟨[], buff, hashes, rfl, hfound⟩
    · exact ⟨buff :: loaded, buff', rest, rfl, hfound⟩

theorem isLockScriptHashPresent_iff {content : Bytes} (hcontent : content.length = 20)
    (hashes : List (Except ℤ Bytes)) :
    isLockScriptHashPresent content hashes = true ↔ LockHashPresent content hashes := by
  induction hashes with
  | nil =>
      refine iff_of_false (by simp [isLockScriptHashPresent]) ?_
      rintro ⟨loaded, buff, rest, heq, -⟩
      cases loaded <;> cases heq
  | cons first hashes ih =>
      cases first with
      | error e =>
          refine iff_of_false (by simp [isLockScriptHashPresent]) ?_
          rintro ⟨loaded, buff, rest, heq, -⟩
          cases loaded <;> cases heq
      | ok buff =>
          rw [lockHashPresent_cons_iff, ← ih, isLockScriptHashPresent, blake160Size,
            List.take_of_length_le hcontent.le]
          by_cases hfound : content = buff.take 20
          · rw [if_pos hfound]
            exact iff_of_true rfl (.inl hfound.symm)
          · rw [if_neg hfound]
            exact (or_iff_right fun h ↦ hfound h.symm).symm

/-- The owner lock asks for an input with the lock hash and looks at nothing that is signed. -/
theorem ckbAuth_ownerLock (hauth : loader.NamesAuth entry.codeHash entry.hashType)
    (hruns : loader.Runs entry s.length)
    (hid : id.algorithmId = AuthAlgorithmIdType.ownerLock.toByte)
    (hp : p.Holds m s) (hq : q.Holds m msg) (hmsg : msg.length = 32) :
    ((ckbAuth env fuel child loader entry id p s.length q).outcome m = .ret () ∧
      LockHashPresent id.content env.inputLockHashes) ∨
    ((ckbAuth env fuel child loader entry id p s.length q).outcome m = .fail errorMismatched ∧
      ¬LockHashPresent id.content env.inputLockHashes) := by
  have hdispatch (m : Mem Region) (p q : Prog.Ptr Region) :
      (ckbAuthValidate env fuel id.algorithmId (some p) s.length (some q) 32 id.content
        20).outcome m =
      if isLockScriptHashPresent id.content env.inputLockHashes = true then .ret ()
      else .fail errorMismatched := by
    rw [outcome_ckbAuthValidate (by decide), hid, dispatch,
      AuthAlgorithmIdType.ofByte_toByte]
    exact Prog.outcome_check _ _ _
  by_cases hpresent : LockHashPresent id.content env.inputLockHashes
  · have hfound := (isLockScriptHashPresent_iff id.content_length _).mpr hpresent
    refine .inl ⟨ckbAuth_told hauth hruns (.inl rfl) hmsg (fun _ _ ↦ ?_) hp hq, hpresent⟩
    rw [hdispatch, if_pos hfound]
  · have hmissing := mt (isLockScriptHashPresent_iff id.content_length _).mp hpresent
    have htold : Told (.fail errorMismatched) := .inr ⟨101, rfl, by decide, by decide⟩
    refine .inr ⟨ckbAuth_told hauth hruns htold hmsg (fun _ _ ↦ ?_) hp hq, hpresent⟩
    rw [hdispatch, if_neg hmissing]

end Parent

/-! ## Another content for the sole key -/

def otherMultisigId : CkbAuthType := ⟨6, List.replicate 20 3, rfl⟩

theorem soleWitness_linked :
    (ckbAuth soleAnswers.env 0 bareChild readyLoader (someEntry entryCategoryDynamicLinking)
        soleMultisigId ⟨.signature, 0⟩ soleWitness.length ⟨.message, 0⟩).outcome soleMem =
      .ret () := by
  decide +kernel

theorem soleWitness_linked_other_content :
    (ckbAuth soleAnswers.env 0 bareChild readyLoader (someEntry entryCategoryDynamicLinking)
        otherMultisigId ⟨.signature, 0⟩ soleWitness.length ⟨.message, 0⟩).outcome soleMem =
      .fail errorMultsigScriptHash := by
  have hid : soleMultisigId.algorithmId ≠ AuthAlgorithmIdType.ownerLock.toByte := by decide
  have hne : otherMultisigId.content ≠ soleMultisigId.content := by decide +kernel
  exact ckbAuth_other_content (mdErrors_of_knownAnswers soleAnswers)
    (readyLoader_namesAuth _ _) hid rfl hne (bufferMem_holds_signature ..)
    (bufferMem_holds_message ..) (by decide +kernel) soleWitness_linked

/-- Nor does a child take another content that reads the same bytes. -/
theorem soleWitness_not_spawned_other_content :
    (ckbAuth soleAnswers.env 0 bareChild readyLoader (someEntry entryCategorySpawn)
        otherMultisigId ⟨.signature, 0⟩ soleWitness.length ⟨.message, 0⟩).outcome soleMem ≠
      .ret () := by
  intro hother
  have hid : soleMultisigId.algorithmId ≠ AuthAlgorithmIdType.ownerLock.toByte := by decide
  have hs : Prog.Ptr.Holds soleMem ⟨.signature, 0⟩ soleWitness := bufferMem_holds_signature ..
  have hq : Prog.Ptr.Holds soleMem ⟨.message, 0⟩ soleMessage := bufferMem_holds_message ..
  have hmsg : soleMessage.length = 32 := length_bytesOfNat ..
  have hsame : soleMultisigId = otherMultisigId := ckbAuth_one_content
    (mdErrors_of_knownAnswers soleAnswers) (readyLoader_namesAuth _ _) (readyLoader_namesAuth _ _)
    hid rfl hs hs hq hq hmsg soleWitness_linked hother
  exact absurd (congrArg CkbAuthType.content hsame) (by decide +kernel)

/-! ## The lock hash of the second input -/

def twoInputs : Env :=
  { soleAnswers.env with
    inputLockHashes := [.ok (List.replicate 32 1), .ok (List.replicate 32 2)] }

def secondInputId : CkbAuthType := ⟨0xFC, List.replicate 20 2, rfl⟩

/-- The signature is empty. -/
theorem second_input_owns :
    (ckbAuth twoInputs 0 bareChild readyLoader (someEntry entryCategorySpawn) secondInputId
      ⟨.signature, 0⟩ 0 ⟨.message, 0⟩).outcome
        (bufferMem [] soleMessage (Nat.zero_le _) soleMessage_fits) = .ret () := by
  have hpresent : LockHashPresent secondInputId.content twoInputs.inputLockHashes :=
    ⟨[List.replicate 32 1], List.replicate 32 2, [], rfl, rfl⟩
  have hruns : readyLoader.Runs (someEntry entryCategorySpawn) 0 := .inr ⟨rfl, Nat.zero_le _, rfl⟩
  have hverdict := @ckbAuth_ownerLock twoInputs 0 _ _ _ [] _ bareChild _ _ secondInputId
    (readyLoader_namesAuth _ _) hruns rfl
    (bufferMem_holds_signature [] soleMessage (Nat.zero_le _) soleMessage_fits)
    (bufferMem_holds_message [] soleMessage (Nat.zero_le _) soleMessage_fits) (by decide +kernel)
  rcases hverdict with ⟨haccepted, -⟩ | ⟨-, hmissing⟩
  · exact haccepted
  · exact absurd hpresent hmissing

end CkbAuth
