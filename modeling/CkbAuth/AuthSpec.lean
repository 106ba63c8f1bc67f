import CkbAuth.Auth
import CkbAuth.MultisigSpec

/-!
# What ckb_auth_validate accepts

Every route but one runs a `convert_msg_t` function first, and each of these
looks at the size of the message.  The multisig route takes 32 bytes from the
message whatever its size.
-/

namespace CkbAuth

open CRun

variable {env : Env} {m : Mem Region}

/-! ## The size of the message -/

/-- The conversion returns only for messages of 32 bytes. -/
def ChecksSize (convert : ConvertMsg) : Prop :=
  ∀ (m : Mem Region) (msg : Prog.Ptr Region) (msgLen newMsgLen : ℕ) (out : Bytes),
    (convert msg msgLen newMsgLen).outcome m = .ret out → msgLen = 32

/-- All conversions begin with the same check. -/
theorem size_of_check {msgLen newMsgLen : ℕ} {rest : Unit → Call Bytes} {out : Bytes}
    (h : (Prog.check (¬(msgLen ≠ newMsgLen ∨ msgLen ≠ 32)) errorInvalidArg >>= rest).outcome m =
      .ret out) : msgLen = 32 := by
  rw [Prog.outcome_bind, Prog.outcome_check] at h
  obtain ⟨_, hcheck, _⟩ := Outcome.bind_eq_ret_iff.mp h
  have := Outcome.ite_ret_eq_ret_iff.mp hcheck
  omega

theorem checksSize_convertCopy : ChecksSize convertCopy :=
  fun _ _ _ _ _ h ↦ size_of_check h

theorem checksSize_convertEthMessage : ChecksSize (convertEthMessage env) :=
  fun _ _ _ _ _ h ↦ size_of_check h

theorem checksSize_convertTronMessage : ChecksSize (convertTronMessage env) :=
  fun _ _ _ _ _ h ↦ size_of_check h

theorem checksSize_convertEosMessage : ChecksSize (convertEosMessage env) :=
  fun _ _ _ _ _ h ↦ size_of_check h

theorem checksSize_convertBtcMessageVariant (magic : Bytes) (magicLen : UInt8) :
    ChecksSize (convertBtcMessageVariant env magic magicLen) :=
  fun _ _ _ _ _ h ↦ size_of_check h

section Validate

variable {fuel : ℕ} {authAlgorithmId : UInt8} {p q : Prog.Ptr Region} {signatureSize : ℕ}
  {messageSize : ℕ} {pubkeyHash : Bytes}

theorem size_of_verify {sigLen : ℕ} {func : ValidateSignature} {convert : ConvertMsg}
    (hconvert : ChecksSize convert)
    (h : (verify pubkeyHash p sigLen q messageSize func convert).outcome m = .ret ()) :
    messageSize = 32 := by
  rw [verify, Prog.outcome_bind] at h
  obtain ⟨out, hout, _⟩ := Outcome.bind_eq_ret_iff.mp h
  exact hconvert m q messageSize _ out hout

theorem size_of_checked_verify {sigLen : ℕ} {func : ValidateSignature} {convert : ConvertMsg}
    {c : Prop} [Decidable c] {e : ℤ} (hconvert : ChecksSize convert)
    (h : (Prog.check c e >>= fun _ ↦
      verify pubkeyHash p sigLen q messageSize func convert).outcome m = .ret ()) :
    messageSize = 32 := by
  rw [Prog.outcome_bind] at h
  obtain ⟨_, _, h⟩ := Outcome.bind_eq_ret_iff.mp h
  exact size_of_verify hconvert h

/-- An accepted call has a message of 32 bytes, or is one of the two routes
without a conversion. -/
theorem size_of_dispatch
    (h : (dispatch env fuel authAlgorithmId p signatureSize q messageSize pubkeyHash).outcome m =
      .ret ()) :
    messageSize = 32 ∨
    AuthAlgorithmIdType.ofByte authAlgorithmId = some .ownerLock ∨
    (AuthAlgorithmIdType.ofByte authAlgorithmId = some .ckbMultisig ∧
      (verifyMultisig env p signatureSize q pubkeyHash).outcome m = .ret ()) := by
  unfold dispatch at h
  cases hid : AuthAlgorithmIdType.ofByte authAlgorithmId with
  | none =>
      rw [hid] at h
      cases h
  | some id =>
      rw [hid] at h
      cases id with
      | ckb => exact .inl (size_of_checked_verify checksSize_convertCopy h)
      | ethereum => exact .inl (size_of_checked_verify checksSize_convertEthMessage h)
      | eos => exact .inl (size_of_checked_verify checksSize_convertEosMessage h)
      | tron => exact .inl (size_of_checked_verify checksSize_convertTronMessage h)
      | bitcoin => exact .inl (size_of_verify (checksSize_convertBtcMessageVariant _ _) h)
      | dogecoin => exact .inl (size_of_verify (checksSize_convertBtcMessageVariant _ _) h)
      | ckbMultisig => exact .inr (.inr ⟨rfl, h⟩)
      | schnorr => exact .inl (size_of_verify checksSize_convertCopy h)
      | rsa => cases h
      | iso97962 => cases h
      | litecoin => exact .inl (size_of_verify (checksSize_convertBtcMessageVariant _ _) h)
      | cardano => exact .inl (size_of_verify checksSize_convertCopy h)
      | monero => exact .inl (size_of_verify checksSize_convertCopy h)
      | solana => exact .inl (size_of_verify checksSize_convertCopy h)
      | ownerLock => exact .inr (.inl rfl)

/-! ## The checks of ckb_auth_validate -/

variable {signature message : Option (Prog.Ptr Region)} {pubkeyHashSize : ℕ}

theorem outcome_ckbAuthValidate_eq_ret_iff :
    (ckbAuthValidate env fuel authAlgorithmId signature signatureSize message messageSize
        pubkeyHash pubkeyHashSize).outcome m = .ret () ↔
      ∃ p q, signature = some p ∧ message = some q ∧ 0 < messageSize ∧ pubkeyHashSize = 20 ∧
        (dispatch env fuel authAlgorithmId p signatureSize q messageSize pubkeyHash).outcome m =
          .ret () := by
  simp only [ckbAuthValidate, Prog.outcome_bind, Outcome.bind_eq_ret_iff, Prog.outcome_ofOption,
    Outcome.ofOption_eq_ret_iff, Prog.outcome_check, Outcome.ite_ret_eq_ret_iff]
  simp only [blake160Size]
  constructor
  · rintro ⟨p, hp, q, hq, _, hm, _, hh, h⟩
    exact ⟨p, q, hp, hq, hm, hh, h⟩
  · rintro ⟨p, q, hp, hq, hm, hh, h⟩
    exact ⟨p, hp, q, hq, (), hm, (), hh, h⟩

theorem outcome_ckbAuthValidate {p q : Prog.Ptr Region} (hsize : 0 < messageSize) :
    (ckbAuthValidate env fuel authAlgorithmId (some p) signatureSize (some q) messageSize
        pubkeyHash 20).outcome m =
      (dispatch env fuel authAlgorithmId p signatureSize q messageSize pubkeyHash).outcome m := by
  simp only [ckbAuthValidate, Prog.outcome_bind, Prog.outcome_ofOption, Prog.outcome_check]
  simp only [Outcome.ofOption, Outcome.bind_ret, hsize, if_true, blake160Size]

/-- A multisig witness for the 32 bytes that lie at `message`, with a message
size that is not 32 and that no check of the route looks at. -/
structure AcceptsOtherSize (env : Env) (m : Mem Region) (authAlgorithmId : UInt8)
    (signature : Option (Prog.Ptr Region)) (signatureSize : ℕ)
    (message : Option (Prog.Ptr Region)) (messageSize : ℕ) (pubkeyHash : Bytes)
    (pubkeyHashSize : ℕ) : Prop where
  id : authAlgorithmId = AuthAlgorithmIdType.ckbMultisig.toByte
  size_ne : messageSize ≠ 32
  size_pos : 0 < messageSize
  pubkeyHashSize_eq : pubkeyHashSize = 20
  loads : ckbSecp256k1CustomVerifyOnlyInitialize env = .ok ()
  witness : ∃ p q w msg, signature = some p ∧ message = some q ∧ p.Holds m w ∧
    w.length = signatureSize ∧ q.Holds m msg ∧ msg.length = 32 ∧
    MultisigWitness env w msg pubkeyHash

theorem ofByte_eq_some_iff {b : UInt8} {id : AuthAlgorithmIdType} :
    AuthAlgorithmIdType.ofByte b = some id ↔ b = id.toByte := by
  constructor
  · intro h
    have hfound := List.find?_some h
    exact (beq_iff_eq.mp hfound).symm
  · rintro rfl
    exact AuthAlgorithmIdType.ofByte_toByte id

/-- An accepted call has a message of 32 bytes except for a multisig witness
with another message size. -/
theorem accepted_message_size_iff (fuel : ℕ) (hhash : pubkeyHash.length = pubkeyHashSize)
    (hid : authAlgorithmId ≠ AuthAlgorithmIdType.ownerLock.toByte) :
    ((ckbAuthValidate env fuel authAlgorithmId signature signatureSize message messageSize
        pubkeyHash pubkeyHashSize).outcome m = .ret () → messageSize = 32) ↔
      ¬AcceptsOtherSize env m authAlgorithmId signature signatureSize message messageSize
        pubkeyHash pubkeyHashSize := by
  rw [outcome_ckbAuthValidate_eq_ret_iff]
  constructor
  · rintro h ⟨rfl, hne, hpos, hsize, hinit, p, q, w, msg, hp, hq, hw, hwlen, hmsg, hmlen, hwit⟩
    refine hne (h ⟨p, q, hp, hq, hpos, hsize, ?_⟩)
    simp only [dispatch, AuthAlgorithmIdType.ofByte_toByte]
    exact (verifyMultisig_ret_iff_exists (hhash.trans hsize)).mpr
      ⟨w, msg, hw, hwlen, hmsg, hmlen, hinit, hwit⟩
  · rintro hno ⟨p, q, hp, hq, hpos, hsize, h⟩
    rcases size_of_dispatch h with h32 | howner | ⟨hmulti, hrun⟩
    · exact h32
    · exact absurd (ofByte_eq_some_iff.mp howner) hid
    · by_contra hne
      obtain ⟨w, msg, hw, hwlen, hmsg, hmlen, hinit, hwit⟩ :=
        (verifyMultisig_ret_iff_exists (hhash.trans hsize)).mp hrun
      exact hno ⟨ofByte_eq_some_iff.mp hmulti, hne, hpos, hsize, hinit, p, q, w, msg, hp, hq, hw,
        hwlen, hmsg, hmlen, hwit⟩

end Validate

theorem soleMessage_snoc_fits : (soleMessage ++ [0]).length ≤ 2 ^ 64 := by decide +kernel

/-- The sole-key witness is accepted with a message of 33 bytes, and of one. -/
theorem sole_witness_accepted_other_sizes :
    (ckbAuthValidate soleAnswers.env 0 6 (some ⟨.signature, 0⟩) 89 (some ⟨.message, 0⟩) 33
        (soleScriptHash.take 20) 20).outcome
      (bufferMem soleWitness (soleMessage ++ [0]) soleWitness_fits soleMessage_snoc_fits) =
        .ret () ∧
    (ckbAuthValidate soleAnswers.env 0 6 (some ⟨.signature, 0⟩) 89 (some ⟨.message, 0⟩) 1
        (soleScriptHash.take 20) 20).outcome soleMem = .ret () := by
  constructor <;> decide +kernel

theorem sole_witness_message_size :
    (ckbAuthValidate soleAnswers.env 0 6 (some ⟨.signature, 0⟩) 89 (some ⟨.message, 0⟩) 32
        (soleScriptHash.take 20) 20).outcome soleMem = .ret () ∧
      ¬AcceptsOtherSize soleAnswers.env soleMem 6 (some ⟨.signature, 0⟩) 89
        (some ⟨.message, 0⟩) 32 (soleScriptHash.take 20) 20 :=
  ⟨by decide +kernel, (accepted_message_size_iff 0 (by decide +kernel)
    (by decide +kernel)).mp fun _ ↦ rfl⟩

end CkbAuth
