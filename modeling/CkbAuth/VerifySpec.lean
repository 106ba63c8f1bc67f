import CkbAuth.Auth
import CkbAuth.EcdsaSpec
import CkbAuth.CardanoSpec

/-!
# What the routes through verify compute

All conversions and most validators check the sizes they are given first.
Behind these checks the outcome is a function of the bytes that lie at the
signature and at the message.
-/

namespace CkbAuth

open CRun

variable {env : Env} {m : Mem Region} {sig msgPtr : Prog.Ptr Region} {s msg : Bytes}

/-! ## Messages of another size -/

/-- The conversion fails for messages that have not 32 bytes. -/
def RejectsSize (convert : ConvertMsg) : Prop :=
  ∀ (m : Mem Region) (msg : Prog.Ptr Region) (n : ℕ), n ≠ 32 →
    (convert msg n 32).outcome m = .fail errorInvalidArg

theorem outcome_sizeCheck_ne {n : ℕ} (hn : n ≠ 32) (rest : Unit → Call Bytes) :
    (Prog.check (¬(n ≠ 32 ∨ n ≠ 32)) errorInvalidArg >>= rest).outcome m =
      .fail errorInvalidArg := by
  rw [Prog.outcome_bind, Prog.outcome_check, if_neg (by simp [hn]), Outcome.bind_fail]

theorem rejectsSize_copy : RejectsSize convertCopy :=
  fun _ _ _ hn ↦ outcome_sizeCheck_ne hn _

theorem rejectsSize_eth : RejectsSize (convertEthMessage env) :=
  fun _ _ _ hn ↦ outcome_sizeCheck_ne hn _

theorem rejectsSize_tron : RejectsSize (convertTronMessage env) :=
  fun _ _ _ hn ↦ outcome_sizeCheck_ne hn _

theorem rejectsSize_eos : RejectsSize (convertEosMessage env) :=
  fun _ _ _ hn ↦ outcome_sizeCheck_ne hn _

theorem rejectsSize_btc (magic : Bytes) (magicLen : UInt8) :
    RejectsSize (convertBtcMessageVariant env magic magicLen) :=
  fun _ _ _ hn ↦ outcome_sizeCheck_ne hn _

theorem verify_of_size_ne {convert : ConvertMsg} (hconvert : RejectsSize convert) {hash : Bytes}
    {n k : ℕ} (hk : k ≠ 32) {func : ValidateSignature} :
    (verify hash sig n msgPtr k func convert).outcome m = .fail errorInvalidArg := by
  rw [verify, Prog.outcome_bind]
  rw [show (convert msgPtr k blake2bBlockSize).outcome m = .fail errorInvalidArg from
    hconvert m msgPtr k hk, Outcome.bind_fail]

/-! ## Monero -/

/-- The checks of a Monero signature and the hash of its keys. -/
def moneroChecked (env : Env) (s msg : Bytes) : Outcome Bytes :=
  if s.getD 64 0 = 0 then
    let spendPubkey := (s.drop 65).take 32
    let hash := getMoneroMessageHash env spendPubkey ((s.drop 97).take 32) (s.getD 64 0) msg 32
    if ed25519VerifyMonero env (s.take 64) hash hash.length spendPubkey = 1 then
      .ret ((env.hash.blake2b ((s.drop 64).take 65)).take 20)
    else .fail errorSpawnInvalidSig
  else .fail errorInvalidArg

theorem outcome_validateSignatureMonero (hs : sig.Holds m s) (h129 : s.length = 129) :
    (validateSignatureMonero env sig 129 msg 32 20).outcome m = moneroChecked env s msg := by
  have hmode : (Prog.byte (sig + 64)).outcome m = .ret (s.getD 64 0) := hs.byte (by omega)
  have hspend : (Prog.bytes (sig + 65) 32).outcome m = .ret ((s.drop 65).take 32) :=
    hs.bytes (by omega)
  have hview : (Prog.bytes (sig + 97) 32).outcome m = .ret ((s.drop 97).take 32) :=
    hs.bytes (by omega)
  have hsig : (Prog.bytes sig 64).outcome m = .ret (s.take 64) := hs.bytes (i := 0) (by omega)
  have hinfo : (Prog.bytes (sig + 64) 65).outcome m = .ret ((s.drop 64).take 65) :=
    hs.bytes (by omega)
  simp only [validateSignatureMonero, Prog.outcome_bind, Prog.outcome_check, Prog.outcome_pure,
    moneroChecked]
  simp only [blake2bBlockSize, moneroDataSize, moneroSignatureSize, moneroPubkeySize, if_true,
    Nat.reduceMul, Nat.reduceAdd, Prog.Ptr.add_add, Outcome.bind_ret, hmode, hspend, hview, hsig,
    hinfo, blake160Size, Outcome.check_bind]

theorem validateSignatureMonero_size {n : ℕ} (hn : n ≠ 129) :
    (validateSignatureMonero env sig n msg 32 20).outcome m = .fail errorInvalidArg := by
  simp only [validateSignatureMonero, Prog.outcome_bind, Prog.outcome_check]
  simp only [blake2bBlockSize, moneroDataSize, moneroSignatureSize, moneroPubkeySize, if_true,
    Nat.reduceMul, Nat.reduceAdd, Outcome.bind_ret, hn, if_false, Outcome.bind_fail]

theorem moneroChecked_returns (env : Env) (s msg : Bytes) : (moneroChecked env s msg).Returns := by
  unfold moneroChecked
  split
  · dsimp only
    split
    · exact Outcome.returns_ret _
    · exact Outcome.returns_fail _
  · exact Outcome.returns_fail _

/-! ## Cardano -/

/-- The checks of what a witness has been read as. -/
def cardanoChecked (env : Env) (msg : Bytes) (d : CardanoSignatureData) : Outcome Bytes :=
  if msg.take 32 = d.ckbSignMsg.bytes.take 32 then
    if env.ed.verify d.signature.bytes (d.signMessage.take 32) d.publicKey.bytes = 1 then
      .ret ((env.hash.blake2b d.publicKey.bytes).take 20)
    else .fail errorWrongState
  else .fail errorInvalidArg

theorem outcome_validateSignatureCardano {fuel n : ℕ} :
    (validateSignatureCardano env fuel sig n msg 32 20).outcome m =
      (((getCardanoData env fuel sig n).outcome m).mapFail fun _ ↦ errorInvalidArg).bind
        (cardanoChecked env msg) := by
  simp only [validateSignatureCardano, Prog.outcome_bind, Prog.outcome_check,
    Prog.outcome_mapFail, Prog.outcome_pure, Outcome.check_bind]
  simp only [blake160Size, Nat.lt_irrefl, not_false_eq_true, if_true]
  rfl

theorem cardanoChecked_returns (env : Env) (msg : Bytes) (d : CardanoSignatureData) :
    (cardanoChecked env msg d).Returns := by
  unfold cardanoChecked
  split
  · split
    · exact Outcome.returns_ret _
    · exact Outcome.returns_fail _
  · exact Outcome.returns_fail _

end CkbAuth
