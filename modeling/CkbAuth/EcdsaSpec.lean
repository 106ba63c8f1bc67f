import CkbAuth.Convert

/-!
# What the secp256k1 validators compute

Each function of `CkbAuth.Ecdsa` and `CkbAuth.Convert` that reads through a
pointer, as a function of the bytes that lie there.
-/

namespace CkbAuth

open CRun

variable {env : Env} {m : Mem Region} {sig : Prog.Ptr Region} {s : Bytes}

theorem outcome_parseCompact (env : Env) (hs : sig.Holds m s) (hlen : 64 ≤ s.length) (recid : ℕ) :
    (secp256k1EcdsaRecoverableSignatureParseCompact env sig recid).outcome m =
      if recid ≤ 3 then .ret (env.secp.parseCompact (s.take 64) recid)
      else .exit ckbSecp256k1HelperErrorIllegalCallback := by
  have hbytes : (Prog.bytes sig 64).outcome m = .ret (s.take 64) := by
    simpa using hs.bytes (i := 0) (n := 64) (by omega)
  unfold secp256k1EcdsaRecoverableSignatureParseCompact
  by_cases h : recid ≤ 3
  · rw [if_pos ⟨by omega, by omega⟩, if_pos h]
    rw [Prog.outcome_bind, hbytes]
    simp
  · rw [if_neg (by omega), if_neg h]
    rfl

/-! ## Recovering the key -/

/-- The key that made a signature, serialized. -/
def recoveredKey (env : Env) (sig64 : Bytes) (recid : ℕ) (msg : Bytes) (compressed : Bool) :
    Option Bytes :=
  (env.secp.parseCompact sig64 recid).bind fun signature ↦
    (env.secp.recover signature msg).bind fun pubkey ↦ env.secp.serialize pubkey compressed

/-- What is left of a recovery once the sizes are checked. -/
def recoverFrom (env : Env) (sig64 : Bytes) (recid : ℕ) (msg : Bytes) (compressed : Bool) :
    Outcome Bytes :=
  (Outcome.ofExcept (ckbSecp256k1CustomVerifyOnlyInitialize env)).bind fun _ ↦
    if recid ≤ 3 then .ofOption errorWrongState (recoveredKey env sig64 recid msg compressed)
    else .exit ckbSecp256k1HelperErrorIllegalCallback

/-- The three library calls report failure by the same code. -/
theorem outcome_recoveredKey {sig64 : Bytes} {recid : ℕ} {msg : Bytes} {compressed : Bool} :
    ((Outcome.ofOption errorWrongState (env.secp.parseCompact sig64 recid)).bind fun signature ↦
      (Outcome.ofOption errorWrongState (env.secp.recover signature msg)).bind fun pubkey ↦
        Outcome.ofOption errorWrongState (env.secp.serialize pubkey compressed)) =
      .ofOption errorWrongState (recoveredKey env sig64 recid msg compressed) := by
  rw [recoveredKey]
  cases env.secp.parseCompact sig64 recid with
  | none => rfl
  | some signature =>
      simp only [Option.bind_some, Outcome.ofOption, Outcome.bind_ret]
      cases env.secp.recover signature msg with
      | none => rfl
      | some pubkey => rfl

theorem outcome_recoverSecp256k1Pubkey (hs : sig.Holds m s) (h65 : s.length = 65) (msg : Bytes)
    (compressed : Bool) :
    (recoverSecp256k1Pubkey env sig 65 msg 32 compressed).outcome m =
      recoverFrom env (s.take 64) (s.getD 64 0).toNat msg compressed := by
  have hrecid : (Prog.byte (sig + 64)).outcome m = .ret (s.getD 64 0) := hs.byte (by omega)
  have hparse := outcome_parseCompact env hs (by omega) (s.getD 64 0).toNat
  simp only [recoverSecp256k1Pubkey, Prog.outcome_bind, Prog.outcome_check, recoverFrom]
  simp only [secp256k1SignatureSize, secp256k1MessageSize, recidIndex, if_true, Outcome.bind_ret,
    Prog.outcome_ofExcept, hrecid, hparse]
  congr 1
  funext _
  split
  · simp only [Outcome.bind_ret, Prog.outcome_ofOption]
    exact outcome_recoveredKey
  · rfl

/-- The recovery id in a header byte. -/
def headerRecid (header : UInt8) : ℕ := (((header.toNat : ℤ) - 27) % 4).toNat

/-- Whether the header byte asks for a compressed key. -/
def headerCompressed (header : UInt8) : Bool := ((header.toNat : ℤ) - 27) / 4 % 2 != 0

theorem headerRecid_le (header : UInt8) : headerRecid header ≤ 3 := by
  unfold headerRecid
  omega

theorem outcome_recoverSecp256k1PubkeyBtc (hs : sig.Holds m s) (h65 : s.length = 65)
    (msg : Bytes) :
    (recoverSecp256k1PubkeyBtc env sig 65 msg 32).outcome m =
      recoverFrom env ((s.drop 1).take 64) (headerRecid (s.getD 0 0)) msg
        (headerCompressed (s.getD 0 0)) := by
  have hheader : (Prog.byte sig).outcome m = .ret (s.getD 0 0) := hs.byte (i := 0) (by omega)
  have htail : (sig + 1).Holds m ((s.drop 1).take 64) := hs.part (by omega)
  have hrecid : ((s.getD 0 0).toNat - 27 : ℤ) % 4 = headerRecid (s.getD 0 0) := by
    unfold headerRecid
    omega
  have hparse := outcome_parseCompact env htail
    (by rw [List.length_take, List.length_drop]; omega) (headerRecid (s.getD 0 0))
  rw [List.take_take, Nat.min_self] at hparse
  simp only [recoverSecp256k1PubkeyBtc, Prog.outcome_bind, Prog.outcome_check, recoverFrom]
  simp only [secp256k1SignatureSize, secp256k1MessageSize, if_true, Outcome.bind_ret,
    Prog.outcome_ofExcept, hheader, hrecid, hparse]
  congr 1
  funext _
  split
  · simp only [Outcome.bind_ret, Prog.outcome_ofOption]
    exact outcome_recoveredKey
  · rfl

/-! ## Validators -/

variable {msg : Bytes}

theorem outcome_validateSignatureCkb (hs : sig.Holds m s) (h65 : s.length = 65) :
    (validateSignatureCkb env sig 65 msg 32 20).outcome m =
      (recoverFrom env (s.take 64) (s.getD 64 0).toNat msg true).bind fun pubkey ↦
        .ret ((env.hash.blake2b pubkey).take 20) := by
  simp only [validateSignatureCkb, Prog.outcome_bind, Prog.outcome_check,
    outcome_recoverSecp256k1Pubkey hs h65, Prog.outcome_pure]
  simp only [blake160Size, Nat.lt_irrefl, not_false_eq_true, if_true, Outcome.bind_ret]

/-- The key hash of Ethereum and its siblings. -/
def ethKeyHash (env : Env) (pubkey : Bytes) : Bytes :=
  ((keccakFinal env (keccakUpdate keccakInit (pubkey.drop 1) (pubkey.length - 1))).drop 12).take 20

theorem outcome_validateSignatureEth (hs : sig.Holds m s) (h65 : s.length = 65) :
    (validateSignatureEth env sig 65 msg 32 20).outcome m =
      (recoverFrom env (s.take 64) (s.getD 64 0).toNat msg false).bind fun pubkey ↦
        .ret (ethKeyHash env pubkey) := by
  simp only [validateSignatureEth, Prog.outcome_bind, Prog.outcome_check,
    outcome_recoverSecp256k1Pubkey hs h65, Prog.outcome_pure]
  simp only [blake160Size, Nat.lt_irrefl, not_false_eq_true, if_true, Outcome.bind_ret, ethKeyHash]

/-- The key hash of Bitcoin and its siblings. -/
def btcKeyHash (env : Env) (pubkey : Bytes) : Outcome Bytes :=
  (Outcome.ofExcept (env.hash.md .sha256 pubkey)).bind fun temp ↦
    (Outcome.ofExcept (env.hash.md .ripemd160 (temp.take 32))).bind fun temp ↦
      .ret (temp.take 20)

theorem outcome_validateSignatureBtc (hs : sig.Holds m s) (h65 : s.length = 65) :
    (validateSignatureBtc env sig 65 msg 32 20).outcome m =
      (recoverFrom env ((s.drop 1).take 64) (headerRecid (s.getD 0 0)) msg
        (headerCompressed (s.getD 0 0))).bind (btcKeyHash env) := by
  simp only [validateSignatureBtc, Prog.outcome_bind, Prog.outcome_check,
    outcome_recoverSecp256k1PubkeyBtc hs h65, Prog.outcome_ofExcept, Prog.outcome_pure]
  simp only [blake160Size, Nat.lt_irrefl, not_false_eq_true, if_true, Outcome.bind_ret]
  rfl

theorem validateSignatureBtc_size {n : ℕ} (hn : n ≠ 65) :
    (validateSignatureBtc env sig n msg 32 20).outcome m = .fail errorInvalidArg := by
  simp only [validateSignatureBtc, recoverSecp256k1PubkeyBtc, Prog.outcome_bind,
    Prog.outcome_check]
  simp only [blake160Size, secp256k1SignatureSize, Nat.lt_irrefl, not_false_eq_true, if_true,
    Outcome.bind_ret, hn, if_false, Outcome.bind_fail]

/-- The checks of a Schnorr signature and the hash of its key. -/
def schnorrChecked (env : Env) (s msg : Bytes) : Outcome Bytes :=
  (Outcome.ofExcept (ckbSecp256k1CustomVerifyOnlyInitialize env)).bind fun _ ↦
    (Outcome.ofOption errorSchnorr (env.secp.xonlyPubkeyParse (s.take 32))).bind fun pk ↦
      if env.secp.schnorrsigVerify ((s.drop 32).take 64) msg pk = true then
        .ret ((env.hash.blake2b (s.take 32)).take 20)
      else .fail errorSchnorr

theorem outcome_validateSignatureSchnorr (hs : sig.Holds m s) (h96 : s.length = 96) :
    (validateSignatureSchnorr env sig 96 msg 32 20).outcome m = schnorrChecked env s msg := by
  have hkey : (Prog.bytes sig 32).outcome m = .ret (s.take 32) :=
    hs.bytes (i := 0) (n := 32) (by omega)
  have hsig : (Prog.bytes (sig + 32) 64).outcome m = .ret ((s.drop 32).take 64) :=
    hs.bytes (by omega)
  simp only [validateSignatureSchnorr, Prog.outcome_bind, Prog.outcome_check, Prog.outcome_pure,
    Prog.outcome_ofExcept, Prog.outcome_ofOption, schnorrChecked]
  simp only [blake160Size, schnorrSignatureSize, schnorrPubkeySize, Nat.lt_irrefl, if_true,
    not_false_eq_true, and_self, Nat.reduceAdd, Outcome.bind_ret, hkey, hsig]
  congr 1
  funext _
  congr 1
  funext pk
  split <;> rfl

theorem validateSignatureSchnorr_size {n : ℕ} (hn : n ≠ 96) :
    (validateSignatureSchnorr env sig n msg 32 20).outcome m = .fail errorInvalidArg := by
  simp only [validateSignatureSchnorr, Prog.outcome_bind, Prog.outcome_check]
  simp only [blake160Size, schnorrSignatureSize, Nat.lt_irrefl, not_false_eq_true, if_true,
    Nat.reduceAdd, Outcome.bind_ret, hn, false_and, if_false, Outcome.bind_fail]

/-! ## Conversions -/

variable {msgPtr : Prog.Ptr Region}

/-- A conversion that looks at 32 bytes and computes `g` of them. -/
def Converts (convert : ConvertMsg) (g : Bytes → Outcome Bytes) : Prop :=
  ∀ {m : Mem Region} {msgPtr : Prog.Ptr Region} {msg : Bytes}, msgPtr.Holds m msg →
    msg.length = 32 → (convert msgPtr 32 32).outcome m = g msg

/-- Every conversion begins with a check of both sizes. -/
theorem outcome_sizeCheck (rest : Unit → Call Bytes) :
    (Prog.check (¬(32 ≠ 32 ∨ 32 ≠ 32)) errorInvalidArg >>= rest).outcome m =
      (rest ()).outcome m := by
  rw [Prog.outcome_bind, Prog.outcome_check, if_pos (by decide), Outcome.bind_ret]

theorem converts_copy : Converts convertCopy .ret := by
  intro m msgPtr msg hmsg hlen
  refine (outcome_sizeCheck _).trans ?_
  exact hmsg.bytes_all hlen

/-- What the conversions of Ethereum and Tron compute. -/
def keccakPrefixed (env : Env) (pre msg : Bytes) : Bytes :=
  keccakFinal env (keccakUpdate (keccakUpdate keccakInit pre pre.length) msg 32)

theorem converts_eth :
    Converts (convertEthMessage env) fun msg ↦
      .ret (keccakPrefixed env (0x19 :: ascii "Ethereum Signed Message:\n32") msg) := by
  intro m msgPtr msg hmsg hlen
  have hbytes : (Prog.bytes msgPtr 32).outcome m = .ret msg := hmsg.bytes_all hlen
  refine (outcome_sizeCheck _).trans ?_
  rw [Prog.outcome_bind, hbytes]
  rfl

theorem converts_tron :
    Converts (convertTronMessage env) fun msg ↦
      .ret (keccakPrefixed env (0x19 :: ascii "TRON Signed Message:\n32") msg) := by
  intro m msgPtr msg hmsg hlen
  have hbytes : (Prog.bytes msgPtr 32).outcome m = .ret msg := hmsg.bytes_all hlen
  refine (outcome_sizeCheck _).trans ?_
  rw [Prog.outcome_bind, hbytes]
  rfl

theorem converts_eos :
    Converts (convertEosMessage env) fun msg ↦ .ofExcept (env.hash.md .sha256 msg) := by
  intro m msgPtr msg hmsg hlen
  have hbytes : (Prog.bytes msgPtr 32).outcome m = .ret msg := hmsg.bytes_all hlen
  refine (outcome_sizeCheck _).trans ?_
  rw [Prog.outcome_bind, hbytes, Outcome.bind_ret, Prog.outcome_ofExcept]
  rfl

/-- What the conversions of the Bitcoin family compute. -/
def btcDigest (env : Env) (magic : Bytes) (magicLen : UInt8) (msg : Bytes) : Outcome Bytes :=
  (Outcome.ofExcept (env.hash.md .sha256
    (magicLen :: magic.take magicLen.toNat ++ [messageHexLen] ++ binToHex msg))).bind fun digest ↦
      .ofExcept (env.hash.md .sha256 (digest.take 32))

theorem converts_btc (magic : Bytes) (magicLen : UInt8) :
    Converts (convertBtcMessageVariant env magic magicLen) (btcDigest env magic magicLen) := by
  intro m msgPtr msg hmsg hlen
  have hbytes : (Prog.bytes msgPtr 32).outcome m = .ret msg := hmsg.bytes_all hlen
  refine (outcome_sizeCheck _).trans ?_
  rw [Prog.outcome_bind, hbytes, Outcome.bind_ret, Prog.outcome_bind, Prog.outcome_ofExcept]
  simp only [Prog.outcome_ofExcept]
  rfl

/-! ## verify -/

theorem outcome_verify {convert : ConvertMsg} {g : Bytes → Outcome Bytes} (hg : Converts convert g)
    (hmsg : msgPtr.Holds m msg) (hlen : msg.length = 32) {n : ℕ} {hash : Bytes}
    {func : ValidateSignature} :
    (verify hash sig n msgPtr 32 func convert).outcome m =
      (g msg).bind fun newMsg ↦ ((func sig n newMsg 32 20).outcome m).bind fun out ↦
        if hash.take 20 = out.take 20 then .ret () else .fail errorMismatched := by
  simp only [verify, Prog.outcome_bind, Prog.outcome_check]
  rw [show (convert msgPtr 32 blake2bBlockSize).outcome m = g msg from hg hmsg hlen]
  rfl

end CkbAuth
