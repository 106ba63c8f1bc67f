import CkbAuth.CardanoComplete
import CkbAuth.Identity
import CkbAuth.MoneroSpec
import CkbAuth.MoneroStream
import Mathlib.Data.List.GetD

/-!
# What a signature authorises

A scheme says which bytes are a signature of a message under a key, and by which content a lock
asks for the key.  `ckb_auth` accepts a content exactly if the scheme of the algorithm has a key
for it that made the signature.
-/

namespace CkbAuth

open CRun

/-- Keys, their signatures, and the contents that stand for them. -/
structure Scheme where
  Key : Type
  Signs : Key → (s msg : Bytes) → Prop
  Names : Key → (content : Bytes) → Prop

/-- A key that the content stands for has signed the message. -/
def Scheme.Authorises (scheme : Scheme) (s msg content : Bytes) : Prop :=
  ∃ key, scheme.Signs key s msg ∧ scheme.Names key content

variable (env : Env)

/-! ## The schemes -/

def blake160 (b : Bytes) : Bytes := (env.hash.blake2b b).take 20

/-- A compact signature with its recovery id behind it. -/
def SignedBehind (compressed : Bool) (pubkey s digest : Bytes) : Prop :=
  ∃ (compact : Bytes) (recid : UInt8), s = compact ++ [recid] ∧ compact.length = 64 ∧
    recid.toNat ≤ 3 ∧ recoveredKey env compact recid.toNat digest compressed = some pubkey

/-- A compact signature behind a header, which tells the recovery id and how the key is
serialized. -/
def SignedBefore (pubkey s digest : Bytes) : Prop :=
  ∃ (header : UInt8) (compact : Bytes), s = header :: compact ∧ compact.length = 64 ∧
    recoveredKey env compact (headerRecid header) digest (headerCompressed header) = some pubkey

/-- The x-only key is in front of its signature. -/
def SchnorrSigned (key s msg : Bytes) : Prop :=
  ∃ pk sig, env.secp.xonlyPubkeyParse key = some pk ∧ s = key ++ sig ∧ key.length = 32 ∧
    sig.length = 64 ∧ env.secp.schnorrsigVerify sig msg pk = true

/-- The spend key signs the hash of the message and both keys, by Monero's check.  Behind the
signature are the mode and the keys. -/
def MoneroSigned (spend view s msg : Bytes) : Prop :=
  ∃ (M : MoneroMessage) (curve : Curve env.ed) (A : curve.G) (c r : Bytes),
    M.spendPubkey = spend ∧ M.viewPubkey = view ∧ M.mode = 0 ∧ M.msg = msg ∧
    s = c ++ r ++ 0 :: (spend ++ view) ∧ c.length = 32 ∧ r.length = 32 ∧
    curve.laws.decode spend = some A ∧
    CheckSignature curve.laws env.hash.keccak256 (env.hash.keccak256 M.stream) spend A c r

/-- A signer of a legacy message signs it, with what is to be signed as its blockhash. -/
def SolanaSigned (pk s msg : Bytes) : Prop :=
  s.length = 512 ∧ ∃ sig M, Wraps s sig pk M ∧ M.blockhash = msg ∧
    pk ∈ M.keys.take M.numSigners.toNat ∧ env.ed.verify sig M.bytes pk = 1

/-- A key signs the body of a transaction, in which the message is. -/
def CardanoSigned (pk s msg : Bytes) : Prop :=
  ∃ tx : CardanoTransaction, tx.bytes = s ∧ tx.pk = pk ∧ tx.msg = msg ∧
    env.ed.verify tx.sig ((env.hash.cardanoBlake2b tx.body).take 32) tx.pk = 1

def ckbScheme : Scheme := ⟨Bytes, SignedBehind env true, fun key ↦ (blake160 env key = ·)⟩

/-- Ethereum, EOS and Tron, with what is computed of a message before it is signed. -/
def ethScheme (convert : Bytes → Outcome Bytes) : Scheme where
  Key := Bytes
  Signs pubkey s msg := ∃ digest, convert msg = .ret digest ∧
    SignedBehind env false pubkey s digest
  Names pubkey content := ethKeyHash env pubkey = content

/-- Bitcoin, Dogecoin and Litecoin. -/
def btcScheme (convert : Bytes → Outcome Bytes) : Scheme where
  Key := Bytes
  Signs pubkey s msg := ∃ digest, convert msg = .ret digest ∧ SignedBefore env pubkey s digest
  Names pubkey content := btcKeyHash env pubkey = .ret content

def schnorrScheme : Scheme := ⟨Bytes, SchnorrSigned env, fun key ↦ (blake160 env key = ·)⟩

/-- The keys for spending and for viewing. -/
def moneroScheme : Scheme where
  Key := Bytes × Bytes
  Signs key := MoneroSigned env key.1 key.2
  Names key content := blake160 env (0 :: (key.1 ++ key.2)) = content

def solanaScheme : Scheme := ⟨Bytes, SolanaSigned env, fun key ↦ (blake160 env key = ·)⟩

def cardanoScheme : Scheme := ⟨Bytes, CardanoSigned env, fun key ↦ (blake160 env key = ·)⟩

/-- The holders of a script, by the script. -/
def multisigScheme : Scheme where
  Key := Bytes
  Signs script s msg := multisigScript s = script ∧ MultisigWitness env s msg (blake160 env script)
  Names script content := blake160 env script = content

/-- An input speaks for itself, by its lock hash. -/
def ownerLockScheme : Scheme where
  Key := Bytes
  Signs lockHash _ _ := ∃ (loaded : List Bytes) (rest : List (Except ℤ Bytes)),
    env.inputLockHashes = loaded.map .ok ++ .ok lockHash :: rest
  Names lockHash content := lockHash.take 20 = content

def emptyScheme : Scheme := ⟨Empty, fun _ _ _ ↦ False, fun _ _ ↦ False⟩

/-- What an algorithm id stands for. -/
def schemeOf (id : UInt8) : Scheme :=
  match AuthAlgorithmIdType.ofByte id with
  | some .ckb => ckbScheme env
  | some .ethereum => ethScheme env fun msg ↦
      .ret (keccakPrefixed env (0x19 :: ascii "Ethereum Signed Message:\n32") msg)
  | some .eos => ethScheme env fun msg ↦ .ofExcept (env.hash.md .sha256 msg)
  | some .tron => ethScheme env fun msg ↦
      .ret (keccakPrefixed env (0x19 :: ascii "TRON Signed Message:\n32") msg)
  | some .bitcoin => btcScheme env (btcDigest env btcMessageMagic btcMagicLen)
  | some .dogecoin => btcScheme env (btcDigest env dogeMessageMagic dogeMagicLen)
  | some .litecoin => btcScheme env (btcDigest env liteMessageMagic liteMagicLen)
  | some .ckbMultisig => multisigScheme env
  | some .schnorr => schnorrScheme env
  | some .cardano => cardanoScheme env
  | some .monero => moneroScheme env
  | some .solana => solanaScheme env
  | some .ownerLock => ownerLockScheme env
  | some .rsa => emptyScheme
  | some .iso97962 => emptyScheme
  | none => emptyScheme

variable {env} {m : Mem Region} {p q : Prog.Ptr Region} {s msg hash : Bytes} {fuel : ℕ}

/-! ## Recovered keys -/

theorem recoverFrom_eq_ret_iff (hload : ckbSecp256k1CustomVerifyOnlyInitialize env = .ok ())
    {compact digest pubkey : Bytes} {recid : ℕ} {compressed : Bool} :
    recoverFrom env compact recid digest compressed = .ret pubkey ↔
      recid ≤ 3 ∧ recoveredKey env compact recid digest compressed = some pubkey := by
  have hready : Outcome.ofExcept (ckbSecp256k1CustomVerifyOnlyInitialize env) = .ret () :=
    Outcome.ofExcept_eq_ret_iff.mpr hload
  rw [recoverFrom, hready, Outcome.bind_ret]
  by_cases hrecid : recid ≤ 3
  · rw [if_pos hrecid, and_iff_right hrecid, Outcome.ofOption_eq_ret_iff]
  · rw [if_neg hrecid]
    exact iff_of_false (fun h ↦ by cases h) fun h ↦ hrecid h.1

theorem recoverFrom_behind_iff (hload : ckbSecp256k1CustomVerifyOnlyInitialize env = .ok ())
    (h65 : s.length = 65) {digest pubkey : Bytes} {compressed : Bool} :
    recoverFrom env (s.take 64) (s.getD 64 0).toNat digest compressed = .ret pubkey ↔
      SignedBehind env compressed pubkey s digest := by
  rw [recoverFrom_eq_ret_iff hload]
  constructor
  · rintro ⟨hrecid, hkey⟩
    refine ⟨s.take 64, s.getD 64 0, ?_, List.length_take_of_le (by omega), hrecid, hkey⟩
    have hlast : s.drop 64 = [s.getD 64 0] := by
      rw [List.drop_eq_getElem_cons (by omega), List.drop_of_length_le (by omega),
        List.getD_eq_getElem _ _ (by omega)]
    rw [← hlast, List.take_append_drop]
  · rintro ⟨compact, recid, rfl, hlen, hrecid, hkey⟩
    have hbyte : (compact ++ [recid]).getD 64 0 = recid := by
      rw [← hlen, List.getD_eq_getElem _ _ (by simp), List.getElem_concat_length rfl]
    rw [List.take_left' hlen, hbyte]
    exact ⟨hrecid, hkey⟩

theorem recoverFrom_before_iff (hload : ckbSecp256k1CustomVerifyOnlyInitialize env = .ok ())
    (h65 : s.length = 65) {digest pubkey : Bytes} :
    recoverFrom env ((s.drop 1).take 64) (headerRecid (s.getD 0 0)) digest
        (headerCompressed (s.getD 0 0)) = .ret pubkey ↔ SignedBefore env pubkey s digest := by
  rw [recoverFrom_eq_ret_iff hload, and_iff_right (headerRecid_le _)]
  cases s with
  | nil => cases h65
  | cons header compact =>
      have hlen : compact.length = 64 := Nat.succ.inj h65
      rw [List.drop_one, List.tail_cons, List.take_of_length_le hlen.le, List.getD_cons_zero]
      constructor
      · exact fun hkey ↦ ⟨header, compact, rfl, hlen, hkey⟩
      · rintro ⟨header', compact', heq, -, hkey⟩
        obtain ⟨rfl, rfl⟩ := List.cons.inj heq
        exact hkey

theorem SignedBehind.length {compressed : Bool} {pubkey digest : Bytes}
    (h : SignedBehind env compressed pubkey s digest) : s.length = 65 := by
  obtain ⟨compact, recid, rfl, hlen, -⟩ := h
  rw [List.length_append, hlen]
  rfl

theorem SignedBefore.length {pubkey digest : Bytes} (h : SignedBefore env pubkey s digest) :
    s.length = 65 := by
  obtain ⟨header, compact, rfl, hlen, -⟩ := h
  rw [List.length_cons, hlen]

/-! ## What the code verifies -/

/-- The code's own check of a Monero signature. -/
def MoneroVerified (env : Env) (spend view s msg : Bytes) : Prop :=
  ∃ sig, s = sig ++ 0 :: (spend ++ view) ∧ sig.length = 64 ∧ spend.length = 32 ∧
    view.length = 32 ∧ ed25519VerifyMonero env sig (getMoneroMessageHash env spend view 0 msg 32)
      (getMoneroMessageHash env spend view 0 msg 32).length spend = 1

/-- For a spend key that the order kills it is Monero's. -/
theorem moneroVerified_iff {spend view : Bytes} (hmsg : msg.length = 32) {curve : Curve env.ed}
    (hkills : curve.Kills ((s.drop 65).take 32)) :
    MoneroVerified env spend view s msg ↔ MoneroSigned env spend view s msg := by
  have hkey {sig : Bytes} (hsig : sig.length = 64) (hspend : spend.length = 32) :
      ((sig ++ 0 :: (spend ++ view)).drop 65).take 32 = spend := by
    rw [← List.drop_drop (i := 1) (j := 64), List.drop_left' hsig, List.drop_one, List.tail_cons,
      List.take_left' hspend]
  have hhash (M : MoneroMessage) (hM : M.msg = msg) :
      getMoneroMessageHash env M.spendPubkey M.viewPubkey M.mode msg 32 =
        env.hash.keccak256 M.stream := by
    rw [← hmsg, ← hM]
    exact M.getMoneroMessageHash_eq env
  have hlen (b : Bytes) : (env.hash.keccak256 b).length < 2 ^ 16 := by
    rw [env.hash.keccak256_length]
    decide
  constructor
  · rintro ⟨sig, rfl, hsig, hspend, hview, hverify⟩
    rw [hkey hsig hspend] at hkills
    have hstream := hhash ⟨spend, view, 0, msg, hspend, hview, by omega⟩ rfl
    dsimp only at hstream
    rw [hstream, ed25519VerifyMonero_iff_checkSignature hspend hkills hsig (hlen _)] at hverify
    obtain ⟨curve, A, c, r, rfl, hcl, hrl, hA, hcheck⟩ := hverify
    exact ⟨⟨spend, view, 0, msg, hspend, hview, by omega⟩, curve, A, c, r, rfl, rfl, rfl, rfl, rfl,
      hcl, hrl, hA, hcheck⟩
  · rintro ⟨M, curve', A, c, r, rfl, rfl, hmode, hM, rfl, hcl, hrl, hA, hcheck⟩
    have hsig : (c ++ r).length = 64 := by rw [List.length_append, hcl, hrl]
    rw [hkey hsig M.length_spendPubkey] at hkills
    refine ⟨c ++ r, rfl, hsig, M.length_spendPubkey, M.length_viewPubkey, ?_⟩
    rw [← hmode, hhash M hM, ed25519VerifyMonero_iff_checkSignature M.length_spendPubkey hkills
      hsig (hlen _)]
    exact ⟨curve', A, c, r, rfl, hcl, hrl, hA, hcheck⟩

/-- The code's own check of a Cardano witness, by the walk through it. -/
def CardanoVerified (env : Env) (pk s msg : Bytes) : Prop :=
  ∃ fuel h k sg, CardanoWalk s fuel h k sg ∧ (s.drop h).take 32 = msg ∧ (s.drop k).take 32 = pk ∧
    env.ed.verify ((s.drop sg).take 64)
      ((env.hash.cardanoBlake2b ((s.drop 1).take (s.length - 106))).take 32) pk = 1

/-- Only a transaction is walked through to its end. -/
def WalksTransaction (s : Bytes) : Prop :=
  ∀ fuel h k sg, CardanoWalk s fuel h k sg → ∃ tx : CardanoTransaction, tx.bytes = s

/-- In a transaction the walk comes to what is signed, and to nothing else. -/
theorem cardanoVerified_iff {pk : Bytes} (hwalks : WalksTransaction s) :
    CardanoVerified env pk s msg ↔ CardanoSigned env pk s msg := by
  constructor
  · rintro ⟨fuel, h, k, sg, hwalk, hmsg, hpk, hverify⟩
    obtain ⟨tx, rfl⟩ := hwalks _ _ _ _ hwalk
    obtain ⟨htxmsg, htxpk, htxsig⟩ := tx.of_walk hwalk
    rw [tx.signed_bytes, htxsig] at hverify
    obtain rfl : tx.pk = pk := htxpk.symm.trans hpk
    exact ⟨tx, rfl, rfl, htxmsg.symm.trans hmsg, hverify⟩
  · rintro ⟨tx, rfl, rfl, rfl, hverify⟩
    obtain ⟨h, k, sg, hwalk, hmsg, hpk, hsig⟩ := tx.exists_walk
    refine ⟨_, h, k, sg, hwalk, hmsg, hpk, ?_⟩
    rwa [tx.signed_bytes, hsig]

/-- No more signers are announced than there are keys. -/
def SignersAreKeys (s : Bytes) : Prop :=
  ∀ sig pk M, Wraps s sig pk M → M.numSigners.toNat ≤ M.keys.length

/-- What the checks of three algorithms leave to the one who made the signature: the signers of a
Solana message are keys of it, a Monero key is killed by the order of the base point, and a Cardano
witness that is walked through is a transaction. -/
structure Regular (ed : Ed25519) (id : UInt8) (s : Bytes) : Prop where
  solana : id = AuthAlgorithmIdType.solana.toByte → SignersAreKeys s
  monero : id = AuthAlgorithmIdType.monero.toByte →
    ∃ curve : Curve ed, curve.Kills ((s.drop 65).take 32)
  cardano : id = AuthAlgorithmIdType.cardano.toByte → WalksTransaction s

/-! ## Validators -/

section Validators

variable (hload : ckbSecp256k1CustomVerifyOnlyInitialize env = .ok ()) (hp : p.Holds m s)
variable {newMsg out : Bytes}

include hp

section Recovering

include hload

theorem validateSignatureCkb_eq_ret_iff (h65 : s.length = 65) :
    (validateSignatureCkb env p s.length newMsg 32 20).outcome m = .ret out ↔
      ∃ pubkey, SignedBehind env true pubkey s newMsg ∧ blake160 env pubkey = out := by
  rw [h65, outcome_validateSignatureCkb hp h65, Outcome.bind_eq_ret_iff]
  simp only [recoverFrom_behind_iff hload h65, Outcome.ret.injEq, blake160]

theorem validateSignatureEth_eq_ret_iff (h65 : s.length = 65) :
    (validateSignatureEth env p s.length newMsg 32 20).outcome m = .ret out ↔
      ∃ pubkey, SignedBehind env false pubkey s newMsg ∧ ethKeyHash env pubkey = out := by
  rw [h65, outcome_validateSignatureEth hp h65, Outcome.bind_eq_ret_iff]
  simp only [recoverFrom_behind_iff hload h65, Outcome.ret.injEq]

theorem validateSignatureBtc_eq_ret_iff :
    (validateSignatureBtc env p s.length newMsg 32 20).outcome m = .ret out ↔
      ∃ pubkey, SignedBefore env pubkey s newMsg ∧ btcKeyHash env pubkey = .ret out := by
  by_cases h65 : s.length = 65
  · rw [h65, outcome_validateSignatureBtc hp h65, Outcome.bind_eq_ret_iff]
    simp only [recoverFrom_before_iff hload h65]
  · rw [validateSignatureBtc_size h65]
    refine iff_of_false (fun h ↦ by cases h) ?_
    rintro ⟨pubkey, hsigned, -⟩
    exact h65 hsigned.length

theorem validateSignatureSchnorr_eq_ret_iff :
    (validateSignatureSchnorr env p s.length newMsg 32 20).outcome m = .ret out ↔
      ∃ key, SchnorrSigned env key s newMsg ∧ blake160 env key = out := by
  by_cases h96 : s.length = 96
  · rw [h96, outcome_validateSignatureSchnorr hp h96, schnorrChecked]
    have hready : Outcome.ofExcept (ckbSecp256k1CustomVerifyOnlyInitialize env) = .ret () :=
      Outcome.ofExcept_eq_ret_iff.mpr hload
    rw [hready, Outcome.bind_ret, Outcome.bind_eq_ret_iff]
    constructor
    · rintro ⟨pk, hparse, hchecked⟩
      rw [Outcome.ofOption_eq_ret_iff] at hparse
      by_cases hverify : env.secp.schnorrsigVerify ((s.drop 32).take 64) newMsg pk = true
      · rw [if_pos hverify] at hchecked
        have hsig : (s.drop 32).take 64 = s.drop 32 :=
          List.take_of_length_le (by rw [List.length_drop]; omega)
        rw [hsig] at hverify
        exact ⟨s.take 32, ⟨pk, s.drop 32, hparse, (List.take_append_drop _ _).symm,
          List.length_take_of_le (by omega), by rw [List.length_drop]; omega, hverify⟩,
          Outcome.ret.inj hchecked⟩
      · rw [if_neg hverify] at hchecked
        cases hchecked
    · rintro ⟨key, ⟨pk, sig, hparse, rfl, hkey, hsig, hverify⟩, rfl⟩
      rw [List.take_left' hkey, List.drop_left' hkey, List.take_of_length_le hsig.le]
      refine ⟨pk, Outcome.ofOption_eq_ret_iff.mpr hparse, ?_⟩
      rw [if_pos hverify, blake160]
  · rw [validateSignatureSchnorr_size h96]
    refine iff_of_false (fun h ↦ by cases h) ?_
    rintro ⟨key, ⟨pk, sig, -, rfl, hkey, hsig, -⟩, -⟩
    rw [List.length_append, hkey, hsig] at h96
    exact h96 rfl

end Recovering

theorem validateSignatureMonero_verified_iff :
    (validateSignatureMonero env p s.length msg 32 20).outcome m = .ret out ↔
      ∃ spend view, MoneroVerified env spend view s msg ∧
        blake160 env (0 :: (spend ++ view)) = out := by
  by_cases h129 : s.length = 129
  · rw [h129, outcome_validateSignatureMonero hp h129, moneroChecked]
    constructor
    · intro hchecked
      by_cases hmode : s.getD 64 0 = 0
      · rw [if_pos hmode, hmode] at hchecked
        dsimp only at hchecked
        have hinfo : s.drop 64 = 0 :: ((s.drop 65).take 32 ++ (s.drop 97).take 32) := by
          have hview : (s.drop 97).take 32 = (s.drop 65).drop 32 := by
            rw [List.drop_drop, List.take_of_length_le (by rw [List.length_drop]; omega)]
          rw [hview, List.take_append_drop, List.drop_eq_getElem_cons (by omega), ← hmode,
            List.getD_eq_getElem _ _ (by omega)]
        split at hchecked
        next hverify =>
          refine ⟨(s.drop 65).take 32, (s.drop 97).take 32, ⟨s.take 64, ?_, by simp [h129],
            by simp [h129], by simp [h129], hverify⟩, ?_⟩
          · rw [← hinfo, List.take_append_drop]
          · rw [← hinfo, blake160, ← Outcome.ret.inj hchecked,
              List.take_of_length_le (i := 65) (by rw [List.length_drop]; omega)]
        next => cases hchecked
      · rw [if_neg hmode] at hchecked
        cases hchecked
    · rintro ⟨spend, view, ⟨sig, rfl, hsig, hspend, hview, hverify⟩, rfl⟩
      have hinfo : (sig ++ 0 :: (spend ++ view)).drop 64 = 0 :: (spend ++ view) :=
        List.drop_left' hsig
      have hkeys : (sig ++ 0 :: (spend ++ view)).drop 65 = spend ++ view := by
        rw [← List.drop_drop (i := 1) (j := 64), hinfo, List.drop_one, List.tail_cons]
      have hlast : (sig ++ 0 :: (spend ++ view)).drop 97 = view := by
        rw [← List.drop_drop (i := 32) (j := 65), hkeys, List.drop_left' hspend]
      have hmode : (sig ++ 0 :: (spend ++ view)).getD 64 0 = 0 := by
        rw [← hsig, List.getD_append_right _ _ _ _ (Nat.le_refl _), Nat.sub_self,
          List.getD_cons_zero]
      have hwhole : (0 :: (spend ++ view)).take 65 = 0 :: (spend ++ view) :=
        List.take_of_length_le (by simp [hspend, hview])
      rw [if_pos hmode, hmode, hkeys, hlast, hinfo, hwhole, List.take_left' hspend,
        List.take_left' hsig, List.take_of_length_le hview.le]
      dsimp only
      rw [if_pos hverify, blake160]
  · rw [validateSignatureMonero_size h129]
    refine iff_of_false (fun h ↦ by cases h) ?_
    rintro ⟨spend, view, ⟨sig, rfl, hsig, hspend, hview, -⟩, -⟩
    rw [List.length_append, List.length_cons, List.length_append, hsig, hspend, hview] at h129
    exact h129 rfl

theorem validateSignatureMonero_eq_ret_iff (hmsg : msg.length = 32) {curve : Curve env.ed}
    (hkills : curve.Kills ((s.drop 65).take 32)) :
    (validateSignatureMonero env p s.length msg 32 20).outcome m = .ret out ↔
      ∃ spend view, MoneroSigned env spend view s msg ∧
        blake160 env (0 :: (spend ++ view)) = out := by
  rw [validateSignatureMonero_verified_iff hp]
  exact exists₂_congr fun spend view ↦
    and_congr_left fun _ ↦ moneroVerified_iff hmsg hkills

theorem signerFound_iff_of_le (h512 : s.length = 512) {sig pk : Bytes} {M : LegacyMessage}
    (hwraps : Wraps s sig pk M) (hle : M.numSigners.toNat ≤ M.keys.length) :
    SignerFound m (p + (98 + M.keysStart)) pk M.numSigners.toNat ↔
      pk ∈ M.keys.take M.numSigners.toNat := by
  rw [List.mem_take_iff_getElem]
  constructor
  · rintro ⟨i, hi, -, heq⟩
    have hkey := (slice_account_key hp h512 hwraps (hi.trans_le hle)).2
    exact ⟨i, by omega, hkey.symm.trans heq⟩
  · rintro ⟨i, hi, hkey⟩
    obtain ⟨hmapped, hslice⟩ := slice_account_key hp h512 hwraps (i := i) (by omega)
    exact ⟨i, by omega, hmapped, hslice.trans hkey⟩

theorem validateSignatureSolana_eq_ret_iff (hmsg : msg.length = 32) (hregular : SignersAreKeys s) :
    (validateSignatureSolana env p s.length msg 32 20).outcome m = .ret out ↔
      ∃ pk, SolanaSigned env pk s msg ∧ blake160 env pk = out := by
  by_cases h512 : s.length = 512
  · have hiff : (validateSignatureSolana env p s.length msg msg.length 20).outcome m = .ret out ↔
        _ := outcome_validateSignatureSolana_eq_ret_iff hp h512 hmsg
    rw [hmsg] at hiff
    rw [hiff]
    constructor
    · rintro ⟨sig, pk, M, hwraps, hblock, hfound, hverify, hout⟩
      have hmem := (signerFound_iff_of_le hp h512 hwraps (hregular sig pk M hwraps)).mp hfound
      exact ⟨pk, ⟨h512, sig, M, hwraps, hblock, hmem, hverify⟩, hout⟩
    · rintro ⟨pk, ⟨-, sig, M, hwraps, hblock, hmem, hverify⟩, hout⟩
      have hfound := (signerFound_iff_of_le hp h512 hwraps (hregular sig pk M hwraps)).mpr hmem
      exact ⟨sig, pk, M, hwraps, hblock, hfound, hverify, hout⟩
  · refine iff_of_false (fun h ↦ by simp [validateSignatureSolana, h512] at h) ?_
    rintro ⟨pk, hsigned, -⟩
    exact h512 hsigned.1

theorem validateSignatureCardano_verified_iff (hmsg : msg.length = 32) :
    (∃ fuel, (validateSignatureCardano env fuel p s.length msg 32 20).outcome m = .ret out) ↔
      ∃ pk, CardanoVerified env pk s msg ∧ blake160 env pk = out := by
  have htake {b : Bytes} {n : ℕ} : ((b.drop n).take 32).take 32 = (b.drop n).take 32 := by
    rw [List.take_take, Nat.min_self]
  simp only [outcome_validateSignatureCardano, Outcome.bind_eq_ret_iff,
    Outcome.mapFail_eq_ret_iff, outcome_getCardanoData_eq_ret_iff hp]
  constructor
  · rintro ⟨fuel, d, ⟨h, k, sg, hwalk, rfl⟩, hchecked⟩
    rw [cardanoChecked, cardanoDataAt] at hchecked
    dsimp only at hchecked
    rw [htake, List.take_of_length_le hmsg.le] at hchecked
    split at hchecked
    next hblock =>
      split at hchecked
      next hverify =>
        exact ⟨_, ⟨fuel, h, k, sg, hwalk, hblock.symm, rfl, hverify⟩, Outcome.ret.inj hchecked⟩
      next => cases hchecked
    next => cases hchecked
  · rintro ⟨pk, ⟨fuel, h, k, sg, hwalk, hblock, rfl, hverify⟩, hout⟩
    refine ⟨fuel, _, ⟨h, k, sg, hwalk, rfl⟩, ?_⟩
    rw [cardanoChecked, cardanoDataAt]
    dsimp only
    rw [htake, List.take_of_length_le hmsg.le, if_pos hblock.symm, if_pos hverify, ← hout, blake160]

theorem validateSignatureCardano_eq_ret_iff (hmsg : msg.length = 32)
    (hwalks : WalksTransaction s) :
    (∃ fuel, (validateSignatureCardano env fuel p s.length msg 32 20).outcome m = .ret out) ↔
      ∃ pk, CardanoSigned env pk s msg ∧ blake160 env pk = out := by
  rw [validateSignatureCardano_verified_iff hp hmsg]
  exact exists_congr fun pk ↦ and_congr_left fun _ ↦ cardanoVerified_iff hwalks

end Validators

/-! ## Routes -/

theorem length_le_of_blake160 {key out : Bytes} (h : blake160 env key = out) : out.length ≤ 20 := by
  subst h
  exact List.length_take_le _ _

theorem length_le_of_ethKeyHash {pubkey out : Bytes} (h : ethKeyHash env pubkey = out) :
    out.length ≤ 20 := by
  subst h
  exact List.length_take_le _ _

theorem length_le_of_btcKeyHash {pubkey out : Bytes} (h : btcKeyHash env pubkey = .ret out) :
    out.length ≤ 20 := by
  obtain ⟨sha, -, h⟩ := Outcome.bind_eq_ret_iff.mp h
  obtain ⟨ripemd, -, h⟩ := Outcome.bind_eq_ret_iff.mp h
  rw [← Outcome.ret.inj h]
  exact List.length_take_le _ _

section Routes

variable (hload : ckbSecp256k1CustomVerifyOnlyInitialize env = .ok ()) (hp : p.Holds m s)
  (hhash : hash.length = 20) (hq : q.Holds m msg) (hmsg : msg.length = 32)

section Verify

variable {func : ValidateSignature} {convert : ConvertMsg} {g : Bytes → Outcome Bytes}

include hhash hq hmsg

/-- A comparison with an output that is not too long. -/
theorem verify_eq_ret_iff {n : ℕ} (hg : Converts convert g)
    (hshort : ∀ newMsg out, g msg = .ret newMsg →
      (func p n newMsg 32 20).outcome m = .ret out → out.length ≤ 20) :
    (verify hash p n q 32 func convert).outcome m = .ret () ↔
      ∃ newMsg, g msg = .ret newMsg ∧ (func p n newMsg 32 20).outcome m = .ret hash := by
  rw [outcome_verify hg hq hmsg, Outcome.bind_eq_ret_iff]
  refine exists_congr fun newMsg ↦ and_congr_right fun hnew ↦ ?_
  rw [Outcome.bind_eq_ret_iff]
  constructor
  · rintro ⟨out, hout, hcompare⟩
    have heq := Outcome.ite_ret_eq_ret_iff.mp hcompare
    rw [List.take_of_length_le hhash.le,
      List.take_of_length_le (hshort newMsg out hnew hout)] at heq
    rw [heq, hout]
  · exact fun hout ↦ ⟨hash, hout, if_pos rfl⟩

theorem verify_authorises_iff {Key : Type} {Signed Named : Key → Bytes → Prop}
    (hg : Converts convert g) (hnamed : ∀ key out, Named key out → out.length ≤ 20)
    (hfunc : ∀ newMsg out, g msg = .ret newMsg →
      ((func p s.length newMsg 32 20).outcome m = .ret out ↔
        ∃ key, Signed key newMsg ∧ Named key out)) :
    (verify hash p s.length q 32 func convert).outcome m = .ret () ↔
      ∃ key, (∃ newMsg, g msg = .ret newMsg ∧ Signed key newMsg) ∧ Named key hash := by
  rw [verify_eq_ret_iff hhash hq hmsg hg fun newMsg out hnew hout ↦ by
    obtain ⟨key, -, hkey⟩ := (hfunc newMsg out hnew).mp hout
    exact hnamed key out hkey]
  constructor
  · rintro ⟨newMsg, hnew, hout⟩
    obtain ⟨key, hsigned, hkey⟩ := (hfunc newMsg hash hnew).mp hout
    exact ⟨key, ⟨newMsg, hnew, hsigned⟩, hkey⟩
  · rintro ⟨key, ⟨newMsg, hnew, hsigned⟩, hkey⟩
    exact ⟨newMsg, hnew, (hfunc newMsg hash hnew).mpr ⟨key, hsigned, hkey⟩⟩

/-- A message that is signed as it is. -/
theorem verify_copy_authorises_iff {Key : Type} {Signed Named : Key → Bytes → Prop}
    (hnamed : ∀ key out, Named key out → out.length ≤ 20)
    (hfunc : ∀ out, (func p s.length msg 32 20).outcome m = .ret out ↔
      ∃ key, Signed key msg ∧ Named key out) :
    (verify hash p s.length q 32 func convertCopy).outcome m = .ret () ↔
      ∃ key, Signed key msg ∧ Named key hash := by
  rw [verify_authorises_iff hhash hq hmsg converts_copy hnamed fun newMsg out hnew ↦ by
    obtain rfl : msg = newMsg := Outcome.ret.inj hnew
    exact hfunc out]
  refine exists_congr fun key ↦ and_congr_left fun _ ↦ ?_
  constructor
  · rintro ⟨newMsg, hnew, hsigned⟩
    obtain rfl : msg = newMsg := Outcome.ret.inj hnew
    exact hsigned
  · exact fun hsigned ↦ ⟨msg, rfl, hsigned⟩

end Verify

theorem ownerLock_authorises_iff (hhash : hash.length = 20) :
    (Prog.check (isLockScriptHashPresent hash env.inputLockHashes = true) errorMismatched :
      Call Unit).outcome m = .ret () ↔ (ownerLockScheme env).Authorises s msg hash := by
  rw [Prog.outcome_check, Outcome.ite_ret_eq_ret_iff, isLockScriptHashPresent_iff hhash]
  constructor
  · rintro ⟨loaded, lockHash, rest, heq, hname⟩
    exact ⟨lockHash, ⟨loaded, rest, heq⟩, hname⟩
  · rintro ⟨lockHash, ⟨loaded, rest, heq⟩, hname⟩
    exact ⟨loaded, lockHash, rest, heq, hname⟩

include hp hhash hq hmsg

theorem verify_monero_authorises_iff {curve : Curve env.ed}
    (hkills : curve.Kills ((s.drop 65).take 32)) :
    (verify hash p s.length q 32 (validateSignatureMonero env) convertCopy).outcome m = .ret () ↔
      (moneroScheme env).Authorises s msg hash := by
  refine @verify_copy_authorises_iff m p q s msg hash hhash hq hmsg _ (Bytes × Bytes)
    (fun key ↦ MoneroSigned env key.1 key.2 s)
    (fun key out ↦ blake160 env (0 :: (key.1 ++ key.2)) = out)
    (fun _ _ ↦ length_le_of_blake160) fun out ↦ ?_
  rw [validateSignatureMonero_eq_ret_iff hp hmsg hkills, Prod.exists]

theorem verify_cardano_authorises_iff (hwalks : WalksTransaction s) :
    (∃ fuel, (verify hash p s.length q 32 (validateSignatureCardano env fuel)
      convertCopy).outcome m = .ret ()) ↔ (cardanoScheme env).Authorises s msg hash := by
  have hcardano {out : Bytes} :=
    @validateSignatureCardano_eq_ret_iff env m p s msg hp out hmsg hwalks
  have hroute (fuel : ℕ) : (verify hash p s.length q 32 (validateSignatureCardano env fuel)
      convertCopy).outcome m = .ret () ↔
        (validateSignatureCardano env fuel p s.length msg 32 20).outcome m = .ret hash := by
    rw [verify_eq_ret_iff hhash hq hmsg converts_copy fun newMsg out hnew hout ↦ by
      obtain rfl : msg = newMsg := Outcome.ret.inj hnew
      obtain ⟨pk, -, hname⟩ := hcardano.mp ⟨fuel, hout⟩
      exact length_le_of_blake160 hname]
    constructor
    · rintro ⟨newMsg, hnew, hout⟩
      obtain rfl : msg = newMsg := Outcome.ret.inj hnew
      exact hout
    · exact fun hout ↦ ⟨msg, rfl, hout⟩
  simp only [hroute]
  exact hcardano

include hload

theorem checked_verify_ckb_authorises_iff :
    (Prog.check (s.length = secp256k1SignatureSize) errorInvalidArg >>= fun _ ↦
      verify hash p s.length q 32 (validateSignatureCkb env) convertCopy).outcome m = .ret () ↔
      (ckbScheme env).Authorises s msg hash := by
  rw [Prog.outcome_bind, Prog.outcome_check, Outcome.bind_unit_eq_ret_iff,
    Outcome.ite_ret_eq_ret_iff]
  have hiff (h65 : s.length = 65) := verify_copy_authorises_iff hhash hq hmsg
    (fun _ _ ↦ length_le_of_blake160)
    fun out ↦ @validateSignatureCkb_eq_ret_iff env m p s hload hp msg out h65
  constructor
  · rintro ⟨h65, haccepted⟩
    exact (hiff h65).mp haccepted
  · rintro ⟨key, hsigned, hkey⟩
    exact ⟨hsigned.length, (hiff hsigned.length).mpr ⟨key, hsigned, hkey⟩⟩

theorem checked_verify_eth_authorises_iff {convert : ConvertMsg} {g : Bytes → Outcome Bytes}
    (hg : Converts convert g) :
    (Prog.check (s.length = secp256k1SignatureSize) errorInvalidArg >>= fun _ ↦
      verify hash p s.length q 32 (validateSignatureEth env) convert).outcome m = .ret () ↔
      (ethScheme env g).Authorises s msg hash := by
  rw [Prog.outcome_bind, Prog.outcome_check, Outcome.bind_unit_eq_ret_iff,
    Outcome.ite_ret_eq_ret_iff]
  have hiff (h65 : s.length = 65) := verify_authorises_iff hhash hq hmsg hg
    (fun _ _ ↦ length_le_of_ethKeyHash)
    fun newMsg out _ ↦ @validateSignatureEth_eq_ret_iff env m p s hload hp newMsg out h65
  constructor
  · rintro ⟨h65, haccepted⟩
    exact (hiff h65).mp haccepted
  · rintro ⟨key, ⟨digest, hdigest, hsigned⟩, hkey⟩
    exact ⟨hsigned.length, (hiff hsigned.length).mpr ⟨key, ⟨digest, hdigest, hsigned⟩, hkey⟩⟩

theorem verify_btc_authorises_iff {convert : ConvertMsg} {g : Bytes → Outcome Bytes}
    (hg : Converts convert g) :
    (verify hash p s.length q 32 (validateSignatureBtc env) convert).outcome m = .ret () ↔
      (btcScheme env g).Authorises s msg hash :=
  verify_authorises_iff hhash hq hmsg hg (fun _ _ hkey ↦ length_le_of_btcKeyHash hkey)
    fun _ _ _ ↦ validateSignatureBtc_eq_ret_iff hload hp

theorem verifyMultisig_authorises_iff :
    (verifyMultisig env p s.length q hash).outcome m = .ret () ↔
      (multisigScheme env).Authorises s msg hash := by
  constructor
  · intro haccepted
    have hlen := (mapped_of_verifyMultisig haccepted).1
    have hwitness := ((outcome_verifyMultisig_eq_ret_iff hp hlen hhash hq hmsg).mp haccepted).2
    have hscript : blake160 env (multisigScript s) = hash := hwitness.script
    exact ⟨multisigScript s, ⟨rfl, hscript ▸ hwitness⟩, hscript⟩
  · rintro ⟨script, ⟨-, hwitness⟩, hscript⟩
    have hname : blake160 env script = hash := hscript
    rw [hname] at hwitness
    have hlen : 4 ≤ s.length := by
      rw [hwitness.length_eq]
      omega
    exact (outcome_verifyMultisig_eq_ret_iff hp hlen hhash hq hmsg).mpr ⟨hload, hwitness⟩

/-- The run ends with acceptance exactly if the content is authorised. -/
theorem dispatch_authorises_iff {id : UInt8} (hregular : Regular env.ed id s) :
    (∃ fuel, (dispatch env fuel id p s.length q 32 hash).outcome m = .ret ()) ↔
      (schemeOf env id).Authorises s msg hash := by
  have hnobody : (∃ _ : ℕ, (Prog.fail errorNotImplemented : Call Unit).outcome m = .ret ()) ↔
      emptyScheme.Authorises s msg hash := by
    refine iff_of_false ?_ ?_
    · rintro ⟨-, h⟩
      cases h
    · rintro ⟨⟨⟩, -⟩
  unfold dispatch schemeOf
  cases halg : AuthAlgorithmIdType.ofByte id with
  | none => exact hnobody
  | some alg =>
      cases alg with
      | ckb =>
          exact (exists_const ℕ).trans (checked_verify_ckb_authorises_iff hload hp hhash hq hmsg)
      | ethereum =>
          exact (exists_const ℕ).trans
            (checked_verify_eth_authorises_iff hload hp hhash hq hmsg converts_eth)
      | eos =>
          exact (exists_const ℕ).trans
            (checked_verify_eth_authorises_iff hload hp hhash hq hmsg converts_eos)
      | tron =>
          exact (exists_const ℕ).trans
            (checked_verify_eth_authorises_iff hload hp hhash hq hmsg converts_tron)
      | bitcoin =>
          exact (exists_const ℕ).trans
            (verify_btc_authorises_iff hload hp hhash hq hmsg (converts_btc _ _))
      | dogecoin =>
          exact (exists_const ℕ).trans
            (verify_btc_authorises_iff hload hp hhash hq hmsg (converts_btc _ _))
      | litecoin =>
          exact (exists_const ℕ).trans
            (verify_btc_authorises_iff hload hp hhash hq hmsg (converts_btc _ _))
      | ckbMultisig =>
          exact (exists_const ℕ).trans (verifyMultisig_authorises_iff hload hp hhash hq hmsg)
      | schnorr =>
          exact (exists_const ℕ).trans (verify_copy_authorises_iff hhash hq hmsg
            (fun _ _ ↦ length_le_of_blake160) fun _ ↦ validateSignatureSchnorr_eq_ret_iff hload hp)
      | cardano =>
          have hwalks := hregular.cardano (ofByte_eq_some_iff.mp halg)
          exact verify_cardano_authorises_iff hp hhash hq hmsg hwalks
      | monero =>
          obtain ⟨curve, hkills⟩ := hregular.monero (ofByte_eq_some_iff.mp halg)
          exact (exists_const ℕ).trans (verify_monero_authorises_iff hp hhash hq hmsg hkills)
      | solana =>
          refine (exists_const ℕ).trans (verify_copy_authorises_iff hhash hq hmsg
            (fun _ _ ↦ length_le_of_blake160) fun out ↦ ?_)
          exact validateSignatureSolana_eq_ret_iff hp hmsg
            (hregular.solana (ofByte_eq_some_iff.mp halg))
      | rsa => exact hnobody
      | iso97962 => exact hnobody
      | ownerLock => exact (exists_const ℕ).trans (ownerLock_authorises_iff hhash)

end Routes

/-! ## ckb_auth -/

section

variable {child : ChildMemory} {loader : Loader} {entry : CkbEntryType} {id : CkbAuthType}
  (hload : ckbSecp256k1CustomVerifyOnlyInitialize env = .ok ()) (hmd : MdErrors env)
  (hauth : loader.NamesAuth entry.codeHash entry.hashType)
  (hp : p.Holds m s) (hq : q.Holds m msg) (hmsg : msg.length = 32)
  (hregular : Regular env.ed id.algorithmId s)

include hload hmd hauth hp hq hmsg hregular

theorem authorised_of_ckbAuth
    (haccepted : (ckbAuth env fuel child loader entry id p s.length q).outcome m = .ret ()) :
    loader.Runs entry s.length ∧ (schemeOf env id.algorithmId).Authorises s msg id.content := by
  obtain ⟨m', p', q', hp', hq', hrun, -⟩ := dispatch_of_ckbAuth hmd hauth hp hq hmsg haccepted
  exact ⟨runs_of_ckbAuth haccepted, (dispatch_authorises_iff hload hp' id.content_length hq'
    hmsg hregular).mp ⟨fuel, hrun⟩⟩

theorem ckbAuth_of_authorised (hruns : loader.Runs entry s.length)
    (hauthorised : (schemeOf env id.algorithmId).Authorises s msg id.content) :
    ∃ fuel, (ckbAuth env fuel child loader entry id p s.length q).outcome m = .ret () := by
  obtain ⟨hlink, hopen, hsym⟩ | ⟨hspawn, hsize, hstart⟩ := hruns
  · obtain ⟨fuel, hrun⟩ :=
      (dispatch_authorises_iff hload hp id.content_length hq hmsg hregular).mpr hauthorised
    refine ⟨fuel, ?_⟩
    rw [outcome_ckbAuth_dynamicLinking entry hlink hauth hopen hsym,
      outcome_ckbAuthValidate (by decide), hrun]
  · have hchild : s.length ≤ 1024 * 64 := by omega
    obtain ⟨fuel, hrun⟩ := (dispatch_authorises_iff hload (child.holds_signature hchild hmsg)
      id.content_length (child.holds_message hchild hmsg) hmsg hregular).mpr hauthorised
    rw [← outcome_ckbAuthValidate (by decide)] at hrun
    have hzero := (exitCode_main_eq_zero_iff encodes_ckbGethex hmd hmsg
      id.content_length).mpr ⟨hchild, hrun⟩
    refine ⟨fuel, ?_⟩
    rw [outcome_ckbAuth_spawn entry hspawn hauth hp hsize hq hmsg hstart, hzero, Outcome.bind_ret,
      if_pos rfl]

/-- Linked or spawned, `ckb_auth` accepts a content exactly if a key for it has signed the
message, and the auth program runs at all. -/
theorem ckbAuth_accepts_iff :
    (∃ fuel, (ckbAuth env fuel child loader entry id p s.length q).outcome m = .ret ()) ↔
      loader.Runs entry s.length ∧ (schemeOf env id.algorithmId).Authorises s msg id.content := by
  constructor
  · rintro ⟨fuel, haccepted⟩
    exact authorised_of_ckbAuth hload hmd hauth hp hq hmsg hregular haccepted
  · rintro ⟨hruns, hauthorised⟩
    exact ckbAuth_of_authorised hload hmd hauth hp hq hmsg hregular hruns hauthorised

end

/-! ### Signatures of three kinds -/

theorem length_cardanoMsg : cardanoMsg.length = 32 := length_bytesOfNat ..

theorem length_nestedKey : nestedKey.length = 32 := length_bytesOfNat ..

theorem length_nestedSig : nestedSig.length = 64 := by simp [nestedSig]

def nestedTransaction : CardanoTransaction where
  msg := cardanoMsg
  body := nestedBody
  pk := nestedKey
  sig := nestedSig
  isBody := isBody_nestedBody
  length_msg := length_cardanoMsg
  length_pk := length_nestedKey
  length_sig := length_nestedSig

theorem length_blake160 (b : Bytes) : (blake160 env b).length = 20 := by
  rw [blake160, List.length_take, env.hash.blake2b_length]
  rfl

def nestedId : CkbAuthType :=
  ⟨AuthAlgorithmIdType.cardano.toByte, blake160 nestedAnswers.env nestedKey, length_blake160 _⟩

theorem nestedTransaction_authorised :
    (schemeOf nestedAnswers.env nestedId.algorithmId).Authorises nestedTransaction.bytes cardanoMsg
      nestedId.content := by
  have hscheme : schemeOf nestedAnswers.env nestedId.algorithmId =
      cardanoScheme nestedAnswers.env := by
    rw [schemeOf, nestedId, AuthAlgorithmIdType.ofByte_toByte]
  rw [hscheme]
  exact ⟨nestedKey, ⟨nestedTransaction, rfl, rfl, rfl, by decide +kernel⟩, rfl⟩

theorem length_basePointKey : basePointKey.length = 32 := by simp [basePointKey]

theorem length_torsionMessage : torsionMessage.length = 32 := length_bytesOfNat ..

/-- A message under the base point as both keys. -/
def baseMessage : MoneroMessage where
  spendPubkey := basePointKey
  viewPubkey := basePointKey
  mode := 0
  msg := torsionMessage
  length_spendPubkey := length_basePointKey
  length_viewPubkey := length_basePointKey
  length_msg := length_torsionMessage.trans_le (by omega)

def baseDigest : Bytes :=
  bytesOfNat 32 0x56a1e178e1ae5b35d0dcae8c182dc103828cf7491a257981fb921a762c071b79

def baseC : Bytes :=
  bytesOfNat 32 0x356515ddac726604052d1ce4225431995af5af2119b1c98d0ddae8565d935708

def baseR : Bytes :=
  bytesOfNat 32 0x346d954a437fa897a938e35b20d7de34df649143d5da2ffde383799bef44dd00

def baseStream : Bytes :=
  ascii "MoneroMessageSignature" ++ [0] ++ basePointKey ++ basePointKey ++ [0] ++ [32] ++
    torsionMessage

def baseAnswers : KnownAnswers :=
  { KnownAnswers.empty with
    blake2b := [(0 :: (basePointKey ++ basePointKey),
      bytesOfNat 32 0x2765f5e91fa2686fa48f6b40f22533b7aafe1637d2e9ba4fb6b6c70b91bd9f93)]
    keccak256 := [
      (baseStream, baseDigest),
      (baseDigest ++ basePointKey ++ torsionCommitment,
        bytesOfNat 32 0x0f0d0197e1388bb4b1660b2ae047efc25af5af2119b1c98d0ddae8565d935728)] }

def baseEnv : Env := { baseAnswers.env with ed := curveEd }

def baseCurve : Curve curveEd := ⟨ZMod curveOrder, curveLaws⟩

def baseId : CkbAuthType :=
  ⟨AuthAlgorithmIdType.monero.toByte, blake160 baseEnv (0 :: (basePointKey ++ basePointKey)),
    length_blake160 _⟩

def baseSignature : Bytes := baseC ++ baseR ++ 0 :: (basePointKey ++ basePointKey)

theorem decode_basePointKey :
    curveLaws.decode basePointKey = some ((8 : ℕ) : ZMod curveOrder) := by
  have hdecode : decodeResidue basePointKey = some 8 := by decide +kernel
  change (decodeResidue basePointKey).map _ = _
  rw [hdecode]
  rfl

theorem baseCurve_kills : baseCurve.Kills basePointKey := by
  intro A hA
  obtain rfl := Option.some.inj (decode_basePointKey.symm.trans hA)
  change curveLaws.L • ((8 : ℕ) : ZMod curveOrder) = 0
  rw [nsmul_eq_mul, ← Nat.cast_mul, ZMod.natCast_eq_zero_iff]
  exact ⟨1, by decide +kernel⟩

theorem stream_baseMessage : baseMessage.stream = baseStream := by
  have hlen : baseMessage.msg.length = 32 := length_torsionMessage
  rw [MoneroMessage.stream, hlen, Base128.encode_of_lt (by decide)]
  rfl

theorem length_baseC : baseC.length = 32 := length_bytesOfNat ..

theorem length_baseR : baseR.length = 32 := length_bytesOfNat ..

theorem baseSignature_authorised :
    (schemeOf baseEnv baseId.algorithmId).Authorises baseSignature torsionMessage
      baseId.content := by
  have hscheme : schemeOf baseEnv baseId.algorithmId = moneroScheme baseEnv := by
    rw [schemeOf, baseId, AuthAlgorithmIdType.ofByte_toByte]
  have hverify : ed25519VerifyMonero baseEnv (baseC ++ baseR) baseDigest baseDigest.length
      basePointKey = 1 := by decide +kernel
  have hsame : SameCommitment curveLaws baseDigest ((8 : ℕ) : ZMod curveOrder) baseC baseR :=
    fun _ _ _ ↦ ⟨baseCurve_kills _ decode_basePointKey, by decide +kernel⟩
  have hcheck := (@moneroAgrees_of_sameCommitment baseEnv _ _ curveLaws _ _ _ length_basePointKey
    decode_basePointKey _ _ length_baseC length_baseR hsame).mp hverify
  have hdigest : baseEnv.hash.keccak256 baseMessage.stream = baseDigest := by
    rw [stream_baseMessage]
    decide +kernel
  rw [hscheme]
  refine ⟨(basePointKey, basePointKey), ⟨baseMessage, baseCurve, _, baseC, baseR, rfl, rfl, rfl,
    rfl, rfl, length_baseC, length_baseR, decode_basePointKey, ?_⟩, rfl⟩
  rw [hdigest]
  exact hcheck

theorem nestedBytes_fits : nestedTransaction.bytes.length ≤ 2 ^ 64 := by decide +kernel

theorem cardanoMsg_fits : cardanoMsg.length ≤ 2 ^ 64 := by simp [cardanoMsg]

theorem torsionMessage_fits : torsionMessage.length ≤ 2 ^ 64 := by simp [torsionMessage]

theorem baseSignature_fits : baseSignature.length ≤ 2 ^ 64 := by
  simp [baseSignature, length_baseC, length_baseR, length_basePointKey]

/-- The holders of a script, a Cardano key and a Monero key have signed. -/
theorem signatures_accepted :
    (∃ fuel, (ckbAuth soleAnswers.env fuel bareChild readyLoader (someEntry entryCategorySpawn)
      soleMultisigId ⟨.signature, 0⟩ soleWitness.length ⟨.message, 0⟩).outcome soleMem =
        .ret ()) ∧
    (∃ fuel, (ckbAuth nestedAnswers.env fuel bareChild readyLoader (someEntry entryCategorySpawn)
      nestedId ⟨.signature, 0⟩ nestedTransaction.bytes.length ⟨.message, 0⟩).outcome
        (bufferMem nestedTransaction.bytes cardanoMsg nestedBytes_fits cardanoMsg_fits) =
          .ret ()) ∧
    ∃ fuel, (ckbAuth baseEnv fuel bareChild readyLoader (someEntry entryCategoryDynamicLinking)
      baseId ⟨.signature, 0⟩ baseSignature.length ⟨.message, 0⟩).outcome
        (bufferMem baseSignature torsionMessage baseSignature_fits torsionMessage_fits) =
          .ret () := by
  have hauth (category : UInt8) : readyLoader.NamesAuth (someEntry category).codeHash
      (someEntry category).hashType := readyLoader_namesAuth _ _
  have hspawned {n : ℕ} (hn : n ≤ 1024 * 8) :
      readyLoader.Runs (someEntry entryCategorySpawn) n := .inr ⟨rfl, hn, rfl⟩
  refine ⟨?_, ?_, ?_⟩
  · have hload : ckbSecp256k1CustomVerifyOnlyInitialize soleAnswers.env = .ok () := by
      decide +kernel
    have hmd : MdErrors soleAnswers.env := mdErrors_of_knownAnswers soleAnswers
    have hp : Prog.Ptr.Holds soleMem ⟨.signature, 0⟩ soleWitness := bufferMem_holds_signature ..
    have hq : Prog.Ptr.Holds soleMem ⟨.message, 0⟩ soleMessage := bufferMem_holds_message ..
    have hmsg : soleMessage.length = 32 := length_bytesOfNat ..
    have hregular : Regular soleAnswers.env.ed soleMultisigId.algorithmId soleWitness :=
      ⟨fun h ↦ absurd h (by decide), fun h ↦ absurd h (by decide), fun h ↦ absurd h (by decide)⟩
    have hauthorised :=
      ((ckbAuth_accepts_iff hload hmd (hauth entryCategoryDynamicLinking) hp hq hmsg hregular).mp
        ⟨0, soleWitness_linked⟩).2
    exact (ckbAuth_accepts_iff hload hmd (hauth _) hp hq hmsg hregular).mpr
      ⟨hspawned (by decide +kernel), hauthorised⟩
  · have hregular : Regular nestedAnswers.env.ed nestedId.algorithmId nestedTransaction.bytes :=
      ⟨fun h ↦ absurd h (by decide), fun h ↦ absurd h (by decide),
        fun _ _ _ _ _ _ ↦ ⟨nestedTransaction, rfl⟩⟩
    exact (ckbAuth_accepts_iff nestedAnswers.env_initialize
      (mdErrors_of_knownAnswers nestedAnswers) (hauth _) (bufferMem_holds_signature ..)
      (bufferMem_holds_message ..) nestedTransaction.length_msg hregular).mpr
        ⟨hspawned (by decide +kernel), nestedTransaction_authorised⟩
  · have hload : ckbSecp256k1CustomVerifyOnlyInitialize baseEnv = .ok () := by decide +kernel
    have hmd : MdErrors baseEnv := mdErrors_of_knownAnswers baseAnswers
    have hspend : (baseSignature.drop 65).take 32 = basePointKey := by decide +kernel
    have hregular : Regular baseEnv.ed baseId.algorithmId baseSignature :=
      ⟨fun h ↦ absurd h (by decide), fun _ ↦ ⟨baseCurve, hspend ▸ baseCurve_kills⟩,
        fun h ↦ absurd h (by decide)⟩
    exact (ckbAuth_accepts_iff hload hmd (hauth _) (bufferMem_holds_signature ..)
      (bufferMem_holds_message ..) length_torsionMessage hregular).mpr
        ⟨.inl ⟨rfl, rfl, rfl⟩, baseSignature_authorised⟩

end CkbAuth
