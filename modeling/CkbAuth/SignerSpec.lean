import CkbAuth.AuthSpec
import CkbAuth.EcdsaSpec
import CkbAuth.Signer

/-!
# What a signer signs, the auth library accepts

For every ECDSA chain the signature of a converted message is accepted under
the signer's key hash, and under no other content.
-/

namespace CkbAuth.Signer

open CkbAuth CRun

variable {env : Env} {c : Crates env.secp.Pubkey} {m : Mem Region}

/-- Both sides hash alike and serialize public keys alike. -/
structure Shares (env : Env) (c : Crates env.secp.Pubkey) : Prop where
  serialize : ∀ k, env.secp.serialize (c.pubkey k) true = some (c.serialize (c.pubkey k))
  serializeUncompressed : ∀ k,
    env.secp.serialize (c.pubkey k) false = some (c.serializeUncompressed (c.pubkey k))
  asBytes : ∀ k, c.serializeUncompressed (c.pubkey k) = 4 :: c.asBytes (c.pubkey k)
  blake2b : ∀ b, c.blake2b256 b = env.hash.blake2b b
  keccak256 : ∀ b, c.keccak256 b = env.hash.keccak256 b
  sha256 : ∀ b, env.hash.md .sha256 b = .ok (c.sha256 b)
  length_sha256 : ∀ b, (c.sha256 b).length = 32
  ripemd160 : ∀ b, env.hash.md .ripemd160 b = .ok (c.ripemd160 b)
  length_ripemd160 : ∀ b, (c.ripemd160 b).length = 20

/-- The key can be recovered from its signature. -/
structure Recovers (env : Env) (c : Crates env.secp.Pubkey) (k : c.Privkey) (digest : Bytes) :
    Prop where
  length : (c.signEcdsaRecoverable k digest).2.length = 64
  recid_le : (c.signEcdsaRecoverable k digest).1.toNat ≤ 3
  recovers : ∃ signature,
    env.secp.parseCompact (c.signEcdsaRecoverable k digest).2
      (c.signEcdsaRecoverable k digest).1.toNat = some signature ∧
    env.secp.recover signature digest = some (c.pubkey k)

/-- The digest under a signer's signature. -/
def EcdsaAuth.digest : EcdsaAuth c → Bytes → Bytes
  | litecoin _, message => LitecoinAuth.convertLitecoin c message
  | self, message => self.auth.convertMessage message

/-- A Litecoin daemon, where one is asked, signs as the software does. -/
def EcdsaAuth.DaemonSigns : EcdsaAuth c → Bytes → Prop
  | litecoin self, message => self.official = true →
      c.litecoinSignmessage self.sk (hexEncode message) =
        BitcoinAuth.btcSign c (LitecoinAuth.convertLitecoin c message) self.sk true
  | _, _ => True

/-! ## Recovery -/

/-- The form of a public key that the validators ask for. -/
def keyBytes (c : Crates env.secp.Pubkey) (k : c.Privkey) (compressed : Bool) : Bytes :=
  if compressed then c.serialize (c.pubkey k) else c.serializeUncompressed (c.pubkey k)

section Signed

variable {k : c.Privkey} {digest : Bytes}

theorem recoverFrom_signed (hshare : Shares env c)
    (hload : ckbSecp256k1CustomVerifyOnlyInitialize env = .ok ()) (hr : Recovers env c k digest)
    (compressed : Bool) :
    recoverFrom env (c.signEcdsaRecoverable k digest).2
        (c.signEcdsaRecoverable k digest).1.toNat digest compressed =
      .ret (keyBytes c k compressed) := by
  obtain ⟨signature, hparse, hrecover⟩ := hr.recovers
  have hserialize : env.secp.serialize (c.pubkey k) compressed =
      some (keyBytes c k compressed) := by
    cases compressed with
    | true => exact hshare.serialize k
    | false => exact hshare.serializeUncompressed k
  rw [recoverFrom, hload, if_pos hr.recid_le, recoveredKey, hparse, Option.bind_some, hrecover,
    Option.bind_some, hserialize]
  rfl

theorem signRecoverable_eq (hr : Recovers env c k digest) :
    signRecoverable c k digest =
      (c.signEcdsaRecoverable k digest).2 ++ [(c.signEcdsaRecoverable k digest).1] := by
  change (c.signEcdsaRecoverable k digest).2.take 64 ++ _ = _
  rw [← hr.length, List.take_length]

theorem length_signRecoverable (hr : Recovers env c k digest) :
    (signRecoverable c k digest).length = 65 := by
  rw [signRecoverable_eq hr, List.length_append, hr.length]
  rfl

theorem take_signRecoverable (hr : Recovers env c k digest) :
    (signRecoverable c k digest).take 64 = (c.signEcdsaRecoverable k digest).2 := by
  rw [signRecoverable_eq hr, ← hr.length, List.take_left']
  rfl

theorem getD_signRecoverable (hr : Recovers env c k digest) :
    (signRecoverable c k digest).getD 64 0 = (c.signEcdsaRecoverable k digest).1 := by
  rw [signRecoverable_eq hr, ← hr.length]
  simp

/-! ### The header byte of a Bitcoin signature -/

theorem btcSign_eq (hr : Recovers env c k digest) (compress : Bool) :
    BitcoinAuth.btcSign c digest k compress =
      (if compress then (c.signEcdsaRecoverable k digest).1 + 31
        else (c.signEcdsaRecoverable k digest).1 + 27) :: (c.signEcdsaRecoverable k digest).2 := by
  simp only [BitcoinAuth.btcSign, getD_signRecoverable hr, take_signRecoverable hr]

theorem length_btcSign (hr : Recovers env c k digest) (compress : Bool) :
    (BitcoinAuth.btcSign c digest k compress).length = 65 := by
  rw [btcSign_eq hr, List.length_cons, hr.length]

theorem header_mark {recid : UInt8} (h : recid.toNat ≤ 3) (compress : Bool) :
    headerRecid (if compress then recid + 31 else recid + 27) = recid.toNat ∧
      headerCompressed (if compress then recid + 31 else recid + 27) = compress := by
  have hall : ∀ recid : UInt8, recid.toNat ≤ 3 → ∀ compress : Bool,
      headerRecid (if compress then recid + 31 else recid + 27) = recid.toNat ∧
        headerCompressed (if compress then recid + 31 else recid + 27) = compress :=
    forall_byte (by decide +kernel)
  exact hall recid h compress

/-! ### Validators on signed digests -/

variable {p q : Prog.Ptr Region}

theorem outcome_validateSignatureCkb_signed (hshare : Shares env c)
    (hload : ckbSecp256k1CustomVerifyOnlyInitialize env = .ok ()) (hr : Recovers env c k digest)
    (hp : p.Holds m (signRecoverable c k digest)) :
    (validateSignatureCkb env p 65 digest 32 20).outcome m =
      .ret (CKbAuth.getCkbPubKeyHash c k) := by
  rw [outcome_validateSignatureCkb hp (length_signRecoverable hr), take_signRecoverable hr,
    getD_signRecoverable hr, recoverFrom_signed hshare hload hr, Outcome.bind_ret,
    CKbAuth.getCkbPubKeyHash, hshare.blake2b]
  rfl

theorem outcome_validateSignatureEth_signed (hshare : Shares env c)
    (hload : ckbSecp256k1CustomVerifyOnlyInitialize env = .ok ()) (hr : Recovers env c k digest)
    (hp : p.Holds m (EthereumAuth.ethSign c digest k)) :
    (validateSignatureEth env p 65 digest 32 20).outcome m =
      .ret (EthereumAuth.getEthPubKeyHash c (c.pubkey k)) := by
  have hp : p.Holds m (signRecoverable c k digest) := hp
  have h65 : (c.serializeUncompressed (c.pubkey k)).length = 65 := by
    simpa using env.secp.serialize_length (hshare.serializeUncompressed k)
  rw [outcome_validateSignatureEth hp (length_signRecoverable hr), take_signRecoverable hr,
    getD_signRecoverable hr, recoverFrom_signed hshare hload hr, Outcome.bind_ret]
  -- the 64 bytes behind the tag byte fit into the 16-bit size
  have habsorb : keccakUpdate keccakInit ((c.serializeUncompressed (c.pubkey k)).drop 1)
      ((c.serializeUncompressed (c.pubkey k)).length - 1) =
        (c.serializeUncompressed (c.pubkey k)).drop 1 := by
    rw [keccakUpdate, keccakInit, List.nil_append, List.take_of_length_le]
    rw [List.length_drop, h65]
    decide
  have hlen := env.hash.keccak256_length ((c.serializeUncompressed (c.pubkey k)).drop 1)
  change Outcome.ret (ethKeyHash env (c.serializeUncompressed (c.pubkey k))) = _
  rw [ethKeyHash, habsorb, keccakFinal, EthereumAuth.getEthPubKeyHash, hshare.keccak256,
    List.take_of_length_le (by rw [List.length_drop, hlen])]

theorem outcome_validateSignatureBtc_signed (hshare : Shares env c)
    (hload : ckbSecp256k1CustomVerifyOnlyInitialize env = .ok ()) (hr : Recovers env c k digest)
    {compress : Bool} (hp : p.Holds m (BitcoinAuth.btcSign c digest k compress)) :
    (validateSignatureBtc env p 65 digest 32 20).outcome m =
      .ret (BitcoinAuth.getBtcPubKeyHash c k compress) := by
  obtain ⟨hrecid, hcompressed⟩ := header_mark hr.recid_le compress
  rw [outcome_validateSignatureBtc hp (length_btcSign hr compress), btcSign_eq hr,
    List.getD_cons_zero, hrecid, hcompressed, List.drop_succ_cons, List.drop_zero,
    List.take_of_length_le (Nat.le_of_eq hr.length), recoverFrom_signed hshare hload hr,
    Outcome.bind_ret, btcKeyHash, hshare.sha256, Outcome.ofExcept, Outcome.bind_ret,
    List.take_of_length_le (Nat.le_of_eq (hshare.length_sha256 _)), hshare.ripemd160,
    Outcome.ofExcept, Outcome.bind_ret,
    List.take_of_length_le (Nat.le_of_eq (hshare.length_ripemd160 _))]
  cases compress with
  | true => rfl
  | false =>
      simp only [keyBytes, BitcoinAuth.getBtcPubKeyHash, hshare.asBytes k]

/-! ### Conversions -/

theorem keccakPrefixed_eq (hshare : Shares env c) {pre msg : Bytes} (hpre : pre.length < 2 ^ 16)
    (h32 : msg.length = 32) : keccakPrefixed env pre msg = c.keccak256 (pre ++ msg) := by
  rw [hshare.keccak256, keccakPrefixed, keccakFinal, keccakUpdate, keccakUpdate, keccakInit,
    List.nil_append, Nat.mod_eq_of_lt hpre, List.take_length, List.take_of_length_le]
  rw [h32]
  decide

theorem btcDigest_eq (hshare : Shares env c) {magic : Bytes} {magicLen : UInt8} {msg : Bytes}
    (hlen : magic.length = magicLen.toNat) :
    btcDigest env magic magicLen msg =
      .ret (convertWithMagic c (magicLen :: magic ++ [0x40]) msg) := by
  rw [btcDigest, ← hlen, List.take_length, hshare.sha256, Outcome.ofExcept, Outcome.bind_ret,
    List.take_of_length_le (Nat.le_of_eq (hshare.length_sha256 _)), hshare.sha256]
  rfl

/-! ### The verdict -/

theorem outcome_verify_signed {convert : ConvertMsg} {g : Bytes → Outcome Bytes}
    (hg : Converts convert g) {msg : Bytes} (hdigest : g msg = .ret digest)
    (hq : q.Holds m msg) (h32 : msg.length = 32) {n : ℕ} {func : ValidateSignature}
    {keyHash hash : Bytes} (hfunc : (func p n digest 32 20).outcome m = .ret keyHash)
    (hkey : keyHash.length = 20) (hhash : hash.length = 20) :
    (verify hash p n q 32 func convert).outcome m =
      if hash = keyHash then .ret () else .fail errorMismatched := by
  rw [outcome_verify hg hq h32, hdigest, Outcome.bind_ret, hfunc, Outcome.bind_ret,
    List.take_of_length_le (Nat.le_of_eq hhash), List.take_of_length_le (Nat.le_of_eq hkey)]

theorem length_getCkbPubKeyHash (hshare : Shares env c) :
    (CKbAuth.getCkbPubKeyHash c k).length = 20 := by
  rw [CKbAuth.getCkbPubKeyHash, hshare.blake2b, List.length_take, env.hash.blake2b_length]
  rfl

theorem length_getEthPubKeyHash (hshare : Shares env c) (pubkey : env.secp.Pubkey) :
    (EthereumAuth.getEthPubKeyHash c pubkey).length = 20 := by
  rw [EthereumAuth.getEthPubKeyHash, hshare.keccak256, List.length_drop, env.hash.keccak256_length]

theorem length_getBtcPubKeyHash (hshare : Shares env c) (compress : Bool) :
    (BitcoinAuth.getBtcPubKeyHash c k compress).length = 20 :=
  hshare.length_ripemd160 _

theorem outcome_sizeChecked (rest : Call Unit) :
    (Prog.check (65 = secp256k1SignatureSize) errorInvalidArg >>= fun _ ↦ rest).outcome m =
      rest.outcome m := by
  rw [Prog.outcome_bind, Prog.outcome_check, if_pos (by decide), Outcome.bind_ret]

/-- Ethereum, EOS and Tron differ in the digest alone. -/
theorem outcome_verifyEth_signed (self : Keypair c) (hshare : Shares env c)
    (hload : ckbSecp256k1CustomVerifyOnlyInitialize env = .ok ())
    (hr : Recovers env c self.privkey digest) {convert : ConvertMsg} {g : Bytes → Outcome Bytes}
    (hg : Converts convert g) {msg hash : Bytes} (hdigest : g msg = .ret digest)
    (hq : q.Holds m msg) (h32 : msg.length = 32) {sig : Bytes}
    (hsig : EthereumAuth.ethSign c digest self.privkey = sig) (hp : p.Holds m sig)
    (hhash : hash.length = 20) :
    (Prog.check (sig.length = secp256k1SignatureSize) errorInvalidArg >>= fun _ ↦
        verify hash p sig.length q 32 (validateSignatureEth env) convert).outcome m =
      if hash = EthereumAuth.getEthPubKeyHash c self.pubkey then .ret ()
      else .fail errorMismatched := by
  have hlen : sig.length = 65 := by
    rw [← hsig]
    exact length_signRecoverable hr
  subst hsig
  rw [hlen, self.pubkey_eq]
  refine (outcome_sizeChecked _).trans ?_
  exact outcome_verify_signed hg hdigest hq h32
    (outcome_validateSignatureEth_signed hshare hload hr hp) (length_getEthPubKeyHash hshare _)
    hhash

theorem outcome_verifyBtc_signed (hshare : Shares env c)
    (hload : ckbSecp256k1CustomVerifyOnlyInitialize env = .ok ()) {magic : Bytes}
    {magicLen : UInt8} (hmagic : magic.length = magicLen.toNat) {msg hash : Bytes}
    (hr : Recovers env c k (convertWithMagic c (magicLen :: magic ++ [0x40]) msg))
    (hq : q.Holds m msg) (h32 : msg.length = 32) {compress : Bool} {sig : Bytes}
    (hsig : BitcoinAuth.btcSign c (convertWithMagic c (magicLen :: magic ++ [0x40]) msg) k
      compress = sig) (hp : p.Holds m sig) (hhash : hash.length = 20) :
    (verify hash p sig.length q 32 (validateSignatureBtc env)
        (convertBtcMessageVariant env magic magicLen)).outcome m =
      if hash = BitcoinAuth.getBtcPubKeyHash c k compress then .ret ()
      else .fail errorMismatched := by
  subst hsig
  rw [length_btcSign hr compress]
  exact outcome_verify_signed (converts_btc _ _) (btcDigest_eq hshare hmagic) hq h32
    (outcome_validateSignatureBtc_signed hshare hload hr hp) (length_getBtcPubKeyHash hshare _)
    hhash

end Signed

/-- A signed message is accepted under the key hash of its signer, and rejected
as a mismatch under every other content. -/
theorem signed_message_verdict (auth : EcdsaAuth c) {p q : Prog.Ptr Region} {msg hash : Bytes}
    {fuel : ℕ} (hshare : Shares env c)
    (hload : ckbSecp256k1CustomVerifyOnlyInitialize env = .ok ())
    (hr : Recovers env c auth.privkey (auth.digest msg)) (hdaemon : auth.DaemonSigns msg)
    (hq : q.Holds m msg) (h32 : msg.length = 32)
    (hp : p.Holds m (auth.auth.sign (auth.auth.convertMessage msg))) (hhash : hash.length = 20) :
    (ckbAuthValidate env fuel auth.auth.getAlgorithmType (some p)
        (auth.auth.sign (auth.auth.convertMessage msg)).length (some q) 32 hash 20).outcome m =
      if hash = auth.auth.getPubKeyHash then .ret () else .fail errorMismatched := by
  rw [outcome_ckbAuthValidate (by decide)]
  cases auth with
  | ckb self =>
      have hlen : (signRecoverable c self.privkey msg).length = 65 := length_signRecoverable hr
      change (dispatch env fuel AuthAlgorithmIdType.ckb.toByte p
        (signRecoverable c self.privkey msg).length q 32 hash).outcome m = _
      rw [dispatch, AuthAlgorithmIdType.ofByte_toByte, hlen]
      refine (outcome_sizeChecked _).trans ?_
      exact outcome_verify_signed converts_copy rfl hq h32
        (outcome_validateSignatureCkb_signed hshare hload hr hp) (length_getCkbPubKeyHash hshare)
        hhash
  | ethereum self =>
      change (dispatch env fuel AuthAlgorithmIdType.ethereum.toByte ..).outcome m = _
      rw [dispatch, AuthAlgorithmIdType.ofByte_toByte]
      exact outcome_verifyEth_signed self.toKeypair hshare hload hr converts_eth
        (congrArg Outcome.ret (keccakPrefixed_eq hshare (by decide) h32)) hq h32 rfl hp hhash
  | eos self =>
      change (dispatch env fuel AuthAlgorithmIdType.eos.toByte ..).outcome m = _
      rw [dispatch, AuthAlgorithmIdType.ofByte_toByte]
      exact outcome_verifyEth_signed self.toKeypair hshare hload hr converts_eos
        (congrArg Outcome.ofExcept (hshare.sha256 msg)) hq h32 rfl hp hhash
  | tron self =>
      change (dispatch env fuel AuthAlgorithmIdType.tron.toByte ..).outcome m = _
      rw [dispatch, AuthAlgorithmIdType.ofByte_toByte]
      exact outcome_verifyEth_signed self.toKeypair hshare hload hr converts_tron
        (congrArg Outcome.ret (keccakPrefixed_eq hshare (by decide) h32)) hq h32 rfl hp hhash
  | bitcoin self =>
      change (dispatch env fuel AuthAlgorithmIdType.bitcoin.toByte ..).outcome m = _
      rw [dispatch, AuthAlgorithmIdType.ofByte_toByte]
      exact outcome_verifyBtc_signed hshare hload (by decide) hr hq h32 rfl hp hhash
  | dogecoin self =>
      change (dispatch env fuel AuthAlgorithmIdType.dogecoin.toByte ..).outcome m = _
      rw [dispatch, AuthAlgorithmIdType.ofByte_toByte]
      exact outcome_verifyBtc_signed hshare hload (by decide) hr hq h32 rfl hp hhash
  | litecoin self =>
      -- a daemon signs the digest that the software would sign
      have hsig : BitcoinAuth.btcSign c (LitecoinAuth.convertLitecoin c msg) self.sk self.compress =
          self.auth.sign (self.auth.convertMessage msg) := by
        by_cases hofficial : self.official = true
        · simp only [LitecoinAuth.auth, hofficial, if_true, self.official_compress hofficial]
          exact (hdaemon hofficial).symm
        · simp only [LitecoinAuth.auth, hofficial, if_false, Bool.false_eq_true]
      change (dispatch env fuel AuthAlgorithmIdType.litecoin.toByte ..).outcome m = _
      rw [dispatch, AuthAlgorithmIdType.ofByte_toByte]
      exact outcome_verifyBtc_signed hshare hload (by decide) hr hq h32 hsig hp hhash

/-! ## A Bitcoin signature with an uncompressed key -/

def bitcoinText : Bytes := 0x18 :: ascii "Bitcoin Signed Message:\n@" ++ hexEncode soleMessage

def bitcoinInner : Bytes :=
  bytesOfNat 32 0xdfadbd730e3b81f7b72cde0f7787a213ee70cf19c3d1e6ab6183b85694f3cd8d

def bitcoinDigest : Bytes :=
  bytesOfNat 32 0xab8815a3e9c1d8a1a275f4ee69cff7e5be3749828167c27486bb48e0e91e20b3

def bitcoinCompact : Bytes :=
  bytesOfNat 32 0xc04d3a5274952acdbc76987f3184b346a483d43be40874624b29e3692c1df5af ++
  bytesOfNat 32 0x1b2d7ea6601fefcda459ab3f8d3a1c3169648f96c4b40d60fe95ce9cb00671d2

def bitcoinKeySha : Bytes :=
  bytesOfNat 32 0xac29fba47b114fbe479dad77fd58931382099ceafed14d25c78e91ccdf2350d3

def bitcoinKeyHash : Bytes := bytesOfNat 20 0x0cbb3eeba6c4805531b18a1d27957fba561f8689

def bitcoinAnswers : KnownAnswers :=
  { KnownAnswers.empty with
    recover := [((bitcoinCompact, 0, bitcoinDigest), solePubkey)]
    md := [((.sha256, bitcoinText), bitcoinInner), ((.sha256, bitcoinInner), bitcoinDigest),
      ((.sha256, solePubkey), bitcoinKeySha), ((.ripemd160, bitcoinKeySha), bitcoinKeyHash)] }

def bitcoinCrates : Crates bitcoinAnswers.env.secp.Pubkey where
  Privkey := Unit
  pubkey _ := solePubkey
  serialize pk := (serializeKnown pk true).getD []
  serializeUncompressed pk := pk
  asBytes pk := List.drop 1 pk
  signEcdsaRecoverable _ _ := (0, bitcoinCompact)
  blake2b256 := bitcoinAnswers.env.hash.blake2b
  keccak256 := bitcoinAnswers.env.hash.keccak256
  sha256 b := digestOf 32 bitcoinAnswers.md (.sha256, b)
  ripemd160 b := digestOf 20 bitcoinAnswers.md (.ripemd160, b)
  litecoinSignmessage _ _ := []

theorem bitcoinCrates_shares : Shares bitcoinAnswers.env bitcoinCrates where
  serialize _ := show serializeKnown solePubkey true =
    some ((serializeKnown solePubkey true).getD []) by decide +kernel
  serializeUncompressed _ := show serializeKnown solePubkey false = some solePubkey by
    decide +kernel
  asBytes _ := show solePubkey = 4 :: solePubkey.drop 1 by decide +kernel
  blake2b _ := rfl
  keccak256 _ := rfl
  sha256 _ := rfl
  length_sha256 _ := length_digestOf ..
  ripemd160 _ := rfl
  length_ripemd160 _ := length_digestOf ..

def bitcoinSigner : BitcoinAuth bitcoinCrates := ⟨(), false⟩

def bitcoinSignature : Bytes := 27 :: bitcoinCompact

theorem bitcoinSignature_fits : bitcoinSignature.length ≤ 2 ^ 64 := by
  simp [bitcoinSignature, bitcoinCompact]

theorem bitcoin_signed_message_accepted :
    bitcoinSigner.auth.sign (bitcoinSigner.auth.convertMessage soleMessage) = bitcoinSignature ∧
    (ckbAuthValidate bitcoinAnswers.env 0 4 (some ⟨.signature, 0⟩) 65 (some ⟨.message, 0⟩) 32
        bitcoinKeyHash 20).outcome
      (bufferMem bitcoinSignature soleMessage bitcoinSignature_fits soleMessage_fits) =
        .ret () := by
  have hsign : bitcoinSigner.auth.sign (bitcoinSigner.auth.convertMessage soleMessage) =
      bitcoinSignature := by decide +kernel
  have hrecover : (bitcoinAnswers.recover.find? fun entry ↦
      entry.1 = (bitcoinCompact, 0, bitcoinDigest)).map Prod.snd = some solePubkey := by
    decide +kernel
  have hr : Recovers bitcoinAnswers.env bitcoinCrates () bitcoinDigest :=
    ⟨by decide +kernel, by decide +kernel, (bitcoinCompact, 0), rfl, hrecover⟩
  have hdigest : EcdsaAuth.digest (.bitcoin bitcoinSigner) soleMessage = bitcoinDigest := by
    decide +kernel
  refine ⟨hsign, ?_⟩
  refine (signed_message_verdict (.bitcoin bitcoinSigner) bitcoinCrates_shares
    bitcoinAnswers.env_initialize (hdigest.symm ▸ hr) trivial (bufferMem_holds_message ..)
    (by decide +kernel) ?_ (by decide +kernel)).trans (if_pos (by decide +kernel))
  exact hsign.symm ▸ bufferMem_holds_signature ..

end CkbAuth.Signer
