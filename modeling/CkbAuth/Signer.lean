import CkbAuth.Hex

/-!
# The signers of the Rust tests

`Auth` of `tests/auth_rust/src/lib.rs` and its implementations for the ECDSA
chains.  What the crates below them compute is a parameter.
-/

namespace CkbAuth.Signer

open CkbAuth

/-- The crates that the signers call, over the public keys of the library. -/
structure Crates (Pubkey : Type) where
  Privkey : Type
  pubkey : Privkey → Pubkey
  /-- the compressed form -/
  serialize : Pubkey → Bytes
  serializeUncompressed : Pubkey → Bytes
  /-- the two coordinates -/
  asBytes : Pubkey → Bytes
  /-- recovery id and compact signature -/
  signEcdsaRecoverable : Privkey → Bytes → UInt8 × Bytes
  blake2b256 : Bytes → Bytes
  keccak256 : Bytes → Bytes
  sha256 : Bytes → Bytes
  ripemd160 : Bytes → Bytes
  /-- the decoded answer of a Litecoin daemon to `signmessage` -/
  litecoinSignmessage : Privkey → Bytes → Bytes

/-- The ids of `AlgorithmType` whose signers are here. -/
inductive AlgorithmType where
  | ckb
  | ethereum
  | eos
  | tron
  | bitcoin
  | dogecoin
  | litecoin
  deriving DecidableEq, Repr

def AlgorithmType.toU8 : AlgorithmType → UInt8
  | ckb => 0
  | ethereum => 1
  | eos => 2
  | tron => 3
  | bitcoin => 4
  | dogecoin => 5
  | litecoin => 10

/-- A `dyn Auth`. -/
structure Auth where
  getPubKeyHash : Bytes
  getAlgorithmType : UInt8
  convertMessage : Bytes → Bytes
  sign : Bytes → Bytes

variable {Pubkey : Type} (c : Crates Pubkey)

/-! ## Ckb -/

/-- `Privkey::sign_recoverable`, serialized. -/
def signRecoverable (privkey : c.Privkey) (msg : Bytes) : Bytes :=
  let (rid, sign) := c.signEcdsaRecoverable privkey msg
  sign.take 64 ++ [rid]

structure CKbAuth where
  privkey : c.Privkey

namespace CKbAuth

def getCkbPubKeyHash (privkey : c.Privkey) : Bytes :=
  (c.blake2b256 (c.serialize (c.pubkey privkey))).take 20

def ckbSign (msg : Bytes) (privkey : c.Privkey) : Bytes := signRecoverable c privkey msg

def auth (self : CKbAuth c) : Auth where
  getPubKeyHash := getCkbPubKeyHash c self.privkey
  getAlgorithmType := AlgorithmType.ckb.toU8
  convertMessage message := message
  sign msg := ckbSign c msg self.privkey

end CKbAuth

/-! ## Ethereum, Eos, Tron -/

/-- The fields of the three structures, as `generate_keypair` fills them. -/
structure Keypair where
  privkey : c.Privkey
  pubkey : Pubkey
  pubkey_eq : pubkey = c.pubkey privkey

structure EthereumAuth extends Keypair c

namespace EthereumAuth

def getEthPubKeyHash (pubkey : Pubkey) : Bytes :=
  (c.keccak256 ((c.serializeUncompressed pubkey).drop 1)).drop 12

def ethSign (msg : Bytes) (privkey : c.Privkey) : Bytes :=
  let (rid, sign) := c.signEcdsaRecoverable privkey msg
  sign.take 64 ++ [rid]

def auth (self : EthereumAuth c) : Auth where
  getPubKeyHash := getEthPubKeyHash c self.pubkey
  getAlgorithmType := AlgorithmType.ethereum.toU8
  convertMessage message :=
    let ethPrefix := 0x19 :: ascii "Ethereum Signed Message:\n32"
    c.keccak256 (ethPrefix ++ message)
  sign msg := ethSign c msg self.privkey

end EthereumAuth

structure EosAuth extends Keypair c

def EosAuth.auth (self : EosAuth c) : Auth where
  getPubKeyHash := EthereumAuth.getEthPubKeyHash c self.pubkey
  getAlgorithmType := AlgorithmType.eos.toU8
  convertMessage message := c.sha256 message
  sign msg := EthereumAuth.ethSign c msg self.privkey

structure TronAuth extends Keypair c

def TronAuth.auth (self : TronAuth c) : Auth where
  getPubKeyHash := EthereumAuth.getEthPubKeyHash c self.pubkey
  getAlgorithmType := AlgorithmType.tron.toU8
  convertMessage message :=
    let ethPrefix := 0x19 :: ascii "TRON Signed Message:\n32"
    c.keccak256 (ethPrefix ++ message)
  sign msg := EthereumAuth.ethSign c msg self.privkey

/-! ## Bitcoin, Dogecoin, Litecoin -/

/-- The double hash that the three `convert_message` functions take of their
own magic and the message in hex. -/
def convertWithMagic (messageMagic message : Bytes) : Bytes :=
  let temp2 := messageMagic ++ hexEncode message
  c.sha256 (c.sha256 temp2)

structure BitcoinAuth where
  privkey : c.Privkey
  compress : Bool

namespace BitcoinAuth

def getBtcPubKeyHash (privkey : c.Privkey) (compress : Bool) : Bytes :=
  let pubKey := c.pubkey privkey
  let pubKeyVec := if compress then c.serialize pubKey else 4 :: c.asBytes pubKey
  c.ripemd160 (c.sha256 pubKeyVec)

def btcConvertMessage (message : Bytes) : Bytes :=
  convertWithMagic c (0x18 :: ascii "Bitcoin Signed Message:\n" ++ [0x40]) message

def btcSign (msg : Bytes) (privkey : c.Privkey) (compress : Bool) : Bytes :=
  let sign := signRecoverable c privkey msg
  let recid := sign.getD 64 0
  let mark := if compress then recid + 31 else recid + 27
  mark :: sign.take 64

def auth (self : BitcoinAuth c) : Auth where
  getPubKeyHash := getBtcPubKeyHash c self.privkey self.compress
  getAlgorithmType := AlgorithmType.bitcoin.toU8
  convertMessage := btcConvertMessage c
  sign msg := btcSign c msg self.privkey self.compress

end BitcoinAuth

structure DogecoinAuth where
  privkey : c.Privkey
  compress : Bool

def DogecoinAuth.auth (self : DogecoinAuth c) : Auth where
  getPubKeyHash := BitcoinAuth.getBtcPubKeyHash c self.privkey self.compress
  getAlgorithmType := AlgorithmType.dogecoin.toU8
  convertMessage := convertWithMagic c (0x19 :: ascii "Dogecoin Signed Message:\n" ++ [0x40])
  sign msg := BitcoinAuth.btcSign c msg self.privkey self.compress

/-- A daemon is only asked by what `new_official` builds, with a compressed key. -/
structure LitecoinAuth where
  official : Bool
  sk : c.Privkey
  compress : Bool
  official_compress : official = true → compress = true

namespace LitecoinAuth

def new (sk : c.Privkey) : LitecoinAuth c := ⟨false, sk, true, fun _ ↦ rfl⟩

def newOfficial (sk : c.Privkey) (official : Bool) : LitecoinAuth c :=
  { LitecoinAuth.new c sk with official, official_compress := fun _ ↦ rfl }

/-- What is hashed and signed when no daemon does it. -/
def convertLitecoin (message : Bytes) : Bytes :=
  convertWithMagic c (0x19 :: ascii "Litecoin Signed Message:\n" ++ [0x40]) message

def auth (self : LitecoinAuth c) : Auth where
  getPubKeyHash := BitcoinAuth.getBtcPubKeyHash c self.sk self.compress
  getAlgorithmType := AlgorithmType.litecoin.toU8
  convertMessage message := if self.official then message else convertLitecoin c message
  sign msg :=
    if self.official then c.litecoinSignmessage self.sk (hexEncode msg)
    else BitcoinAuth.btcSign c msg self.sk self.compress

end LitecoinAuth

/-- The signers of the ECDSA chains. -/
inductive EcdsaAuth where
  | ckb (self : CKbAuth c)
  | ethereum (self : EthereumAuth c)
  | eos (self : EosAuth c)
  | tron (self : TronAuth c)
  | bitcoin (self : BitcoinAuth c)
  | dogecoin (self : DogecoinAuth c)
  | litecoin (self : LitecoinAuth c)

namespace EcdsaAuth

variable {c}

def auth : EcdsaAuth c → Auth
  | ckb self => self.auth
  | ethereum self => self.auth
  | eos self => self.auth
  | tron self => self.auth
  | bitcoin self => self.auth
  | dogecoin self => self.auth
  | litecoin self => self.auth

def privkey : EcdsaAuth c → c.Privkey
  | ckb self => self.privkey
  | ethereum self => self.privkey
  | eos self => self.privkey
  | tron self => self.privkey
  | bitcoin self => self.privkey
  | dogecoin self => self.privkey
  | litecoin self => self.sk

end EcdsaAuth

end CkbAuth.Signer
