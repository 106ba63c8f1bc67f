import CkbAuth.Lib.MemProg
import CkbAuth.Lib.LowestSlot
import CkbAuth.Lib.Cbor
import CkbAuth.Lib.Base128
import CkbAuth.Lib.Sponge
import CkbAuth.Lib.InPlace
import CkbAuth.Lib.KeccakF
import CkbAuth.Lib.Framing
import CkbAuth.Lib.OffsetTable
import CkbAuth.Lib.FlatMem
import CkbAuth.Lib.Chain
import CkbAuth.Env
import CkbAuth.LittleEndian
import CkbAuth.Ecdsa
import CkbAuth.KnownAnswers
import CkbAuth.EcdsaSpec
import CkbAuth.Convert
import CkbAuth.Monero
import CkbAuth.Solana
import CkbAuth.Multisig
import CkbAuth.Nanocbor
import CkbAuth.Cardano
import CkbAuth.Auth
import CkbAuth.MultisigSpec
import CkbAuth.MultisigReads
import CkbAuth.SolanaVarint
import CkbAuth.SolanaSpec
import CkbAuth.SolanaReads
import CkbAuth.SolanaWrap
import CkbAuth.MoneroSpec
import CkbAuth.AuthSpec
import CkbAuth.Hex
import CkbAuth.Signer
import CkbAuth.SignerSpec
import CkbAuth.Spawn
import CkbAuth.DlLoader
import CkbAuth.ExitCodes
import CkbAuth.SpawnSpec
import CkbAuth.SpawnArgs
import CkbAuth.NanocborSpec
import CkbAuth.CardanoSpec
import CkbAuth.CardanoSigned
import CkbAuth.CardanoCopies
import CkbAuth.NanocborLoops
import CkbAuth.CardanoEnds
import CkbAuth.NanocborItems
import CkbAuth.CardanoComplete
import CkbAuth.VerifySpec
import CkbAuth.HandsBack
import CkbAuth.SpawnAgrees
import CkbAuth.Sighash
import CkbAuth.SighashSpec
import CkbAuth.Demo
import CkbAuth.DemosAgree
import CkbAuth.WitnessLock
import CkbAuth.MoneroStream
import CkbAuth.HexStores
import CkbAuth.Keccak
import CkbAuth.KeccakSteps
import CkbAuth.KeccakSpec
import CkbAuth.SighashBinding
import CkbAuth.Molecule
import CkbAuth.MoleculeSpec
import CkbAuth.MoleculeFields
import CkbAuth.SignTx
import CkbAuth.SignTxSpec
import CkbAuth.SignedLock
import CkbAuth.SpawnTx
import CkbAuth.Identity
import CkbAuth.MultisigSigner
import CkbAuth.Relocation
import CkbAuth.RelocationSpec
import CkbAuth.Authorises
import CkbAuth.DemoUnlocks
import CkbAuth.OwnerChain
import CkbAuth.RsDemoUnlocks
