import CkbAuth.Auth
import CkbAuth.Hex

/-!
# Calling the auth program

`main` of `auth.c` behind the relocation of the binary, and `ckb_auth` of the C
and of the Rust side, which run the program as a child process or call
`ckb_auth_validate` in a library they have loaded.
-/

namespace CkbAuth

open CRun

/-! ## main -/

/-- The memory of the child once `main` has filled its two arrays.  What lies
around them is whatever the stack holds. -/
structure ChildMemory where
  mem : (signature message : Bytes) → Mem Region
  holds_signature : ∀ {signature message}, signature.length ≤ 1024 * 64 → message.length = 32 →
    Prog.Ptr.Holds (mem signature message) ⟨.signature, 0⟩ signature
  holds_message : ∀ {signature message}, signature.length ≤ 1024 * 64 → message.length = 32 →
    Prog.Ptr.Holds (mem signature message) ⟨.message, 0⟩ message

/-- The four arguments, decoded. -/
structure MainArgs where
  algorithmId : UInt8
  signature : Bytes
  message : Bytes
  pubkeyHash : Bytes

/-- `CHECK2(!ckb_hex2bin(..) && length == size, code)`; a signature has no size
of its own. -/
def hexArg (hex : CString) (binLen : ℕ) (size : Option ℕ) (code : ℤ) : Except ℤ Bytes :=
  match ckbHex2bin hex binLen with
  | .error _ => .error code
  | .ok bin => if size.all fun n ↦ bin.length = n then .ok bin else .error code

/-- `strlen` into a `uint32_t` -/
def strlen32 (s : CString) : ℕ := s.bytes.length % 2 ^ 32

def parseArgv : List CString → Except ℤ MainArgs
  | [argvAlgorithmId, argvSignature, argvMessage, argvPubkeyHash] =>
      let signatureLen := strlen32 argvSignature
      let messageLen := strlen32 argvMessage
      let pubkeyHashLen := strlen32 argvPubkeyHash
      if strlen32 argvAlgorithmId ≠ 2 ∨ signatureLen % 2 ≠ 0 ∨ messageLen ≠ blake2bBlockSize * 2 ∨
          pubkeyHashLen ≠ blake160Size * 2 then .error errorSpawnInvalidLength
      else if 1024 * 64 * 2 < signatureLen then .error errorSpawnSignTooLong
      else do
        let algorithmId ← hexArg argvAlgorithmId 1 (some 1) errorSpawnInvalidAlgorithmId
        let signature ← hexArg argvSignature signatureLen none errorSpawnInvalidSig
        let message ← hexArg argvMessage messageLen (some blake2bBlockSize) errorSpawnInvalidMsg
        let pubkeyHash ← hexArg argvPubkeyHash pubkeyHashLen (some blake160Size)
          errorSpawnInvalidPubkey
        pure ⟨algorithmId.headD 0, signature, message, pubkeyHash⟩
  | _ => .error (-1)

variable (env : Env) (fuel : ℕ) (child : ChildMemory)

def main (argv : List CString) : Outcome Unit :=
  match parseArgv argv with
  | .error err => .fail err
  | .ok args =>
      (ckbAuthValidate env fuel args.algorithmId (some ⟨.signature, 0⟩) args.signature.length
        (some ⟨.message, 0⟩) args.message.length args.pubkeyHash
        args.pubkeyHash.length).outcome (child.mem args.signature args.message)

/-- The exit code a parent sees: the low 8 bits as an `int8_t`. -/
def exitCode : Outcome Unit → Outcome ℤ
  | .ret _ => .ret 0
  | .fail code => .ret (code.bmod 256)
  | .exit code => .ret (code.bmod 256)
  | .fault => .fault
  | .running => .running

/-! ## Programs -/

/-- What a parent can use of a binary: a function that it links, or `main` in a child. -/
structure Program where
  ckbAuthValidate : Env → (fuel : ℕ) → (authAlgorithmId : UInt8) →
    (signature : Option (Prog.Ptr Region)) → (signatureSize : ℕ) →
    (message : Option (Prog.Ptr Region)) → (messageSize : ℕ) → (pubkeyHash : Bytes) →
    (pubkeyHashSize : ℕ) → Call Unit
  main : Env → (fuel : ℕ) → ChildMemory → (argv : List CString) → Outcome Unit

/-- `auth.c` -/
def authProgram : Program := ⟨ckbAuthValidate, main⟩

/-! ## ckb_auth in C -/

structure CkbAuthType where
  algorithmId : UInt8
  content : Bytes
  content_length : content.length = 20

structure CkbEntryType where
  codeHash : Bytes
  hashType : UInt8
  entryCategory : UInt8

@[simp] def entryCategoryDynamicLinking : UInt8 := 1
@[simp] def entryCategorySpawn : UInt8 := 2

/-- The binary that an entry names, and what loading and starting it gives. -/
structure Loader where
  program : (codeHash : Bytes) → (hashType : UInt8) → Program
  dlopen2 : (codeHash : Bytes) → (hashType : UInt8) → ℤ
  /-- `ckb_auth_validate` is among its symbols -/
  dlsym : (codeHash : Bytes) → (hashType : UInt8) → Bool
  spawn : (codeHash : Bytes) → (hashType : UInt8) → ℤ

/-- The entry names the auth program. -/
def Loader.NamesAuth (loader : Loader) (codeHash : Bytes) (hashType : UInt8) : Prop :=
  loader.program codeHash hashType = authProgram

variable (loader : Loader)

/-- `ckb_bin2hex` into a local array, as the string that is passed on. -/
def hexString (bin : Bytes) : Call CString := do
  let hex ← checkOk (ckbBin2hex bin bin.length (bin.length * 2 + 1) true) ckbInvalidData
  pure (CString.ofBuffer hex)

def ckbAuth (entry : CkbEntryType) (id : CkbAuthType) (signature : Prog.Ptr Region)
    (signatureSize : ℕ) (message32 : Prog.Ptr Region) : Call Unit :=
  if entry.entryCategory = entryCategoryDynamicLinking then do
    let err := loader.dlopen2 entry.codeHash entry.hashType
    Prog.check (err = 0) err
    Prog.check (loader.dlsym entry.codeHash entry.hashType = true) ckbInvalidData
    (loader.program entry.codeHash entry.hashType).ckbAuthValidate env fuel id.algorithmId
      (some signature) signatureSize (some message32) 32 id.content 20
  else if entry.entryCategory = entryCategorySpawn then do
    Prog.check (¬1024 * 8 < signatureSize) ckbInvalidData
    let algorithmIdStr ← hexString [id.algorithmId]
    let signature ← Prog.bytes signature signatureSize
    let signatureStr ← hexString signature
    let message ← Prog.bytes message32 32
    let messageStr ← hexString message
    let pubkeyHashStr ← hexString id.content
    let argv := [algorithmIdStr, signatureStr, messageStr, pubkeyHashStr]
    let err := loader.spawn entry.codeHash entry.hashType
    Prog.check (err = 0) err
    let exitCode ← Prog.done (exitCode
      ((loader.program entry.codeHash entry.hashType).main env fuel child argv))
    Prog.check (exitCode = 0) exitCode
  else Prog.fail ckbInvalidData

/-! ## ckb_auth in Rust -/

namespace Rs

/-- `SysError`, by its number. -/
structure SysError where
  code : ℤ
  deriving DecidableEq, Repr

inductive CkbAuthError where
  | unknowAlgorithmID
  | dynamicLinkingUninit
  | loadDLError
  | loadDLFuncError
  | runDLError
  | execError (err : SysError)
  | encodeArgs
  deriving DecidableEq, Repr

inductive AuthAlgorithmIdType where
  | ckb
  | ethereum
  | eos
  | tron
  | bitcoin
  | dogecoin
  | ckbMultisig
  | schnorr
  | rsa
  | iso97962
  | ownerLock
  deriving DecidableEq, Repr

def AuthAlgorithmIdType.toU8 : AuthAlgorithmIdType → UInt8
  | ckb => 0
  | ethereum => 1
  | eos => 2
  | tron => 3
  | bitcoin => 4
  | dogecoin => 5
  | ckbMultisig => 6
  | schnorr => 7
  | rsa => 8
  | iso97962 => 9
  | ownerLock => 0xFC

structure CkbAuthType where
  algorithmId : AuthAlgorithmIdType
  pubkeyHash : Bytes
  pubkeyHash_length : pubkeyHash.length = 20

inductive EntryCategoryType where
  | dynamicLinking
  | spawn
  deriving DecidableEq, Repr

structure CkbEntryType where
  codeHash : Bytes
  hashType : UInt8
  entryCategory : EntryCategoryType

/-- `CString::new` -/
def cString (bytes : Bytes) : Except CkbAuthError CString :=
  if h : 0 ∉ bytes then .ok ⟨bytes, h⟩ else .error .encodeArgs

/-- `spawn_cell`: the child's exit code, unless it cannot be started. -/
def spawnCell (codeHash : Bytes) (hashType : UInt8) (args : List CString) :
    Outcome (Except SysError ℤ) :=
  let err := loader.spawn codeHash hashType
  if err = 0 then
    (exitCode ((loader.program codeHash hashType).main env fuel child args)).bind
      fun code ↦ .ret (.ok code)
  else .ret (.error ⟨err⟩)

/-- The arguments that the child is started with. -/
def spawnArgs (id : CkbAuthType) (signature message : Bytes) :
    Except CkbAuthError (List CString) := do
  let algorithmIdStr ← cString (formatUpperHex id.algorithmId.toU8)
  let signatureStr ← cString (hexEncode signature)
  let messageStr ← cString (hexEncode message)
  let pubkeyHashStr ← cString (hexEncode id.pubkeyHash)
  pure [algorithmIdStr, signatureStr, messageStr, pubkeyHashStr]

def ckbAuthSpawn (entry : CkbEntryType) (id : CkbAuthType) (signature : Prog.Ptr Region)
    (signatureLen : ℕ) (message : Prog.Ptr Region) : Call (Except CkbAuthError Unit) := do
  let signature ← Prog.bytes signature signatureLen
  let message ← Prog.bytes message 32
  match spawnArgs id signature message with
  | .error err => pure (.error err)
  | .ok args =>
      match ← Prog.done (spawnCell env fuel child loader entry.codeHash entry.hashType args) with
      | .error err => pure (.error (.execError err))
      | .ok _ => pure (.ok ())

/-- The size is passed on as a `u32`. -/
def ckbAuthDl (entry : CkbEntryType) (id : CkbAuthType) (signature : Prog.Ptr Region)
    (signatureLen : ℕ) (message : Prog.Ptr Region) : Call (Except CkbAuthError Unit) :=
  if loader.dlopen2 entry.codeHash entry.hashType ≠ 0 then pure (.error .loadDLError)
  else if loader.dlsym entry.codeHash entry.hashType ≠ true then pure (.error .loadDLFuncError)
  else do
    let rcCode ← ((loader.program entry.codeHash entry.hashType).ckbAuthValidate env fuel
      id.algorithmId.toU8 (some signature) (signatureLen % 2 ^ 32) (some message) 32
      id.pubkeyHash 20).catchFail
    match rcCode with
    | .ok _ => pure (.ok ())
    | .error _ => pure (.error .runDLError)

def ckbAuth (entry : CkbEntryType) (id : CkbAuthType) (signature : Prog.Ptr Region)
    (signatureLen : ℕ) (message : Prog.Ptr Region) : Call (Except CkbAuthError Unit) :=
  match entry.entryCategory with
  | .dynamicLinking => ckbAuthDl env fuel loader entry id signature signatureLen message
  | .spawn => ckbAuthSpawn env fuel child loader entry id signature signatureLen message

end Rs

end CkbAuth
