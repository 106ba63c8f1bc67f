import CkbAuth.DlLoader
import CkbAuth.Sighash

/-!
# The two demos

`main` of `auth_demo.c`, and `main` of the Rust demo with its own
`generate_sighash_all`, up to the call of `ckb_auth`.  The arguments of the
script are what the molecule readers find in it.
-/

namespace CkbAuth

open CRun

structure AuthCall where
  algorithmId : UInt8
  content : Bytes
  codeHash : Bytes
  hashType : UInt8
  entryCategory : UInt8
  signature : Bytes
  message : Bytes
  deriving DecidableEq, Repr

variable (env : Env) (tx : Transaction) (fuel : ℕ) (args : Bytes)

/-! ## C -/

/-- The bytes of a segment.  Reading outside of the buffer is a fault. -/
def Seg.read (seg : Seg) (temp : Bytes) : Outcome Bytes :=
  if seg.ptr + seg.size ≤ temp.length then .ret ((temp.drop seg.ptr).take seg.size) else .fault

/-- `main` of `auth_demo.c`, with the code of `ckb_auth` still to come. -/
def Demo.main (stale : Bytes) : Outcome AuthCall :=
  if args.length ≠ 21 + 32 + 1 + 1 then .fail ckbInvalidData
  else
    match ckbLoadWitness tx stale maxWitnessSize 0 0 .groupInput with
    | .error _ => .fail ckbInvalidData
    | .ok (temp, witnessLen) =>
        match extractWitnessLock temp witnessLen with
        | .error _ => .fail ckbInvalidData
        | .ok lockBytesSeg =>
            ((generateSighashAll tx fuel stale env 32).mapFail fun _ ↦ ckbInvalidData).bind
              fun msg32 ↦
            (lockBytesSeg.read temp).bind fun signature ↦
            .ret {
              algorithmId := args.getD 0 0
              content := (args.drop 1).take 20
              codeHash := (args.drop 21).take 32
              hashType := args.getD (21 + 32) 0
              entryCategory := args.getD (21 + 32 + 1) 0
              signature
              message := msg32 }

/-! ## Rust -/

namespace Rs

/-- `AuthAlgorithmIdType::try_from`; `transmute` gives the variant with this number. -/
def AuthAlgorithmIdType.tryFrom (value : UInt8) : Except CkbAuthError AuthAlgorithmIdType :=
  if (AuthAlgorithmIdType.ckb.toU8 ≤ value ∧ value ≤ AuthAlgorithmIdType.iso97962.toU8) ∨
      value = AuthAlgorithmIdType.ownerLock.toU8 then
    match value with
    | 0 => .ok .ckb
    | 1 => .ok .ethereum
    | 2 => .ok .eos
    | 3 => .ok .tron
    | 4 => .ok .bitcoin
    | 5 => .ok .dogecoin
    | 6 => .ok .ckbMultisig
    | 7 => .ok .schnorr
    | 8 => .ok .rsa
    | 9 => .ok .iso97962
    | _ => .ok .ownerLock
  else .error .unknowAlgorithmID

def EntryCategoryType.toU8 : EntryCategoryType → UInt8
  | dynamicLinking => 1
  | spawn => 2

/-- `EntryCategoryType::try_from` -/
def EntryCategoryType.tryFrom (value : UInt8) : Except CkbAuthError EntryCategoryType :=
  match value with
  | 1 => .ok .dynamicLinking
  | 2 => .ok .spawn
  | _ => .error .encodeArgs

end Rs

namespace RsDemo

open Rs (ScriptHashType AuthAlgorithmIdType EntryCategoryType CkbAuthError)

/-- `ckb_std::error::SysError` -/
inductive SysError where
  | indexOutOfBound
  | itemMissing
  | lengthNotEnough (len : ℕ)
  | encoding
  | unknown (code : ℕ)
  deriving DecidableEq, Repr

/-- The discriminants of `Error`, which the program exits with. -/
@[simp] def errorIndexOutOfBound : ℤ := 1
@[simp] def errorItemMissing : ℤ := 2
@[simp] def errorLengthNotEnough : ℤ := 3
@[simp] def errorEncoding : ℤ := 4
@[simp] def errorArgsError : ℤ := 5
@[simp] def errorWitnessError : ℤ := 6
@[simp] def errorGeneratedMsgError : ℤ := 7

/-- A panic ends the program with -1. -/
def panic {α : Type} : Outcome α := .exit (-1)

/-- `From<SysError> for Error` -/
def SysError.into {α : Type} : SysError → Outcome α
  | indexOutOfBound => .fail errorIndexOutOfBound
  | itemMissing => .fail errorItemMissing
  | lengthNotEnough _ => .fail errorLengthNotEnough
  | encoding => .fail errorEncoding
  | unknown _ => panic

/-- `ckb_std::syscalls::load_witness`: the buffer and the length of what is loaded, which
has to fit. -/
def loadWitness (temp : Bytes) (offset index : ℕ) (source : Source) :
    Except SysError (Bytes × ℕ) :=
  match tx.witness source index with
  | none => .error .indexOutOfBound
  | some w =>
      if temp.length < w.length - offset then .error (.lengthNotEnough (w.length - offset))
      else .ok (overwrite temp (w.drop offset), w.length - offset)

/-- `load_input_by_field(.., Source::Input, InputField::Since)` -/
def loadInputSince (index : ℕ) : Except SysError ℕ :=
  if index < tx.inputs then .ok 8 else .error .indexOutOfBound

/-- The `while` loop of `load_and_hash_witness`. -/
def hashBatches (start index : ℕ) (source : Source) (len : ℕ) :
    (n : ℕ) → (temp : Bytes) → (offset : ℕ) → (ctx : Bytes) →
      Outcome (Except SysError Unit × Bytes)
  | 0, _, _, _ => .running
  | n + 1, temp, offset, ctx =>
      if offset < len then
        match loadWitness tx temp (start + offset) index source with
        | .error err => .ret (.error err, ctx)
        | .ok (temp, currentLen) =>
            let currentRead := if oneBatchSize < currentLen then oneBatchSize else currentLen
            hashBatches start index source len n temp (offset + currentRead)
              (ctx ++ temp.take currentRead)
      else .ret (.ok (), ctx)

def loadAndHashWitness (ctx : Bytes) (start index : ℕ) (source : Source) (hashLength : Bool) :
    Outcome (Except SysError Unit × Bytes) :=
  match loadWitness tx (List.replicate oneBatchSize 0) start index source with
  | .error err => .ret (.error err, ctx)
  | .ok (temp, len) =>
      let ctx := if hashLength then ctx ++ leBytes 8 len else ctx
      let offset := if oneBatchSize < len then oneBatchSize else len
      hashBatches tx start index source len fuel temp offset (ctx ++ temp.take offset)

/-- A `loop` of `generate_sighash_all`, from `i` on. -/
def hashWitnesses (source : Source) : (n i : ℕ) → (ctx : Bytes) → Outcome Bytes
  | 0, _, _ => .running
  | n + 1, i, ctx =>
      (loadAndHashWitness tx fuel ctx 0 i source true).bind fun (sysret, ctx) ↦
        match sysret with
        | .error .indexOutOfBound => .ret ctx
        | .error err => err.into
        | .ok () => hashWitnesses source n (i + 1) ctx

/-- `calculate_inputs_len` from `i` on -/
def calculateInputsLen : (n i : ℕ) → Outcome ℕ
  | 0, _ => .running
  | n + 1, i =>
      match loadInputSince tx i with
      | .error .indexOutOfBound => .ret i
      | .error err => err.into
      | .ok _ => calculateInputsLen n (i + 1)

def generateSighashAll : Outcome Bytes :=
  match loadWitness tx (List.replicate maxWitnessSize 0) 0 0 .groupInput with
  | .error err => err.into
  | .ok (temp, readLen) =>
      let witnessLen := readLen
      let readLen := if maxWitnessSize < readLen then maxWitnessSize else readLen
      if readLen < 20 then .fail errorEncoding
      else if readLen < 20 + lockLength temp then .fail errorEncoding
      else
        -- a slice out of range panics
        (if 20 + lockLength temp ≤ temp.length then .ret (temp.take 20 ++
          List.replicate (lockLength temp) 0 ++ temp.drop (20 + lockLength temp))
        else panic).bind fun temp ↦
        let ctx := tx.hash ++ leBytes 8 witnessLen ++ temp.take readLen
        (if readLen < witnessLen then
          (loadAndHashWitness tx fuel ctx readLen 0 .groupInput false).bind fun (res, ctx) ↦
            match res with
            | .error err => err.into
            | .ok () => .ret ctx
        else .ret ctx).bind fun ctx ↦
        (hashWitnesses tx fuel .groupInput fuel 1 ctx).bind fun ctx ↦
        (calculateInputsLen tx fuel 0).bind fun i ↦
        (hashWitnesses tx fuel .input fuel i ctx).bind fun ctx ↦
        .ret (env.hash.blake2b ctx)

/-- `match args[53]` -/
def hashTypeOf (value : UInt8) : Option ScriptHashType :=
  match value with
  | 0 => some .data
  | 1 => some .type
  | 2 => some .data1
  | _ => none

/-- `main` of `entry.rs` up to `ckb_auth`.  `verify` is the check of
`WitnessArgs::from_slice`. -/
def main (verify : Bytes → Bool) : Outcome AuthCall :=
  ((generateSighashAll env tx fuel).mapFail fun _ ↦ errorGeneratedMsgError).bind fun message ↦
  if args.length ≠ 55 then .fail errorArgsError
  else
    match hashTypeOf (args.getD 53 0) with
    | none => .fail errorArgsError
    | some hashType =>
        match tx.witness .groupInput 0 with
        | none => .fail errorWitnessError
        | some witnessArgs =>
            if verify witnessArgs ≠ true then .fail errorWitnessError
            else if witnessArgs.length < 20 then panic
            else
              match AuthAlgorithmIdType.tryFrom (args.getD 0 0) with
              | .error _ => .fail errorEncoding
              | .ok algorithmId =>
                  match EntryCategoryType.tryFrom (args.getD 54 0) with
                  | .error _ => panic
                  | .ok entryCategory =>
                      .ret {
                        algorithmId := algorithmId.toU8
                        content := (args.drop 1).take 20
                        codeHash := (args.drop 21).take 32
                        hashType := hashType.toU8
                        entryCategory := entryCategory.toU8
                        signature := witnessArgs.drop 20
                        message }

end RsDemo

end CkbAuth
