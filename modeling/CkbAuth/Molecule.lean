import CkbAuth.LittleEndian
import CkbAuth.Lib.OffsetTable

/-!
# The molecule code of the tests

`combine_lock_mol.rs`: readers that verify a slice, entities that look fields up in one, and
builders that write one.  The numbers and the types of the `blockchain` module come from a crate
and are parameters.
-/

namespace CkbAuth.Molecule

open CkbAuth

/-! ## What molecule provides -/

@[simp] def numberSize : ℕ := 4

inductive VerificationError where
  | totalSizeNotMatch (name : String) (expected actual : ℕ)
  | headerIsBroken (name : String) (expected actual : ℕ)
  | fieldCountNotMatch (name : String) (expected actual : ℕ)
  | offsetsNotMatch (name : String)
  deriving DecidableEq, Repr

/-- Why there is no result: a panic, or an error that is returned. -/
inductive Stop where
  | panic
  | error (e : VerificationError)
  deriving DecidableEq, Repr

abbrev Result (α : Type) := Except Stop α

/-- `if c { return ve!(..); }` -/
def refuse (c : Prop) [Decidable c] (e : VerificationError) : Result Unit :=
  if c then .error (.error e) else .ok ()

/-- The functions of the molecule crate, and the slice of the `Bytes` that is built of bytes.  A
`Number` is a `u32`, lowest byte first. -/
class MoleculeCrate where
  unpackNumber : Bytes → Result ℕ
  packNumber : UInt32 → Bytes
  bytesSlice : Bytes → Bytes
  unpackNumber_ok : ∀ {slice : Bytes}, numberSize ≤ slice.length →
    unpackNumber slice = .ok (leToNat (slice.take numberSize))
  packNumber_eq : ∀ n, packNumber n = leBytes numberSize n.toNat
  bytesSlice_eq : ∀ content, bytesSlice content = packNumber (.ofNat content.length) ++ content

export MoleculeCrate (unpackNumber packNumber bytesSlice)

/-- `&slice[start..stop]` -/
def index (slice : Bytes) (start stop : ℕ) : Result Bytes :=
  if start ≤ stop ∧ stop ≤ slice.length then .ok ((slice.drop start).take (stop - start))
  else .error .panic

/-- `&slice[start..]` -/
def indexFrom (slice : Bytes) (start : ℕ) : Result Bytes :=
  if start ≤ slice.length then .ok (slice.drop start) else .error .panic

/-- `chunks_exact(NUMBER_SIZE)`, each of them unpacked. -/
def numbers [MoleculeCrate] : Bytes → Result (List ℕ)
  | a :: b :: c :: d :: rest => do return (← unpackNumber [a, b, c, d]) :: (← numbers rest)
  | _ => .ok []

/-- `offsets.windows(2).any(|i| i[0] > i[1])` -/
def descends : List ℕ → Bool
  | i :: j :: offsets => j < i || descends (j :: offsets)
  | _ => false

/-- A `verify` of a `Reader`, of a slice and of `compatible`. -/
abbrev Verify := Bytes → Bool → Result Unit

/-! ## Readers -/

/-- The `verify` of tables and of vectors: whether a slice that is its size alone is one,
the error of a slice without an offset, what is asked of the number of parts, and how the
parts between the offsets are verified. -/
def verifyWith [MoleculeCrate] (name : String) (emptyOk : Bool) (short : ℕ → VerificationError)
    (verifyCount : ℕ → Result Unit) (verifyParts : List ℕ → Result Unit) (slice : Bytes) :
    Result Unit := do
  let sliceLen := slice.length
  refuse (sliceLen < numberSize) (.headerIsBroken name numberSize sliceLen)
  let totalSize ← unpackNumber slice
  refuse (sliceLen ≠ totalSize) (.totalSizeNotMatch name totalSize sliceLen)
  if sliceLen = numberSize ∧ emptyOk then .ok () else do
  refuse (sliceLen < numberSize * 2) (short sliceLen)
  let offsetFirst ← unpackNumber (← indexFrom slice numberSize)
  refuse (offsetFirst % numberSize ≠ 0 ∨ offsetFirst < numberSize * 2) (.offsetsNotMatch name)
  refuse (sliceLen < offsetFirst) (.headerIsBroken name offsetFirst sliceLen)
  verifyCount (offsetFirst / numberSize - 1)
  let offsets := (← numbers (← index slice numberSize offsetFirst)) ++ [totalSize]
  refuse (descends offsets) (.offsetsNotMatch name)
  verifyParts offsets

/-! ## Tables -/

/-- The verification of the fields, each between two offsets. -/
def verifyFields (slice : Bytes) (compatible : Bool) : List Verify → List ℕ → Result Unit
  | [], _ => .ok ()
  | verify :: fields, start :: stop :: offsets => do
      verify (← index slice start stop) compatible
      verifyFields slice compatible fields (stop :: offsets)
  | _ :: _, _ => .error .panic

/-- What a table with `fieldCount` fields asks of the number of fields it finds. -/
def verifyFieldCount (name : String) (fieldCount : ℕ) (compatible : Bool) (found : ℕ) :
    Result Unit := do
  refuse (found < fieldCount) (.fieldCountNotMatch name fieldCount found)
  refuse (compatible = false ∧ fieldCount < found) (.fieldCountNotMatch name fieldCount found)

/-- The `verify` of a table with these fields. -/
def verifyTable [MoleculeCrate] (name : String) (fields : List Verify) : Verify :=
  fun slice compatible ↦
  verifyWith name (fields.length = 0) (.headerIsBroken name (numberSize * 2))
    (verifyFieldCount name fields.length compatible) (verifyFields slice compatible fields) slice

/-- `field_count()`; the subtraction is checked. -/
def fieldCountOf [MoleculeCrate] (slice : Bytes) : Result ℕ := do
  let totalSize ← unpackNumber slice
  if totalSize = numberSize then .ok 0 else do
  let offsetFirst ← unpackNumber (← indexFrom slice numberSize)
  if offsetFirst / 4 = 0 then .error .panic else .ok (offsetFirst / 4 - 1)

/-- The accessor of the field `i` of `fieldCount` fields.  Only the last one looks for
further fields. -/
def field [MoleculeCrate] (fieldCount i : ℕ) (slice : Bytes) : Result Bytes := do
  let start ← unpackNumber (← indexFrom slice (numberSize * (i + 1)))
  let hasExtraFields ←
    if i + 1 = fieldCount then (fieldCountOf slice).map fun count ↦ decide (fieldCount ≠ count)
    else .ok true
  if hasExtraFields then do
    let stop ← unpackNumber (← indexFrom slice (numberSize * (i + 2)))
    index slice start stop
  else indexFrom slice start

/-- The loop over the parts: their offsets, and the size behind the last one. -/
def layout (parts : List Bytes) : List ℕ × ℕ :=
  parts.foldl (fun (offsets, totalSize) part ↦ (offsets ++ [totalSize], totalSize + part.length))
    ([], numberSize * (parts.length + 1))

def tableSize (parts : List Bytes) : ℕ := (layout parts).2

/-- The `write` of a table with these fields. -/
def writeTable [MoleculeCrate] (parts : List Bytes) : Bytes :=
  packNumber (.ofNat (tableSize parts)) ++
    (layout parts).1.flatMap (fun offset ↦ packNumber (.ofNat offset)) ++ parts.flatten

/-! ## Vectors -/

/-- The loop over the items, each between two offsets. -/
def verifyItems (verify : Verify) (slice : Bytes) (compatible : Bool) : List ℕ → Result Unit
  | start :: stop :: offsets => do
      verify (← index slice start stop) compatible
      verifyItems verify slice compatible (stop :: offsets)
  | _ => .ok ()

/-- The `verify` of a vector, whose items are verified by `item`. -/
def verifyVec [MoleculeCrate] (name : String) (item : Verify) : Verify := fun slice compatible ↦
  verifyWith name true (.totalSizeNotMatch name (numberSize * 2)) (fun _ ↦ .ok ())
    (verifyItems item slice compatible) slice

/-- `get(idx)` with `get_unchecked`; `item_count` is the `field_count` of a table. -/
def getItem [MoleculeCrate] (idx : ℕ) (slice : Bytes) : Result (Option Bytes) := do
  let len ← fieldCountOf slice
  if len ≤ idx then .ok none else do
  let start ← unpackNumber (← indexFrom slice (numberSize * (1 + idx)))
  if idx = len - 1 then (indexFrom slice start).map some else do
  let stop ← unpackNumber (← indexFrom slice (numberSize * (1 + idx) + numberSize))
  (index slice start stop).map some

/-- The `write` of a vector. -/
def writeVec [MoleculeCrate] (items : List Bytes) : Bytes :=
  if items.length = 0 then packNumber (.ofNat numberSize) else writeTable items

/-! ## The types of the combine lock -/

/-- `Byte32Reader`, `ByteReader` and `BytesReader`, an array, a byte and a vector of bytes. -/
structure Blockchain [MoleculeCrate] where
  byte32 : Verify
  byte : Verify
  bytes : Verify
  byte32_ok : ∀ slice compatible, byte32 slice compatible = .ok () ↔ slice.length = 32
  byte_ok : ∀ slice compatible, byte slice compatible = .ok () ↔ slice.length = 1
  bytes_ok : ∀ slice compatible, bytes slice compatible = .ok () ↔
    ∃ content : Bytes, content.length < 2 ^ 32 ∧ bytesSlice content = slice
  byte32_ne_panic : ∀ slice compatible, byte32 slice compatible ≠ .error .panic
  byte_ne_panic : ∀ slice compatible, byte slice compatible ≠ .error .panic
  bytes_ne_panic : ∀ slice compatible, bytes slice compatible ≠ .error .panic

namespace Uint16Reader

def verify : Verify := fun slice _ ↦
  refuse (slice.length ≠ 2) (.totalSizeNotMatch "Uint16Reader" 2 slice.length)

end Uint16Reader

section Types

variable [MoleculeCrate]

section Readers

variable (b : Blockchain)

def ChildScriptReader.verify : Verify :=
  verifyTable "ChildScriptReader" [b.byte32, b.byte, b.bytes]

def ChildScriptVecReader.verify : Verify :=
  verifyVec "ChildScriptVecReader" (ChildScriptReader.verify b)

def CombineLockWitnessReader.verify : Verify :=
  verifyTable "CombineLockWitnessReader"
    [Uint16Reader.verify, b.bytes, ChildScriptVecReader.verify b]

end Readers

namespace ChildScript

def codeHash : Bytes → Result Bytes := field 3 0
def hashType : Bytes → Result Bytes := field 3 1
def args : Bytes → Result Bytes := field 3 2

/-- `as_builder().build()` -/
def rebuild (slice : Bytes) : Result Bytes := do
  return writeTable [← codeHash slice, ← hashType slice, ← args slice]

end ChildScript

namespace CombineLockWitness

def witnessBaseIndex : Bytes → Result Bytes := field 3 0
def proof : Bytes → Result Bytes := field 3 1
def scripts : Bytes → Result Bytes := field 3 2

/-- `as_builder().build()` -/
def rebuild (slice : Bytes) : Result Bytes := do
  return writeTable [← witnessBaseIndex slice, ← proof slice, ← scripts slice]

end CombineLockWitness

/-! ## Builders -/

/-- The size that is written is a `Number`. -/
structure ChildScriptBuilder where
  codeHash : Bytes
  hashType : UInt8
  args : Bytes
  length_codeHash : codeHash.length = 32
  size_lt : tableSize [codeHash, [hashType], bytesSlice args] < 2 ^ 32

namespace ChildScriptBuilder

def slices (s : ChildScriptBuilder) : List Bytes := [s.codeHash, [s.hashType], bytesSlice s.args]

def build (s : ChildScriptBuilder) : Bytes := writeTable s.slices

end ChildScriptBuilder

/-- The `ChildScriptVecBuilder` in it has a size of its own. -/
structure CombineLockWitnessBuilder where
  witnessBaseIndex : UInt8 × UInt8
  proof : Bytes
  scripts : List ChildScriptBuilder
  scripts_size_lt : tableSize (scripts.map ChildScriptBuilder.build) < 2 ^ 32
  size_lt : tableSize [[witnessBaseIndex.1, witnessBaseIndex.2], bytesSlice proof,
    writeVec (scripts.map ChildScriptBuilder.build)] < 2 ^ 32

namespace CombineLockWitnessBuilder

def slices (w : CombineLockWitnessBuilder) : List Bytes :=
  [[w.witnessBaseIndex.1, w.witnessBaseIndex.2], bytesSlice w.proof,
    writeVec (w.scripts.map ChildScriptBuilder.build)]

def build (w : CombineLockWitnessBuilder) : Bytes := writeTable w.slices

end CombineLockWitnessBuilder

end Types

end CkbAuth.Molecule
