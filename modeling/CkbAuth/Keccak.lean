import CkbAuth.LittleEndian
import CkbAuth.Lib.KeccakF

/-!
# The Keccak code

`ckb_keccak256.h`: a context of 25 lanes, a buffer for the leftovers of a block and their
count.  The transformations overwrite the lanes in place, after the tables in `constants`.
-/

namespace CkbAuth.Keccak

open CkbAuth CRun

/-! ## The permutation -/

abbrev Lanes := Vector (BitVec 64) 25

def lane (A : Lanes) (i : ℕ) : BitVec 64 := A.getD i 0

@[simp] def blockSize : ℕ := (1600 - 256 * 2) / 8

def rotl64 (qword : BitVec 64) (n : ℕ) : BitVec 64 := (qword <<< n) ^^^ (qword >>> (64 - n))

def constants : Bytes :=
  [1, 26, 94, 112, 31, 33, 121, 85, 14, 12, 53, 38, 63, 79, 93, 83, 82, 72, 22, 102, 121, 88, 33,
    116,
    -- pi_transform
    1, 6, 9, 22, 14, 20, 2, 12, 13, 19, 23, 15, 4, 24, 21, 8, 16, 5, 3, 18, 17, 11, 7, 10,
    -- rhoTransforms
    1, 62, 28, 27, 36, 44, 6, 55, 20, 3, 10, 43, 25, 39, 41, 45, 15, 21, 8, 18, 2, 61, 56, 14]

@[simp] def typeRoundInfo : ℕ := 0
@[simp] def typePiTransform : ℕ := 24
@[simp] def typeRhoTransform : ℕ := 48

def getConstant (type index : ℕ) : ℕ := (constants.getD (type + index) 0).toNat

/-- Each of the seven low bits of the round's byte stands for a bit of the constant. -/
def getRoundConstant (round : ℕ) : BitVec 64 :=
  let roundInfo := getConstant typeRoundInfo round
  [(6, 63), (5, 31), (4, 15), (3, 7), (2, 3), (1, 1), (0, 0)].foldl
    (fun result bit ↦
      if roundInfo.testBit bit.1 then result ||| (1 : BitVec 64) <<< bit.2 else result) 0

/-- The two arrays of `keccak_theta`. -/
def thetaC (A : Lanes) : List (BitVec 64) :=
  (List.range 5).map fun i ↦ [5, 10, 15, 20].foldl (fun c j ↦ c ^^^ lane A (i + j)) (lane A i)

def thetaD (C : List (BitVec 64)) : List (BitVec 64) :=
  (List.range 5).map fun i ↦ rotl64 (C.getD ((i + 1) % 5) 0) 1 ^^^ C.getD ((i + 4) % 5) 0

def keccakTheta (A : Lanes) : Lanes :=
  let D := thetaD (thetaC A)
  (List.range 5).foldl (fun A i ↦
    [0, 5, 10, 15, 20].foldl (fun A j ↦
      A.setIfInBounds (i + j) (lane A (i + j) ^^^ D.getD i 0)) A) A

/-- The loop of `sha3_permutation` behind `keccak_theta`. -/
def keccakRho (A : Lanes) : Lanes :=
  (List.range' 1 24).foldl (fun A i ↦
    A.setIfInBounds i (rotl64 (lane A i) (getConstant typeRhoTransform (i - 1)))) A

def keccakPi (A : Lanes) : Lanes :=
  let A1 := lane A 1
  let A := (List.range' 1 23).foldl (fun A i ↦
    A.setIfInBounds (getConstant typePiTransform (i - 1))
      (lane A (getConstant typePiTransform i))) A
  A.setIfInBounds 10 A1

/-- One iteration of `keccak_chi`. -/
def chiRow (i : ℕ) (A : Lanes) : Lanes :=
  let A0 := lane A (0 + i)
  let A1 := lane A (1 + i)
  let A := A.setIfInBounds (0 + i) (lane A (0 + i) ^^^ (~~~A1 &&& lane A (2 + i)))
  let A := A.setIfInBounds (1 + i) (lane A (1 + i) ^^^ (~~~lane A (2 + i) &&& lane A (3 + i)))
  let A := A.setIfInBounds (2 + i) (lane A (2 + i) ^^^ (~~~lane A (3 + i) &&& lane A (4 + i)))
  let A := A.setIfInBounds (3 + i) (lane A (3 + i) ^^^ (~~~lane A (4 + i) &&& A0))
  A.setIfInBounds (4 + i) (lane A (4 + i) ^^^ (~~~A0 &&& A1))

def keccakChi (A : Lanes) : Lanes := [0, 5, 10, 15, 20].foldl (fun A i ↦ chiRow i A) A

def sha3Round (state : Lanes) (round : ℕ) : Lanes :=
  let state := keccakChi (keccakPi (keccakRho (keccakTheta state)))
  state.setIfInBounds 0 (lane state 0 ^^^ getRoundConstant round)

def sha3Permutation (state : Lanes) : Lanes := (List.range 24).foldl sha3Round state

/-! ## Contexts -/

/-- `SHA3_CTX`; the buffer is a `uint64_t message[24]`, used as bytes. -/
structure Sha3Ctx where
  hash : Lanes
  message : Bytes
  rest : ℕ

/-- `sha3_max_rate_in_qwords` lanes -/
@[simp] def messageSize : ℕ := 24 * 8

/-- Copying into a local array.  A store outside of it is a fault. -/
def memcpyTo (dst : Bytes) (pos : ℕ) (src : Bytes) : Outcome Bytes :=
  if pos + src.length ≤ dst.length then
    .ret (dst.take pos ++ src ++ dst.drop (pos + src.length))
  else .fault

/-- Reading behind a pointer to an array, the caller's or a local one. -/
def readBytes (src : Bytes) (n : ℕ) : Outcome Bytes :=
  if n ≤ src.length then .ret (src.take n) else .fault

/-- A lane of a block, on a little-endian machine. -/
def blockLane (block : Bytes) (i : ℕ) : BitVec 64 :=
  BitVec.ofNat 64 (leToNat ((block.drop (8 * i)).take 8))

def sha3ProcessBlock (hash : Lanes) (block : Bytes) : Lanes :=
  sha3Permutation ((List.range 17).foldl (fun hash i ↦
    hash.setIfInBounds i (lane hash i ^^^ blockLane block i)) hash)

def keccakInit : Sha3Ctx := ⟨Vector.replicate 25 0, List.replicate messageSize 0, 0⟩

/-- `IS_ALIGNED_64` of an address -/
def isAligned64 (p : ℕ) : Bool := p % 8 = 0

/-- The lanes, the buffer, and what is left of the chunk. -/
structure Blocks where
  hash : Lanes
  message : Bytes
  msg : Bytes

/-- The `while` loop of `keccak_update` over the full blocks at `msg`, an address and the
bytes behind it.  A block that is not aligned goes through the buffer. -/
def updateBlocks (hash : Lanes) (message : Bytes) (addr : ℕ) (msg : Bytes) (size : ℕ) :
    Outcome Blocks :=
  if blockSize ≤ size then
    (readBytes msg blockSize).bind fun block ↦
    (if isAligned64 addr then .ret (message, block)
      else (memcpyTo message 0 block).bind fun message ↦ .ret (message, message)).bind
        fun (message, alignedMessageBlock) ↦
    updateBlocks (sha3ProcessBlock hash alignedMessageBlock) message (addr + blockSize)
      (msg.drop blockSize) (size - blockSize)
  else
    (readBytes msg size).bind fun leftovers ↦
    (if size ≠ 0 then memcpyTo message 0 leftovers else .ret message).bind fun message ↦
    .ret ⟨hash, message, msg.drop size⟩
termination_by size
decreasing_by simp only [blockSize] at *; omega

/-- `keccak_update`, of `size` bytes at `msg`. -/
def keccakUpdate (ctx : Sha3Ctx) (addr : ℕ) (msg : Bytes) (size : ℕ) : Outcome Sha3Ctx :=
  let size := size % 2 ^ 16
  let idx := ctx.rest
  let rest := (ctx.rest + size) % blockSize
  if idx ≠ 0 then
    let left := blockSize - idx
    (readBytes msg (if size < left then size else left)).bind fun part ↦
    (memcpyTo ctx.message idx part).bind fun message ↦
    if size < left then .ret ⟨ctx.hash, message, rest⟩
    else
      (updateBlocks (sha3ProcessBlock ctx.hash message) message (addr + left) (msg.drop left)
        (size - left)).bind fun b ↦ .ret ⟨b.hash, b.message, rest⟩
  else
    (updateBlocks ctx.hash ctx.message addr msg size).bind fun b ↦ .ret ⟨b.hash, b.message, rest⟩

/-- `((char *)message)[i] |= bit` -/
def orByte (message : Bytes) (i : ℕ) (bit : UInt8) : Outcome Bytes :=
  Outcome.store message i (message.getD i 0 ||| bit)

/-- The bytes of the lanes in memory. -/
def hashBytes (hash : Lanes) : Bytes :=
  (List.range 25).flatMap fun i ↦ leBytes 8 (lane hash i).toNat

/-- `keccak_final`, with the bytes it stores at `result`. -/
def keccakFinal (ctx : Sha3Ctx) : Outcome Bytes :=
  let digestLength := 100 - blockSize / 2
  (memcpyTo ctx.message ctx.rest (List.replicate (blockSize - ctx.rest) 0)).bind fun message ↦
  (orByte message ctx.rest 0x01).bind fun message ↦
  (orByte message (blockSize - 1) 0x80).bind fun message ↦
  .ret ((hashBytes (sha3ProcessBlock ctx.hash message)).take digestLength)

end CkbAuth.Keccak
