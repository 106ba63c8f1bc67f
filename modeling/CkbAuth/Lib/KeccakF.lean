import Mathlib.Data.Fin.Basic
import Mathlib.Data.Nat.Digits.Defs
import CkbAuth.Lib.Sponge

/-!
# Keccak-f[1600] and Keccak-256

The permutation in coordinates: a state is a 5 by 5 sheet of lanes, and coordinates are
taken modulo 5.  Offsets and round constants come from their recurrences, not from tables.
The hash is the sponge over blocks of 136 bytes with one bit of padding at either end.
-/

namespace KeccakF

/-- The lane at `x`, `y`. -/
abbrev State := Fin 5 → Fin 5 → BitVec 64

def zero : State := fun _ _ ↦ 0

/-! ## The five steps -/

/-- The parity of a column. -/
def parity (A : State) (x : Fin 5) : BitVec 64 := A x 0 ^^^ A x 1 ^^^ A x 2 ^^^ A x 3 ^^^ A x 4

def theta (A : State) : State := fun x y ↦
  A x y ^^^ ((parity A (x + 1)).rotateLeft 1 ^^^ parity A (x + 4))

/-- The walk from (1, 0) that visits every lane but the one at the origin. -/
def walk : ℕ → Fin 5 × Fin 5
  | 0 => (1, 0)
  | t + 1 => ((walk t).2, 2 * (walk t).1 + 3 * (walk t).2)

/-- The triangular number of a lane's place on the walk, as a rotation of 64 bits. -/
def offset (x y : Fin 5) : ℕ :=
  match (List.range 24).find? fun t ↦ walk t = (x, y) with
  | some t => (t + 1) * (t + 2) / 2 % 64
  | none => 0

def rho (A : State) : State := fun x y ↦ (A x y).rotateLeft (offset x y)

def pi (A : State) : State := fun x y ↦ A (x + 3 * y) x

def chi (A : State) : State := fun x y ↦ A x y ^^^ (~~~A (x + 1) y &&& A (x + 2) y)

/-- The register that the constants are drawn from, with the feedback polynomial
`x^8 + x^6 + x^5 + x^4 + 1`. -/
def register : ℕ → ℕ
  | 0 => 1
  | t + 1 => if 128 ≤ register t then (2 * register t) ^^^ 0x171 else 2 * register t

def roundConstant (round : ℕ) : BitVec 64 :=
  (List.range 7).foldl
    (fun c j ↦ if register (j + 7 * round) % 2 = 1 then c ||| BitVec.twoPow 64 (2 ^ j - 1) else c) 0

def iota (round : ℕ) (A : State) : State := fun x y ↦
  if x = 0 ∧ y = 0 then A x y ^^^ roundConstant round else A x y

def rnd (A : State) (i : ℕ) : State := iota i (chi (pi (rho (theta A))))

def permutation (A : State) : State := (List.range 24).foldl rnd A

/-! ## The sponge -/

/-- Bytes of a block. -/
abbrev rate : ℕ := 136

/-- Eight bytes, the lowest first. -/
def word (bs : List UInt8) : BitVec 64 := BitVec.ofNat 64 (Nat.ofDigits 256 (bs.map UInt8.toNat))

/-- The number of a lane in the order in which blocks fill them. -/
def index (x y : Fin 5) : ℕ := x + 5 * y

def xorBlock (A : State) (block : List UInt8) : State := fun x y ↦
  if index x y < 17 then A x y ^^^ word ((block.drop (8 * index x y)).take 8) else A x y

def absorbBlock (A : State) (block : List UInt8) : State := permutation (xorBlock A block)

/-- The padding behind `n` bytes; where one byte is left it has both bits. -/
def pad (n : ℕ) : List UInt8 :=
  if n % rate = rate - 1 then [0x81]
  else 0x01 :: List.replicate (rate - 2 - n % rate) 0 ++ [0x80]

/-- The bytes of a lane, the lowest first. -/
def laneBytes (lane : BitVec 64) : List UInt8 :=
  (List.range 8).map fun i ↦ UInt8.ofNat (lane.toNat / 256 ^ i)

/-- The first four lanes. -/
def squeeze (A : State) : List UInt8 :=
  ([0, 1, 2, 3] : List (Fin 5)).flatMap fun x ↦ laneBytes (A x 0)

/-- Keccak-256 -/
def keccak256 (message : List UInt8) : List UInt8 :=
  squeeze (Sponge.absorb absorbBlock rate zero (message ++ pad message.length)).1

theorem length_pad (n : ℕ) : (pad n).length = rate - n % rate := by
  have hlt : n % rate < rate := Nat.mod_lt n (by decide)
  unfold pad
  split
  · rw [List.length_singleton]
    omega
  · simp only [List.cons_append, List.length_cons, List.length_append, List.length_replicate,
      List.length_nil]
    omega

theorem length_laneBytes (lane : BitVec 64) : (laneBytes lane).length = 8 := by
  rw [laneBytes, List.length_map, List.length_range]

theorem length_squeeze (A : State) : (squeeze A).length = 32 := by
  simp only [squeeze, List.flatMap_cons, List.flatMap_nil, List.length_append, length_laneBytes,
    List.length_nil]

theorem length_keccak256 (message : List UInt8) : (keccak256 message).length = 32 :=
  length_squeeze _

/-- The last block is what is left of the message with the padding behind it. -/
theorem keccak256_eq (message : List UInt8) :
    keccak256 message =
      squeeze (absorbBlock (Sponge.absorb absorbBlock rate zero message).1
        ((Sponge.absorb absorbBlock rate zero message).2 ++ pad message.length)) := by
  have hleft : (Sponge.absorb absorbBlock rate zero message).2.length = message.length % rate :=
    Sponge.length_absorb (by decide) zero message
  have hlt : message.length % rate < rate := Nat.mod_lt _ (by decide)
  have hfull : ((Sponge.absorb absorbBlock rate zero message).2 ++ pad message.length).length =
      rate := by
    rw [List.length_append, hleft, length_pad]
    omega
  rw [keccak256, Sponge.absorb_append (by decide), Sponge.absorb_block (by decide) hfull]

end KeccakF
