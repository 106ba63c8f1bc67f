import CkbAuth.Env

/-!
# The vendored CBOR decoder

`c/cardano/nanocbor/decoder.c`, as far as the Cardano lock uses it.  A cursor
is an offset into the data; every getter returns the library's code on failure
and its cursor and value on success.  The two loops of `_skip_limited` and of
its callers carry a number of iterations; `none` means that they ran out of it.
-/

namespace CkbAuth.Nanocbor

open CkbAuth

@[simp] def typeUint : ℕ := 0
@[simp] def typeNint : ℕ := 1
@[simp] def typeBstr : ℕ := 2
@[simp] def typeTstr : ℕ := 3
@[simp] def typeArr : ℕ := 4
@[simp] def typeMap : ℕ := 5

@[simp] def sizeByte : ℕ := 24
@[simp] def sizeWord : ℕ := 26
@[simp] def sizeLong : ℕ := 27
/-- `NANOCBOR_SIZE_SIZET` for a 64-bit `size_t` -/
@[simp] def sizeSizet : ℕ := sizeLong
@[simp] def sizeIndefinite : ℕ := 31

@[simp] def errOverflow : ℤ := -1
@[simp] def errInvalidType : ℤ := -2
@[simp] def errEnd : ℤ := -3
@[simp] def errRecursion : ℤ := -4
@[simp] def notFound : ℤ := -5

@[simp] def decoderFlagContainer : UInt8 := 1
@[simp] def decoderFlagIndefinite : UInt8 := 2

def recursionMax : ℕ := 10

/-- `nanocbor_value_t`; `stop` is the source's `end`. -/
structure Value where
  cur : ℕ
  stop : ℕ
  remaining : ℕ
  flags : UInt8
  deriving DecidableEq, Repr

/-- `*cur` -/
def deref (data : Bytes) (cur : ℕ) : ℕ := (data.getD cur 0).toNat

/-- `nanocbor_decoder_init` on a zeroed value. -/
def decoderInit (len : ℕ) : Value := ⟨0, len, 0, 0⟩

/-- The `unsigned int` step is added to `cur`, and `remaining` is a `uint32_t`. -/
def advance (v : Value) (res : ℕ) : Value :=
  { v with cur := v.cur + res % 2 ^ 32, remaining := (v.remaining + (2 ^ 32 - 1)) % 2 ^ 32 }

def overEnd (v : Value) : Bool := v.stop ≤ v.cur

def containerIndefinite (v : Value) : Bool :=
  v.flags = decoderFlagIndefinite ||| decoderFlagContainer

def inContainer (v : Value) : Bool := v.flags &&& decoderFlagContainer ≠ 0

def atEnd (data : Bytes) (v : Value) : Bool :=
  overEnd v || (containerIndefinite v && deref data v.cur = 0xFF) ||
    (!containerIndefinite v && inContainer v && v.remaining = 0)

def getType (data : Bytes) (v : Value) : Except ℤ ℕ :=
  if atEnd data v then .error errEnd else .ok (deref data v.cur / 32)

/-- The bytes of a number, most significant first. -/
def beToNat (bs : Bytes) : ℕ := bs.foldl (fun acc b ↦ acc * 256 + b.toNat) 0

/-- `_get_uint64`: the size of the header and the number in it. -/
def getUint64 (data : Bytes) (v : Value) (max type : ℕ) : Except ℤ (ℕ × ℕ) :=
  match getType data v with
  | .error e => .error e
  | .ok ctype =>
      if type ≠ ctype then .error errInvalidType
      else
        let bytelen := deref data v.cur % 32
        if bytelen < sizeByte then .ok (1, bytelen)
        else if max < bytelen then .error errOverflow
        else
          let bytes := 2 ^ (bytelen - sizeByte)
          if v.stop ≤ v.cur + bytes then .error errEnd
          else .ok (1 + bytes, beToNat ((data.drop (v.cur + 1)).take bytes))

/-- `nanocbor_get_int32`.  A value above `INT32_MAX` is an overflow. -/
def getInt32 (data : Bytes) (v : Value) : Except ℤ (ℤ × Value) :=
  match getType data v with
  | .error e => .error e
  | .ok type =>
      if type = typeNint ∨ type = typeUint then
        match getUint64 data v sizeWord type with
        | .error e => .error e
        | .ok (res, intermediate) =>
            if 2 ^ 31 - 1 < intermediate then .error errOverflow
            else if type = typeNint then .ok (-(intermediate : ℤ) - 1, advance v res)
            else .ok ((intermediate : ℤ), advance v res)
      else .error errInvalidType

/-- What `_get_str` leaves behind: its code, `*buf` if it was set, `*len`. -/
structure Str where
  res : ℤ
  buf : Option ℕ
  len : ℕ
  next : Value
  deriving DecidableEq, Repr

/-- `_get_str`.  The sum `*len + res` is a `size_t`; when the header is bad it
is `0 + res` with a negative `res`. -/
def getStr (data : Bytes) (v : Value) (type : ℕ) : Str :=
  match getUint64 data v sizeSizet type with
  | .error e =>
      if v.stop < v.cur ∨ v.stop - v.cur < ((2 ^ 64 : ℤ) + e).toNat then ⟨errEnd, none, 0, v⟩
      else ⟨e, none, 0, v⟩
  | .ok (res, len) =>
      if v.stop < v.cur ∨ v.stop - v.cur < (len + res) % 2 ^ 64 then ⟨errEnd, none, len, v⟩
      else ⟨0, some (v.cur + res), len, advance v ((res + len) % 2 ^ 64)⟩

/-- An indefinite container is entered by its header byte alone, before the
end of the surrounding container is looked at. -/
def enterContainer (data : Bytes) (v : Value) (type : ℕ) : Except ℤ Value :=
  if !overEnd v ∧ deref data v.cur = type * 32 + sizeIndefinite then
    .ok ⟨v.cur + 1, v.stop, 0, decoderFlagIndefinite ||| decoderFlagContainer⟩
  else
    match getUint64 data v sizeWord type with
    | .error e => .error e
    | .ok (res, remaining) => .ok ⟨v.cur + res, v.stop, remaining, decoderFlagContainer⟩

def enterArray (data : Bytes) (v : Value) : Except ℤ Value := enterContainer data v typeArr

def enterMap (data : Bytes) (v : Value) : Except ℤ Value :=
  match enterContainer data v typeMap with
  | .error e => .error e
  | .ok map =>
      if (2 ^ 32 - 1) / 2 < map.remaining then .error errOverflow
      else .ok { map with remaining := map.remaining * 2 }

def leaveContainer (v container : Value) : Value :=
  { v with
    cur := if containerIndefinite container then container.cur + 1 else container.cur
    remaining := v.remaining - 1 }

def skipSimple (data : Bytes) (v : Value) : ℤ × Value :=
  match getType data v with
  | .error e => (e, v)
  | .ok type =>
      match getUint64 data v sizeLong type with
      | .error e => (e, v)
      | .ok (res, _) => (res, advance v res)

/-- The `while` loop of `_skip_limited` over the items of a container. -/
def skipItems (data : Bytes) (skip : Value → Option (ℤ × Value)) :
    ℕ → ℤ → Value → Option (ℤ × Value)
  | 0, _, _ => none
  | n + 1, res, recurse =>
      if atEnd data recurse then some (res, recurse)
      else
        match skip recurse with
        | none => none
        | some (res, recurse) =>
            if res < 0 then some (res, recurse) else skipItems data skip n res recurse

/-- `return res < 0 ? res : NANOCBOR_OK` -/
def clamp (res : ℤ) : ℤ := if res < 0 then res else 0

def skipLimited (data : Bytes) (fuel : ℕ) : (limit : ℕ) → Value → Option (ℤ × Value)
  | 0, v => some (errRecursion, v)
  | limit + 1, v =>
      match getType data v with
      | .error e => some (e, v)
      | .ok type =>
          if type = typeBstr ∨ type = typeTstr then
            let s := getStr data v type
            some (clamp s.res, s.next)
          else if type = typeArr ∨ type = typeMap then
            match if type = typeMap then enterMap data v else enterArray data v with
            | .error e => some (e, v)
            | .ok recurse =>
                match skipItems data (skipLimited data fuel limit) fuel 0 recurse with
                | none => none
                | some (res, recurse) => some (clamp res, leaveContainer v recurse)
          else
            let (res, next) := skipSimple data v
            some (clamp res, next)

def skip (data : Bytes) (fuel : ℕ) (v : Value) : Option (ℤ × Value) :=
  skipLimited data fuel recursionMax v

end CkbAuth.Nanocbor
