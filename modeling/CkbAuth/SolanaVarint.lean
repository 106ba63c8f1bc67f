import CkbAuth.KnownAnswers
import CkbAuth.Lib.Base128
import CkbAuth.Solana

/-!
# The number of keys of a Solana message

`read_varint_u16` with the variables of its caller.  A number has several encodings of up to
three bytes; the decoder that the code cites takes the shortest one only, and
`read_varint_u16` takes them all.
-/

namespace CkbAuth

open CRun

variable {m : Mem Region} {src ptr : Prog.Ptr Region} {result srcSize v v' : ℕ}
  {bs word word' : Bytes}

/-! ## Encodings -/

/-- A number below 2^16, seven bits a byte, lowest first. -/
inductive CompactU16 : Bytes → ℕ → Prop
  | one {a : UInt8} (ha : a.toNat < 128) : CompactU16 [a] a.toNat
  | two {a b : UInt8} (ha : 128 ≤ a.toNat) (hb : b.toNat < 128) :
      CompactU16 [a, b] (a.toNat % 128 + b.toNat * 128)
  | three {a b c : UInt8} (ha : 128 ≤ a.toNat) (hb : 128 ≤ b.toNat) (hc : c.toNat ≤ 3) :
      CompactU16 [a, b, c] (a.toNat % 128 + b.toNat % 128 * 128 + c.toNat * 16384)

theorem CompactU16.length_le (h : CompactU16 word v) : 1 ≤ word.length ∧ word.length ≤ 3 := by
  cases h <;> simp

theorem CompactU16.value_lt (h : CompactU16 word v) : v < 2 ^ 16 := by
  cases h <;> omega

theorem CompactU16.decode (h : CompactU16 word v) : Base128.decode word = some (v, []) := by
  cases h with
  | one ha => rw [Base128.decode, if_pos ha]
  | two ha hb =>
      rw [Base128.decode, if_neg (Nat.not_lt.mpr ha), Base128.decode, if_pos hb, Nat.mul_comm]
      rfl
  | three ha hb hc =>
      rw [Base128.decode, if_neg (Nat.not_lt.mpr ha), Base128.decode, if_neg (Nat.not_lt.mpr hb),
        Base128.decode, if_pos (by omega)]
      exact congrArg (fun k ↦ some (k, [])) (by omega)

/-- No encoding is a proper prefix of another one. -/
theorem CompactU16.unique {rest rest' : Bytes} (h : CompactU16 word v) (h' : CompactU16 word' v')
    (heq : word ++ rest = word' ++ rest') : word = word' ∧ v = v' ∧ rest = rest' :=
  Base128.decode_append_inj h.decode h'.decode heq

theorem CompactU16.unique_of_isPrefix (h : CompactU16 word v) (h' : CompactU16 word' v')
    (hword : word <+: bs) (hword' : word' <+: bs) : word = word' ∧ v = v' := by
  obtain ⟨rest, hrest⟩ := hword
  obtain ⟨rest', hrest'⟩ := hword'
  obtain ⟨hwords, hvalues, -⟩ := h.unique h' (hrest.trans hrest'.symm)
  exact ⟨hwords, hvalues⟩

/-! ## The shortest encoding -/

/-- The canonical encoding of a number: no other one is shorter. -/
def ShortVec (word : Bytes) (v : ℕ) : Prop :=
  CompactU16 word v ∧ ∀ word', CompactU16 word' v → word.length ≤ word'.length

theorem compactU16_encode (hv : v < 2 ^ 16) : CompactU16 (Base128.encode v) v := by
  have hhigh (n : ℕ) : (UInt8.ofNat (n % 128 + 128)).toNat = n % 128 + 128 :=
    Base128.toNat_ofNat_of_lt (by omega)
  have hlast {n : ℕ} (hn : n < 128) : (UInt8.ofNat n).toNat = n :=
    Base128.toNat_ofNat_of_lt (by omega)
  by_cases h₁ : v < 128
  · have hone := CompactU16.one (a := UInt8.ofNat v) (by rwa [hlast h₁])
    rwa [hlast h₁, ← Base128.encode_of_lt h₁] at hone
  rw [Base128.encode_of_ge (Nat.not_lt.mp h₁)]
  by_cases h₂ : v / 128 < 128
  · have htwo := CompactU16.two (a := UInt8.ofNat (v % 128 + 128)) (b := UInt8.ofNat (v / 128))
      (by rw [hhigh]; omega) (by rwa [hlast h₂])
    rw [hhigh, hlast h₂, show (v % 128 + 128) % 128 + v / 128 * 128 = v by omega] at htwo
    rwa [Base128.encode_of_lt h₂]
  · have hthree := CompactU16.three (a := UInt8.ofNat (v % 128 + 128))
      (b := UInt8.ofNat (v / 128 % 128 + 128)) (c := UInt8.ofNat (v / 128 / 128))
      (by rw [hhigh]; omega) (by rw [hhigh]; omega) (by rw [hlast (by omega)]; omega)
    rw [hhigh, hhigh, hlast (by omega), show (v % 128 + 128) % 128 +
      (v / 128 % 128 + 128) % 128 * 128 + v / 128 / 128 * 16384 = v by omega] at hthree
    rwa [Base128.encode_of_ge (Nat.not_lt.mp h₂), Base128.encode_of_lt (by omega)]

theorem shortVec_iff : ShortVec word v ↔ v < 2 ^ 16 ∧ word = Base128.encode v := by
  constructor
  · intro h
    have hlt := h.1.value_lt
    exact ⟨hlt, Base128.eq_encode_of_decode h.1.decode (h.2 _ (compactU16_encode hlt))⟩
  · rintro ⟨hlt, rfl⟩
    exact ⟨compactU16_encode hlt, fun _ h ↦ Base128.length_encode_le h.decode⟩

/-- A byte that goes on is followed by a zero byte, among the first three. -/
def Aliased (bs : Bytes) : Prop :=
  128 ≤ (bs.getD 0 0).toNat ∧ (bs[1]? = some 0 ∨ 128 ≤ (bs.getD 1 0).toNat ∧ bs[2]? = some 0)

instance (bs : Bytes) : Decidable (Aliased bs) := inferInstanceAs (Decidable (_ ∧ _))

theorem toNat_pos_of_ne_zero {b : UInt8} (h : b ≠ 0) : 0 < b.toNat :=
  Nat.pos_of_ne_zero fun hzero ↦ h (UInt8.toNat_inj.mp hzero)

/-- An encoding is the shortest one unless its last group of bits is zero. -/
theorem CompactU16.shortVec_iff_not_aliased (h : CompactU16 word v) (hword : word <+: bs) :
    ShortVec word v ↔ ¬Aliased bs := by
  obtain ⟨rest, rfl⟩ := hword
  rw [shortVec_iff, and_iff_right h.value_lt, Aliased]
  cases h with
  | @one a ha =>
      rw [Base128.encode_of_lt ha, UInt8.ofNat_toNat]
      exact iff_of_true rfl fun h ↦ absurd h.1 (Nat.not_le.mpr ha)
  | @two a b ha hb =>
      by_cases hzero : b = 0
      · refine iff_of_false (fun heq ↦ ?_) (not_not_intro ⟨ha, .inl (congrArg some hzero)⟩)
        have hshort : (Base128.encode (a.toNat % 128 + b.toNat * 128)).length ≤ 0 + 1 :=
          Base128.length_encode_le_iff.mpr (by rw [hzero]; simp; omega)
        rw [← heq] at hshort
        exact absurd hshort (by simp)
      · rw [Nat.mul_comm b.toNat, Base128.encode_group ha (toNat_pos_of_ne_zero hzero),
          Base128.encode_of_lt hb, UInt8.ofNat_toNat]
        refine iff_of_true rfl ?_
        rintro ⟨-, halias | halias⟩
        · exact hzero (Option.some.inj halias)
        · exact absurd halias.1 (Nat.not_le.mpr hb)
  | @three a b c ha hb hc =>
      by_cases hzero : c = 0
      · refine iff_of_false (fun heq ↦ ?_)
          (not_not_intro ⟨ha, .inr ⟨hb, congrArg some hzero⟩⟩)
        have hshort : (Base128.encode (a.toNat % 128 + b.toNat % 128 * 128 +
            c.toNat * 16384)).length ≤ 1 + 1 :=
          Base128.length_encode_le_iff.mpr (by rw [hzero]; simp; omega)
        rw [← heq] at hshort
        exact absurd hshort (by simp)
      · have hpos := toNat_pos_of_ne_zero hzero
        rw [show a.toNat % 128 + b.toNat % 128 * 128 + c.toNat * 16384 =
            a.toNat % 128 + 128 * (b.toNat % 128 + 128 * c.toNat) by omega,
          Base128.encode_group ha (by omega), Base128.encode_group hb hpos,
          Base128.encode_of_lt (by omega), UInt8.ofNat_toNat]
        refine iff_of_true rfl ?_
        rintro ⟨-, halias | halias⟩
        · rw [Option.some.inj halias] at hb
          exact absurd hb (by decide)
        · exact hzero (Option.some.inj halias.2)

theorem Aliased.exists_compactU16 (h : Aliased bs) : ∃ word v, CompactU16 word v ∧ word <+: bs := by
  match bs, h with
  | a :: b :: bs, ⟨ha, .inl hb⟩ =>
      obtain rfl : b = 0 := Option.some.inj hb
      exact ⟨[a, 0], _, .two ha (by decide), ⟨bs, rfl⟩⟩
  | a :: b :: c :: bs, ⟨ha, .inr ⟨hb, hc⟩⟩ =>
      obtain rfl : c = 0 := Option.some.inj hc
      exact ⟨[a, b, 0], _, .three ha hb (by decide), ⟨bs, rfl⟩⟩

/-! ## The function and its variables -/

/-- The code of a call, and `*src` and `*result` behind it. -/
structure VarintReturn where
  code : ℤ
  src : Prog.Ptr Region
  result : ℕ
  deriving DecidableEq

/-- The `for` loop of `read_varint_u16`, with `n` iterations left.  A sum that the accumulator
cannot hold is a fault. -/
def readVarintU16ToLoop (src : Prog.Ptr Region) (srcSize result : ℕ) :
    (n i acc : ℕ) → (ptr : Prog.Ptr Region) → Call VarintReturn
  | 0, _, acc, ptr => pure ⟨0, ptr, acc⟩
  | n + 1, i, acc, ptr =>
      if srcSize ≤ i then pure ⟨-1, src, result⟩
      else do
        let currentValue ← Prog.byte ptr
        let bits := if i < maximumFullBytes then 7 else 16 - maximumFullBytes * 7
        let maximumValue := 2 ^ bits - 1
        let acc := acc + (currentValue.toNat &&& maximumValue) <<< (i * 7)
        if 2 ^ 16 ≤ acc then Prog.done .fault
        else if currentValue.toNat < 0x80 ∧ i < maximumFullBytes then pure ⟨0, ptr + 1, acc⟩
        else if i = maximumFullBytes ∧ maximumValue < currentValue.toNat then
          pure ⟨-2, src, result⟩
        else readVarintU16ToLoop src srcSize result n (i + 1) acc (ptr + 1)

/-- `read_varint_u16`, with `*src` and `*result` in front of the call. -/
def readVarintU16To (src : Prog.Ptr Region) (srcSize result : ℕ) : Call VarintReturn :=
  readVarintU16ToLoop src srcSize result (maximumFullBytes + 1) 0 0 src

/-- The code as the callers of `read_varint_u16` see it. -/
def VarintReturn.toCall (r : VarintReturn) : Call (Prog.Ptr Region × ℕ) :=
  if r.code = 0 then pure (r.src, r.result) else Prog.fail r.code

/-! ### The accumulator -/

/-- The bits that iteration `i` adds are above those of the earlier ones. -/
theorem acc_lt {i acc b bits : ℕ} (hi : i ≤ 2) (hacc : acc < 128 ^ i)
    (hbits : bits = if i < maximumFullBytes then 7 else 16 - maximumFullBytes * 7) :
    acc + (b &&& (2 ^ bits - 1)) <<< (i * 7) < 2 ^ 16 ∧
      (i < 2 → acc + (b &&& (2 ^ bits - 1)) <<< (i * 7) < 128 ^ (i + 1)) := by
  rw [Nat.and_two_pow_sub_one_eq_mod, Nat.shiftLeft_eq, hbits]
  obtain rfl | rfl | rfl : i = 0 ∨ i = 1 ∨ i = 2 := by omega
  · simp at hacc ⊢
    omega
  · simp at hacc ⊢
    omega
  · simp at hacc ⊢
    omega

/-- The callers of `read_varint_u16` see what `readVarintU16` gives. -/
theorem readVarintU16ToLoop_bind {n : ℕ} : ∀ {i acc : ℕ} {ptr : Prog.Ptr Region}, n + i = 3 →
    acc < 128 ^ i →
      readVarintU16ToLoop src srcSize result n i acc ptr >>= VarintReturn.toCall =
        readVarintU16Loop srcSize n i acc ptr := by
  induction n with
  | zero => intro i acc ptr _ _; rfl
  | succ n ih =>
      intro i acc ptr hn hacc
      rw [readVarintU16ToLoop, readVarintU16Loop]
      by_cases hsize : srcSize ≤ i
      · rw [if_pos hsize, Prog.check, if_neg (not_not_intro hsize)]
        rfl
      · rw [if_neg hsize, Prog.check, if_pos hsize, Prog.pure_bind, Prog.bind_bind]
        refine congrArg _ (funext fun v ↦ ?_)
        generalize hbits : (if i < maximumFullBytes then 7 else 16 - maximumFullBytes * 7) = bits
        obtain ⟨hfits, hnext⟩ := acc_lt (b := v.toNat) (by omega) hacc hbits.symm
        dsimp only
        rw [if_neg (Nat.not_le.mpr hfits), Nat.mod_eq_of_lt hfits]
        by_cases hlast : v.toNat < 0x80 ∧ i < maximumFullBytes
        · rw [if_pos hlast, if_pos hlast]
          rfl
        · rw [if_neg hlast, if_neg hlast]
          by_cases hhigh : i = maximumFullBytes ∧ 2 ^ bits - 1 < v.toNat
          · rw [if_pos hhigh, if_pos hhigh]
            rfl
          · rw [if_neg hhigh, if_neg hhigh]
            by_cases hi : i < 2
            · exact ih (by omega) (hnext hi)
            · obtain rfl : n = 0 := by omega
              rfl

theorem readVarintU16To_bind (src : Prog.Ptr Region) (srcSize result : ℕ) :
    readVarintU16To src srcSize result >>= VarintReturn.toCall = readVarintU16 src srcSize :=
  readVarintU16ToLoop_bind rfl Nat.zero_lt_one

/-! ### One iteration -/

theorem outcome_readVarintU16ToLoop_short {n i acc : ℕ} (hsize : srcSize ≤ i) :
    (readVarintU16ToLoop src srcSize result (n + 1) i acc ptr).outcome m =
      .ret ⟨-1, src, result⟩ := by
  rw [readVarintU16ToLoop, if_pos hsize]
  rfl

theorem outcome_readVarintU16ToLoop {n i acc : ℕ} {b : UInt8} (hi : i < 2) (hsize : i < srcSize)
    (hacc : acc < 128 ^ i) (hb : (Prog.byte ptr).outcome m = .ret b) :
    (readVarintU16ToLoop src srcSize result (n + 1) i acc ptr).outcome m =
      if b.toNat < 128 then .ret ⟨0, ptr + 1, acc + b.toNat * 128 ^ i⟩
      else (readVarintU16ToLoop src srcSize result n (i + 1) (acc + b.toNat % 128 * 128 ^ i)
        (ptr + 1)).outcome m := by
  have hmask : b.toNat &&& (2 ^ 7 - 1) = b.toNat % 128 := Nat.and_two_pow_sub_one_eq_mod _ 7
  have hbits : 7 = if i < maximumFullBytes then 7 else 16 - maximumFullBytes * 7 :=
    (if_pos hi).symm
  have hshift : (b.toNat % 128) <<< (i * 7) = b.toNat % 128 * 128 ^ i := by
    rw [Nat.shiftLeft_eq, Nat.mul_comm i, Nat.pow_mul]
  have hfits := (acc_lt (b := b.toNat) hi.le hacc hbits).1
  rw [hmask, hshift] at hfits
  rw [readVarintU16ToLoop, if_neg (Nat.not_le.mpr hsize), Prog.outcome_bind, hb, Outcome.bind_ret]
  dsimp only
  rw [← hbits, hmask, hshift, if_neg (Nat.not_le.mpr hfits)]
  by_cases hlt : b.toNat < 128
  · rw [if_pos ⟨hlt, hi⟩, if_pos hlt, Nat.mod_eq_of_lt hlt]
    rfl
  · rw [if_neg (fun h ↦ hlt h.1), if_neg (fun h ↦ hi.ne h.1), if_neg hlt]

theorem outcome_readVarintU16ToLoop_last {acc : ℕ} {b : UInt8} (hsize : 2 < srcSize)
    (hacc : acc < 128 ^ 2) (hb : (Prog.byte ptr).outcome m = .ret b) :
    (readVarintU16ToLoop src srcSize result 1 2 acc ptr).outcome m =
      if b.toNat ≤ 3 then .ret ⟨0, ptr + 1, acc + b.toNat * 128 ^ 2⟩
      else .ret ⟨-2, src, result⟩ := by
  have hmask : b.toNat &&& (2 ^ 2 - 1) = b.toNat % 4 := Nat.and_two_pow_sub_one_eq_mod _ 2
  have hbits : 2 = if 2 < maximumFullBytes then 7 else 16 - maximumFullBytes * 7 := rfl
  have hfits := (acc_lt (b := b.toNat) (Nat.le_refl 2) hacc hbits).1
  rw [hmask] at hfits
  rw [readVarintU16ToLoop, if_neg (Nat.not_le.mpr hsize), Prog.outcome_bind, hb, Outcome.bind_ret]
  dsimp only
  rw [← hbits, hmask, if_neg (Nat.not_le.mpr hfits), if_neg (fun h ↦ absurd h.2 (by decide))]
  by_cases hle : b.toNat ≤ 3
  · rw [if_neg (fun h ↦ absurd h.2 (Nat.not_lt.mpr hle)), if_pos hle,
      Nat.mod_eq_of_lt (Nat.lt_succ_of_le hle), Nat.shiftLeft_eq]
    rfl
  · rw [if_pos ⟨rfl, Nat.not_le.mp hle⟩, if_neg hle]
    rfl

/-! ## What is read and what is stored -/

theorem readsIn_readVarintU16ToLoop {n : ℕ} : ∀ {i acc : ℕ},
    (readVarintU16ToLoop src srcSize result n i acc (src + i)).ReadsIn m (src.Covers srcSize) := by
  induction n with
  | zero =>
      intro i acc
      simp [readVarintU16ToLoop]
  | succ n ih =>
      intro i acc
      rw [readVarintU16ToLoop]
      by_cases hsize : srcSize ≤ i
      · rw [if_pos hsize]
        exact (Prog.readsIn_pure ..).mpr trivial
      · rw [if_neg hsize, Prog.readsIn_bind_iff, Prog.readsIn_byte]
        refine ⟨Prog.Ptr.covers_access.mpr (Nat.not_le.mp hsize), fun v _ ↦ ?_⟩
        generalize (if i < maximumFullBytes then 7 else 16 - maximumFullBytes * 7) = bits
        simp only [Prog.readsIn_ite, Prog.readsIn_pure, Prog.readsIn_done]
        split
        · trivial
        · split
          · trivial
          · split
            · trivial
            · rw [Prog.Ptr.add_add]
              exact ih

/-- Bytes that all go on do not start with a number, unless there are three of them. -/
theorem CompactU16.not_isPrefix_of_continued (h : CompactU16 word v)
    (hbs : ∀ b ∈ bs, 128 ≤ b.toNat) (hlen : bs.length < 3) : ¬word <+: bs := by
  intro hword
  have hmem : ∀ b ∈ word, 128 ≤ b.toNat := fun b hb ↦ hbs b (hword.subset hb)
  cases h with
  | one ha => exact absurd (hmem _ (by simp)) (Nat.not_le.mpr ha)
  | two ha hb => exact absurd (hmem _ (by simp)) (Nat.not_le.mpr hb)
  | three => exact absurd hword.length_le (Nat.not_le.mpr hlen)

/-- `read_varint_u16` takes an encoding, whichever it is, or leaves everything as it was. -/
theorem outcome_readVarintU16To (hs : src.Holds m bs)
    (hsize : ∀ i < 3, srcSize ≤ i ↔ bs.length ≤ i) :
    (∃ word v, CompactU16 word v ∧ word <+: bs ∧
      (readVarintU16To src srcSize result).outcome m = .ret ⟨0, src + word.length, v⟩) ∨
    (∀ word v, CompactU16 word v → ¬word <+: bs) ∧
      ∃ e ≠ 0, (readVarintU16To src srcSize result).outcome m = .ret ⟨e, src, result⟩ := by
  have hlt : ∀ i < 3, i < bs.length → i < srcSize := fun i hi h ↦
    Nat.not_le.mp fun hle ↦ absurd ((hsize i hi).mp hle) (Nat.not_le.mpr h)
  rw [readVarintU16To, maximumFullBytes]
  rcases bs with _ | ⟨a, bs⟩
  · refine .inr ⟨fun word v h ↦ h.not_isPrefix_of_continued (by simp) (by simp), -1, by decide, ?_⟩
    exact outcome_readVarintU16ToLoop_short ((hsize 0 (by decide)).mpr (Nat.le_refl 0))
  have ha : (Prog.byte src).outcome m = .ret a := hs.byte (i := 0) (by simp)
  rw [outcome_readVarintU16ToLoop (by decide) (hlt 0 (by decide) (by simp)) (by decide) ha]
  by_cases h₀ : a.toNat < 128
  · refine .inl ⟨[a], a.toNat, .one h₀, ⟨bs, rfl⟩, ?_⟩
    rw [if_pos h₀]
    simp
  rw [if_neg h₀]
  rcases bs with _ | ⟨b, bs⟩
  · refine .inr ⟨fun word v h ↦ h.not_isPrefix_of_continued (by simpa using h₀) (by simp), -1,
      by decide, ?_⟩
    exact outcome_readVarintU16ToLoop_short ((hsize 1 (by decide)).mpr (Nat.le_refl 1))
  have hb : (Prog.byte (src + 1)).outcome m = .ret b := hs.byte (i := 1) (by simp)
  rw [outcome_readVarintU16ToLoop (by decide) (hlt 1 (by decide) (by simp)) (by omega) hb]
  by_cases h₁ : b.toNat < 128
  · refine .inl ⟨[a, b], _, .two (Nat.not_lt.mp h₀) h₁, ⟨bs, rfl⟩, ?_⟩
    rw [if_pos h₁]
    simp
  rw [if_neg h₁]
  rcases bs with _ | ⟨c, bs⟩
  · have hcontinued : ∀ x ∈ [a, b], 128 ≤ x.toNat := by
      simpa using ⟨Nat.not_lt.mp h₀, Nat.not_lt.mp h₁⟩
    refine .inr ⟨fun word v h ↦ h.not_isPrefix_of_continued hcontinued (by simp), -1, by decide, ?_⟩
    exact outcome_readVarintU16ToLoop_short ((hsize 2 (by decide)).mpr (Nat.le_refl 2))
  have hc : (Prog.byte (src + 2)).outcome m = .ret c := hs.byte (i := 2) (by simp)
  rw [Prog.Ptr.add_add, outcome_readVarintU16ToLoop_last (hlt 2 (by decide) (by simp)) (by omega)
    hc]
  by_cases h₂ : c.toNat ≤ 3
  · refine .inl ⟨[a, b, c], _, .three (Nat.not_lt.mp h₀) (Nat.not_lt.mp h₁) h₂, ⟨bs, rfl⟩, ?_⟩
    rw [if_pos h₂]
    simp
  · refine .inr ⟨?_, -2, by decide, if_neg h₂⟩
    rintro word v hcompact hword
    cases hcompact <;> simp at hword <;> grind

theorem outcome_readVarintU16 (hs : src.Holds m bs)
    (hsize : ∀ i < 3, srcSize ≤ i ↔ bs.length ≤ i) :
    (∃ word v, CompactU16 word v ∧ word <+: bs ∧
      (readVarintU16 src srcSize).outcome m = .ret (src + word.length, v)) ∨
    (∀ word v, CompactU16 word v → ¬word <+: bs) ∧
      ∃ e, (readVarintU16 src srcSize).outcome m = .fail e := by
  rw [← readVarintU16To_bind src srcSize 0, Prog.outcome_bind]
  rcases outcome_readVarintU16To hs hsize with
    ⟨word, v, hcompact, hword, hrun⟩ | ⟨hno, e, he, hrun⟩
  · refine .inl ⟨word, v, hcompact, hword, ?_⟩
    rw [hrun]
    rfl
  · refine .inr ⟨hno, e, ?_⟩
    rw [hrun, Outcome.bind_ret, VarintReturn.toCall, if_neg he]
    rfl

theorem readsIn_readVarintU16To :
    (readVarintU16To src srcSize result).ReadsIn m (src.Covers srcSize) :=
  readsIn_readVarintU16ToLoop (i := 0)

theorem readsIn_readVarintU16 : (readVarintU16 src srcSize).ReadsIn m (src.Covers srcSize) := by
  have hreads := @readsIn_readVarintU16To m src 0 srcSize
  rw [← readVarintU16To_bind src srcSize 0, Prog.readsIn_bind_iff]
  refine ⟨hreads, fun r _ ↦ ?_⟩
  rw [VarintReturn.toCall, Prog.readsIn_ite]
  simp

/-! ## Canonical and other encodings -/

/-- A call on the bytes `bs` accepts exactly the shortest encodings and stores what they
encode, leaves its caller's variables alone when it fails, reads `bs` only, and does not
overflow. -/
structure ReadsShortVec (m : Mem Region) (src : Prog.Ptr Region) (result : ℕ) (bs : Bytes) :
    Prop where
  returns : ∃ r, (readVarintU16To src bs.length result).outcome m = .ret r
  accepts_iff : (∃ r, (readVarintU16To src bs.length result).outcome m = .ret r ∧ r.code = 0) ↔
    ∃ word v, ShortVec word v ∧ word <+: bs
  stores : ∀ word v, ShortVec word v → word <+: bs →
    (readVarintU16To src bs.length result).outcome m = .ret ⟨0, src + word.length, v⟩
  unchanged : ∀ r, (readVarintU16To src bs.length result).outcome m = .ret r → r.code ≠ 0 →
    r.src = src ∧ r.result = result
  reads : (readVarintU16To src bs.length result).ReadsIn m (src.Covers bs.length)

/-- `read_varint_u16` is the decoder of canonical encodings on the buffers that do not start
with another one. -/
theorem readsShortVec_iff (hs : src.Holds m bs) :
    ReadsShortVec m src result bs ↔ ¬Aliased bs := by
  rcases @outcome_readVarintU16To m src result bs.length bs hs (fun _ _ ↦ Iff.rfl) with
    ⟨word, v, hcompact, hword, hrun⟩ | ⟨hno, e, he, hrun⟩
  · have hshort := hcompact.shortVec_iff_not_aliased hword
    constructor
    · intro h halias
      obtain ⟨word', v', hshort', hword'⟩ := h.accepts_iff.mp ⟨_, hrun, rfl⟩
      obtain ⟨rfl, rfl⟩ := hcompact.unique_of_isPrefix hshort'.1 hword hword'
      exact hshort.mp hshort' halias
    · intro halias
      refine ⟨⟨_, hrun⟩, iff_of_true ⟨_, hrun, rfl⟩ ⟨word, v, hshort.mpr halias, hword⟩, ?_, ?_,
        readsIn_readVarintU16To⟩
      · intro word' v' hshort' hword'
        obtain ⟨rfl, rfl⟩ := hcompact.unique_of_isPrefix hshort'.1 hword hword'
        exact hrun
      · intro r hr hcode
        obtain rfl := Outcome.ret.inj (hrun.symm.trans hr)
        exact absurd rfl hcode
  · have hnone : ¬∃ word v, ShortVec word v ∧ word <+: bs :=
      fun ⟨word, v, hshort, hword⟩ ↦ hno word v hshort.1 hword
    refine iff_of_true ⟨⟨_, hrun⟩, iff_of_false ?_ hnone, ?_, ?_, readsIn_readVarintU16To⟩ ?_
    · rintro ⟨r, hr, hcode⟩
      obtain rfl := Outcome.ret.inj (hrun.symm.trans hr)
      exact he hcode
    · intro word v hshort hword
      exact absurd ⟨word, v, hshort, hword⟩ hnone
    · intro r hr _
      obtain rfl := Outcome.ret.inj (hrun.symm.trans hr)
      exact ⟨rfl, rfl⟩
    · intro halias
      obtain ⟨word, v, hcompact, hword⟩ := halias.exists_compactU16
      exact hno word v hcompact hword

/-! ## Two buffers -/

theorem twoBytes_fit : [(0x80 : UInt8), 0].length ≤ 2 ^ 64 := by decide

theorem oneAndTwo_fit : [(0x81 : UInt8), 2].length ≤ 2 ^ 64 := by decide

theorem oneAndTwo_canonical :
    ReadsShortVec (bufferMem [0x81, 2] [] oneAndTwo_fit nil_fits) ⟨.signature, 0⟩ 7 [0x81, 2] :=
  (readsShortVec_iff (bufferMem_holds_signature ..)).mpr (by decide)

/-- 0 is accepted in two bytes although there is no canonical encoding in front. -/
theorem twoBytes_accepted :
    (readVarintU16To ⟨.signature, 0⟩ 2 7).outcome (bufferMem [0x80, 0] [] twoBytes_fit nil_fits) =
        .ret ⟨0, ⟨.signature, 2⟩, 0⟩ ∧
      ¬∃ word v, ShortVec word v ∧ word <+: [0x80, 0] := by
  refine ⟨by decide, ?_⟩
  rintro ⟨word, v, hshort, hword⟩
  exact (hshort.1.shortVec_iff_not_aliased hword).mp hshort (by decide)

end CkbAuth
