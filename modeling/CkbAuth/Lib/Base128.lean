import Mathlib.Algebra.Order.Ring.Int
import Mathlib.Data.List.Basic
import Mathlib.Tactic.Common

/-!
# Numbers in base 128

A number in groups of seven bits, one a byte, the lowest first.  All bytes but the last
have the high bit set, so that a reader knows where a number ends.
-/

namespace Base128

variable {n k : ℕ} {word word' bs rest rest' : List UInt8}

def encode (n : ℕ) : List UInt8 :=
  if n < 128 then [UInt8.ofNat n] else UInt8.ofNat (n % 128 + 128) :: encode (n / 128)
termination_by n
decreasing_by omega

/-- The first number, and what is behind it. -/
def decode : List UInt8 → Option (ℕ × List UInt8)
  | [] => none
  | b :: bs =>
      if b.toNat < 128 then some (b.toNat, bs)
      else (decode bs).map fun (n, rest) ↦ (b.toNat % 128 + 128 * n, rest)

theorem encode_of_lt (h : n < 128) : encode n = [UInt8.ofNat n] := by
  rw [encode, if_pos h]

theorem encode_of_ge (h : 128 ≤ n) :
    encode n = UInt8.ofNat (n % 128 + 128) :: encode (n / 128) := by
  rw [encode, if_neg (Nat.not_lt.mpr h)]

theorem encode_group {b : UInt8} (hb : 128 ≤ b.toNat) (hn : 0 < n) :
    encode (b.toNat % 128 + 128 * n) = b :: encode n := by
  have hlt := b.toNat_lt
  rw [encode_of_ge (by omega), show (b.toNat % 128 + 128 * n) / 128 = n by omega,
    show (b.toNat % 128 + 128 * n) % 128 + 128 = b.toNat by omega, UInt8.ofNat_toNat]

/-! ## Reading what was written -/

theorem toNat_ofNat_of_lt (h : n < 256) : (UInt8.ofNat n).toNat = n := by
  rw [UInt8.toNat_ofNat', Nat.mod_eq_of_lt h]

/-- A last group of bits, or one with more behind it. -/
theorem decode_cons_eq_some_iff {b : UInt8} :
    decode (b :: bs) = some (n, rest) ↔
      (b.toNat < 128 ∧ b.toNat = n ∧ bs = rest) ∨
        128 ≤ b.toNat ∧ ∃ k, decode bs = some (k, rest) ∧ b.toNat % 128 + 128 * k = n := by
  rw [decode]
  by_cases hb : b.toNat < 128
  · simp [hb, Nat.not_le.mpr hb]
  · rw [if_neg hb, Option.map_eq_some_iff]
    simp [hb, Nat.not_lt.mp hb]

theorem decode_append (h : decode word = some (n, rest)) (rest' : List UInt8) :
    decode (word ++ rest') = some (n, rest ++ rest') := by
  induction word generalizing n with
  | nil => cases h
  | cons b bs ih =>
      rw [List.cons_append, decode_cons_eq_some_iff]
      rcases decode_cons_eq_some_iff.mp h with ⟨hb, hn, rfl⟩ | ⟨hb, k, hk, hn⟩
      · exact .inl ⟨hb, hn, rfl⟩
      · exact .inr ⟨hb, k, ih hk, hn⟩

theorem decode_encode (n : ℕ) : decode (encode n) = some (n, []) := by
  induction n using Nat.strong_induction_on with
  | _ n ih =>
      by_cases h : n < 128
      · rw [encode_of_lt h, decode, toNat_ofNat_of_lt (by omega), if_pos h]
      · have hbyte : (UInt8.ofNat (n % 128 + 128)).toNat = n % 128 + 128 :=
          toNat_ofNat_of_lt (by omega)
        rw [encode_of_ge (Nat.not_lt.mp h), decode, if_neg (by omega), ih (n / 128) (by omega),
          Option.map_some, hbyte]
        exact congrArg (fun k ↦ some (k, [])) (by omega)

/-- Two strings that are read to their ends, each followed by something, can be told apart. -/
theorem decode_append_inj (h : decode word = some (n, [])) (h' : decode word' = some (k, []))
    (heq : word ++ rest = word' ++ rest') : word = word' ∧ n = k ∧ rest = rest' := by
  have hdecode := decode_append h rest
  rw [heq, decode_append h' rest', List.nil_append, List.nil_append] at hdecode
  obtain ⟨rfl, rfl⟩ := Prod.mk.inj (Option.some.inj hdecode)
  exact ⟨List.append_cancel_right heq, rfl, rfl⟩

theorem encode_append_inj (h : encode n ++ rest = encode k ++ rest') : n = k ∧ rest = rest' :=
  (decode_append_inj (decode_encode n) (decode_encode k) h).2

theorem encode_prefixFree (h : encode n <+: encode k) : n = k := by
  obtain ⟨rest, hrest⟩ := h
  exact (encode_append_inj (hrest.trans (List.append_nil _).symm)).1

/-! ## Lengths -/

theorem length_encode_pos (n : ℕ) : 0 < (encode n).length := by
  rw [encode]
  split <;> simp

theorem length_encode_le_iff : (encode n).length ≤ k + 1 ↔ n < 128 ^ (k + 1) := by
  induction k generalizing n with
  | zero =>
      by_cases h : n < 128
      · simp [encode_of_lt h, h]
      · have hpos := length_encode_pos (n / 128)
        rw [encode_of_ge (Nat.not_lt.mp h), List.length_cons]
        omega
  | succ k ih =>
      by_cases h : n < 128
      · have hpow : 128 ≤ 128 ^ (k + 1 + 1) := Nat.le_self_pow (by omega) 128
        rw [encode_of_lt h]
        exact iff_of_true (by simp) (h.trans_le hpow)
      · rw [encode_of_ge (Nat.not_lt.mp h), List.length_cons, Nat.add_le_add_iff_right, ih,
          Nat.div_lt_iff_lt_mul (by decide), ← Nat.pow_succ]

theorem lt_of_decode (h : decode word = some (n, [])) : n < 128 ^ word.length := by
  induction word generalizing n with
  | nil => cases h
  | cons b bs ih =>
      rcases decode_cons_eq_some_iff.mp h with ⟨hb, rfl, rfl⟩ | ⟨-, k, hk, rfl⟩
      · simpa using hb
      · have hlt := ih hk
        rw [List.length_cons, Nat.pow_succ]
        omega

/-- `encode` gives the shortest of all byte strings that are read as a number. -/
theorem length_encode_le (h : decode word = some (n, [])) :
    (encode n).length ≤ word.length := by
  have hlt := lt_of_decode h
  cases word with
  | nil => cases h
  | cons b bs => exact length_encode_le_iff.mpr hlt

theorem eq_encode_of_decode (h : decode word = some (n, []))
    (hlen : word.length ≤ (encode n).length) : word = encode n := by
  induction word generalizing n with
  | nil => cases h
  | cons b bs ih =>
      rcases decode_cons_eq_some_iff.mp h with ⟨hb, rfl, rfl⟩ | ⟨hb, k, hk, rfl⟩
      · rw [encode_of_lt hb, UInt8.ofNat_toNat]
      · rcases Nat.eq_zero_or_pos k with rfl | hpos
        · -- a high group of zeros: one byte would do
          rw [encode_of_lt (by omega), List.length_singleton, List.length_cons] at hlen
          obtain rfl : bs = [] := List.length_eq_zero_iff.mp (by omega)
          cases hk
        · rw [encode_group hb hpos, List.length_cons, List.length_cons] at hlen
          rw [encode_group hb hpos, ← ih hk (by omega)]

end Base128
