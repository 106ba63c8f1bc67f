import CkbAuth.Env

/-!
# Little-endian numbers

Scalars, lengths and the numbers of the molecule format.
-/

namespace CkbAuth

/-- A number from its bytes, lowest first. -/
def leToNat : Bytes → ℕ
  | [] => 0
  | b :: bs => b.toNat + 256 * leToNat bs

def leBytes : (size n : ℕ) → Bytes
  | 0, _ => []
  | size + 1, n => UInt8.ofNat n :: leBytes size (n / 256)

@[simp] theorem length_leBytes (size n : ℕ) : (leBytes size n).length = size := by
  induction size generalizing n with
  | zero => rfl
  | succ size ih => simp [leBytes, ih]

theorem leToNat_leBytes {size n : ℕ} (h : n < 256 ^ size) : leToNat (leBytes size n) = n := by
  induction size generalizing n with
  | zero =>
      have : n = 0 := by simpa using h
      simp [leBytes, leToNat, this]
  | succ size ih =>
      have hdiv : n / 256 < 256 ^ size := by
        rw [Nat.div_lt_iff_lt_mul (by decide), ← Nat.pow_succ]
        exact h
      rw [leBytes, leToNat, ih hdiv, UInt8.toNat_ofNat']
      omega

theorem leBytes_mod (size n : ℕ) : leBytes size (n % 256 ^ size) = leBytes size n := by
  induction size generalizing n with
  | zero => rfl
  | succ size ih =>
      have hdiv : n % 256 ^ (size + 1) / 256 = n / 256 % 256 ^ size := by
        rw [Nat.pow_succ, Nat.mul_comm, Nat.mod_mul_right_div_self]
      have hlow : UInt8.ofNat (n % 256 ^ (size + 1)) = UInt8.ofNat n := by
        apply UInt8.toNat_inj.mp
        rw [UInt8.toNat_ofNat', UInt8.toNat_ofNat']
        exact Nat.mod_mod_of_dvd n (Dvd.intro_left _ rfl)
      rw [leBytes, leBytes, hdiv, ih, hlow]

theorem leToNat_lt (bs : Bytes) : leToNat bs < 256 ^ bs.length := by
  induction bs with
  | nil => simp [leToNat]
  | cons b bs ih =>
      have hb := b.toNat_lt
      rw [leToNat, List.length_cons, Nat.pow_succ]
      omega

theorem leBytes_injOn {size n k : ℕ} (hn : n < 256 ^ size) (hk : k < 256 ^ size)
    (h : leBytes size n = leBytes size k) : n = k := by
  rw [← leToNat_leBytes hn, ← leToNat_leBytes hk, h]

end CkbAuth
