import CkbAuth.Keccak
import CkbAuth.Lib.InPlace

/-!
# The permutation the code computes

Step by step the in-place loops and their tables are Keccak-f[1600].
-/

namespace CkbAuth.Keccak

open CkbAuth KeccakF

variable {A : Lanes} {i k n : ℕ} {x y : Fin 5}

/-! ## Lanes -/

theorem lane_of_lt (h : i < 25) : lane A i = A[i] := by
  simp [lane, Vector.getD, h]

theorem lane_of_le (h : 25 ≤ i) : lane A i = 0 := by
  simp [lane, Vector.getD, Nat.not_lt.mpr h]

theorem lane_set (A : Lanes) (i : ℕ) (q : BitVec 64) (k : ℕ) :
    lane (A.setIfInBounds i q) k = if k = i ∧ i < 25 then q else lane A k := by
  by_cases hk : k < 25
  · rw [lane_of_lt hk, lane_of_lt hk, Vector.getElem_setIfInBounds hk]
    by_cases h : i = k
    · rw [if_pos h, if_pos ⟨h.symm, h ▸ hk⟩]
    · rw [if_neg h, if_neg fun heq ↦ h heq.1.symm]
  · have hle := Nat.not_lt.mp hk
    rw [lane_of_le hle, lane_of_le hle, if_neg (by omega)]

/-- The lanes in coordinates. -/
def sheet (A : Lanes) : State := fun x y ↦ lane A (index x y)

theorem index_lt (x y : Fin 5) : index x y < 25 := by
  have hx := x.isLt
  have hy := y.isLt
  unfold index
  omega

theorem index_mod (x y : Fin 5) : index x y % 5 = x := by
  have hx := x.isLt
  unfold index
  omega

theorem index_div (x y : Fin 5) : index x y / 5 = y := by
  have hx := x.isLt
  unfold index
  omega

/-- Every step that overwrites lanes by a function of their own value. -/
theorem local_modify (g : ℕ → BitVec 64 → BitVec 64) :
    InPlace.Local lane id fun k A ↦ A.setIfInBounds k (g k (lane A k)) where
  frame h := by rw [lane_set, if_neg fun heq ↦ h heq.1]
  congr hagree h := by
    rw [lane_set, lane_set, hagree _ rfl, hagree _ h]

theorem lane_foldl_modify (g : ℕ → BitVec 64 → BitVec 64) {lanes : List ℕ} (hlanes : lanes.Nodup)
    (hk : k ∈ lanes) (hlt : k < 25) :
    lane (lanes.foldl (fun A k ↦ A.setIfInBounds k (g k (lane A k))) A) k = g k (lane A k) := by
  refine ((local_modify g).get_foldl hlanes A k).trans ?_
  rw [id_eq, if_pos hk, lane_set, if_pos ⟨rfl, hlt⟩]

theorem rotl64_eq (q : BitVec 64) (hpos : 0 < n) (hlt : n < 64) :
    rotl64 q n = q.rotateLeft n := by
  ext j hj
  rw [rotl64, BitVec.getElem_xor, BitVec.getElem_shiftLeft, BitVec.getElem_ushiftRight,
    BitVec.getElem_rotateLeft]
  by_cases h : j < n
  · simp [h, Nat.mod_eq_of_lt hlt, BitVec.getLsbD_eq_getElem (show 64 - n + j < 64 by omega)]
  · simp [h, Nat.mod_eq_of_lt hlt, BitVec.getLsbD_of_ge _ _ (show 64 ≤ 64 - n + j by omega)]

theorem rotateLeft_zero (q : BitVec 64) : q.rotateLeft 0 = q := by
  ext j hj
  rw [BitVec.getElem_rotateLeft, dif_neg (Nat.not_lt_zero j)]
  rfl

/-! ## theta -/

theorem getD_map_range {f : ℕ → BitVec 64} (h : i < n) :
    ((List.range n).map f).getD i 0 = f i := by
  simp [List.getD, h]

theorem getD_thetaC (A : Lanes) (x : Fin 5) : (thetaC A).getD x 0 = parity (sheet A) x := by
  rw [thetaC, getD_map_range x.isLt]
  rfl

theorem getD_thetaD (A : Lanes) (x : Fin 5) :
    (thetaD (thetaC A)).getD x 0 =
      (parity (sheet A) (x + 1)).rotateLeft 1 ^^^ parity (sheet A) (x + 4) := by
  have hnext : ((x : ℕ) + 1) % 5 = (x + 1 : Fin 5) := (Fin.val_add x 1).symm
  have hprev : ((x : ℕ) + 4) % 5 = (x + 4 : Fin 5) := (Fin.val_add x 4).symm
  rw [thetaD, getD_map_range x.isLt, hnext, hprev, getD_thetaC, getD_thetaC,
    rotl64_eq _ (by decide) (by decide)]

/-- The order in which `keccak_theta` visits the lanes. -/
def thetaOrder : List ℕ := (List.range 5).flatMap fun i ↦ [0, 5, 10, 15, 20].map fun j ↦ i + j

theorem foldl_thetaOrder (step : Lanes → ℕ → Lanes) (A : Lanes) :
    (List.range 5).foldl (fun A i ↦ [0, 5, 10, 15, 20].foldl (fun A j ↦ step A (i + j)) A) A =
      thetaOrder.foldl step A := by
  rw [thetaOrder, List.foldl_flatMap]
  simp only [List.foldl_map]

theorem keccakTheta_eq (A : Lanes) :
    keccakTheta A = thetaOrder.foldl (fun B k ↦
      B.setIfInBounds k (lane B k ^^^ (thetaD (thetaC A)).getD (k % 5) 0)) A := by
  have hcolumn : ∀ i ∈ List.range 5, ∀ j ∈ [0, 5, 10, 15, 20], (i + j) % 5 = i := by decide
  rw [keccakTheta, ← foldl_thetaOrder]
  refine List.foldl_ext _ _ A fun B i hi ↦ List.foldl_ext _ _ B fun B' j hj ↦ ?_
  rw [hcolumn i hi j hj]

theorem sheet_keccakTheta (A : Lanes) : sheet (keccakTheta A) = theta (sheet A) := by
  have hnodup : thetaOrder.Nodup := by decide
  have hmem : ∀ x y : Fin 5, index x y ∈ thetaOrder := by decide
  funext x y
  rw [sheet, keccakTheta_eq,
    lane_foldl_modify (fun k q ↦ q ^^^ (thetaD (thetaC A)).getD (k % 5) 0) hnodup (hmem x y)
      (index_lt x y), index_mod, getD_thetaD]
  rfl

/-! ## rho -/

/-- The table of `rhoTransforms` lists the offsets of the lanes behind the first. -/
theorem rhoTransforms_eq : ∀ x y : Fin 5, 0 < index x y →
    getConstant typeRhoTransform (index x y - 1) = offset x y ∧ 0 < offset x y ∧
      offset x y < 64 := by
  decide

theorem sheet_keccakRho (A : Lanes) : sheet (keccakRho A) = rho (sheet A) := by
  have hmem : ∀ x y : Fin 5, 0 < index x y → index x y ∈ List.range' 1 24 := by decide
  funext x y
  by_cases h : 0 < index x y
  · obtain ⟨htable, hpos, hlt⟩ := rhoTransforms_eq x y h
    rw [sheet, keccakRho,
      lane_foldl_modify (fun k q ↦ rotl64 q (getConstant typeRhoTransform (k - 1)))
        List.nodup_range' (hmem x y h) (index_lt x y), htable, rotl64_eq _ hpos hlt]
    rfl
  · have horigin : ∀ x y : Fin 5, ¬0 < index x y →
        index x y ∉ List.range' 1 24 ∧ offset x y = 0 := by decide
    obtain ⟨hstays, hzero⟩ := horigin x y h
    have hnodup : (List.range' 1 24).Nodup := List.nodup_range'
    have hstay := (local_modify fun k q ↦
      rotl64 q (getConstant typeRhoTransform (k - 1))).get_foldl hnodup A (index x y)
    rw [id_eq, if_neg hstays] at hstay
    rw [rho, hzero, rotateLeft_zero]
    exact hstay

/-! ## pi -/

/-- The cycle of `pi_transform`. -/
def piPath : List ℕ := (List.range 24).map (getConstant typePiTransform)

/-- Where the table sends a lane to, the last one of the cycle getting the saved lane. -/
theorem piTransform_eq : ∀ x y : Fin 5,
    (if index x y = 10 then 1 else InPlace.next piPath (index x y)) = index (x + 3 * y) x := by
  decide

theorem sheet_keccakPi (A : Lanes) : sheet (keccakPi A) = pi (sheet A) := by
  have hzip : piPath.zip piPath.tail = (List.range' 1 23).map fun i ↦
      (getConstant typePiTransform (i - 1), getConstant typePiTransform i) := by decide
  have hloop : keccakPi A = ((piPath.zip piPath.tail).foldl
      (fun A e ↦ A.setIfInBounds e.1 (lane A e.2)) A).setIfInBounds 10 (lane A 1) := by
    rw [hzip, List.foldl_map]
    rfl
  have hnodup : piPath.Nodup := by decide
  have hbound : ∀ i ∈ piPath, i < 25 := by decide
  have hstores : ∀ i ∈ piPath, InPlace.Stores lane Vector.setIfInBounds i := by
    intro i hi A q k
    rw [lane_set]
    exact if_congr (and_iff_left (hbound i hi)) rfl rfl
  funext x y
  have htable := piTransform_eq x y
  rw [sheet, hloop, lane_set, InPlace.get_foldl_path hstores hnodup, pi, sheet, ← htable]
  by_cases h : index x y = 10
  · rw [if_pos ⟨h, by decide⟩, if_pos h]
  · rw [if_neg fun heq ↦ h heq.1, if_neg h]

/-! ## chi -/

/-- A row behind its five assignments: each lane by the old values of the next two. -/
theorem lane_chiRow {r j : ℕ} (hr : r < 5) (hj : j < 5) :
    lane (chiRow (5 * r) A) (j + 5 * r) =
      lane A (j + 5 * r) ^^^
        (~~~lane A ((j + 1) % 5 + 5 * r) &&& lane A ((j + 2) % 5 + 5 * r)) := by
  have h0 : 5 * r < 25 := by omega
  have h1 : 1 + 5 * r < 25 := by omega
  have h2 : 2 + 5 * r < 25 := by omega
  have h3 : 3 + 5 * r < 25 := by omega
  have h4 : 4 + 5 * r < 25 := by omega
  match j, hj with
  | 0, _ | 1, _ | 2, _ | 3, _ | 4, _ => simp [chiRow, lane_set, h0, h1, h2, h3, h4]

theorem lane_chiRow_of_ne {r : ℕ} (h : k / 5 ≠ r) : lane (chiRow (5 * r) A) k = lane A k := by
  have hne : ∀ j < 5, k ≠ j + 5 * r := by omega
  simp [chiRow, lane_set, hne]
  omega

theorem chiRow_of_le {r : ℕ} (h : 5 ≤ r) : chiRow (5 * r) A = A := by
  have hset : ∀ (B : Lanes) (j : ℕ) (q : BitVec 64), B.setIfInBounds (j + 5 * r) q = B := by
    intro B j q
    exact Vector.setIfInBounds_eq_of_size_le (by omega)
  simp only [chiRow, hset]

theorem local_chiRow : InPlace.Local lane (· / 5) fun r A ↦ chiRow (5 * r) A where
  frame h := lane_chiRow_of_ne h
  congr {r A A' k} hagree h := by
    by_cases hr : r < 5
    · obtain ⟨j, hj, rfl⟩ : ∃ j < 5, k = j + 5 * r := ⟨k - 5 * r, by omega, by omega⟩
      rw [lane_chiRow hr hj, lane_chiRow hr hj, hagree _ (by omega), hagree _ (by omega),
        hagree _ (by omega)]
    · rw [chiRow_of_le (Nat.not_lt.mp hr), chiRow_of_le (Nat.not_lt.mp hr)]
      exact hagree k h

theorem sheet_keccakChi (A : Lanes) : sheet (keccakChi A) = chi (sheet A) := by
  have hrows : [0, 5, 10, 15, 20] = (List.range 5).map fun r ↦ 5 * r := by decide
  have hloop : keccakChi A = (List.range 5).foldl (fun A r ↦ chiRow (5 * r) A) A := by
    rw [keccakChi, hrows, List.foldl_map]
  funext x y
  have hrow : index x y / 5 ∈ List.range 5 := by
    rw [index_div]
    exact List.mem_range.mpr y.isLt
  have hnext : ((x : ℕ) + 1) % 5 = (x + 1 : Fin 5) := (Fin.val_add x 1).symm
  have hafter : ((x : ℕ) + 2) % 5 = (x + 2 : Fin 5) := (Fin.val_add x 2).symm
  rw [sheet, hloop, local_chiRow.get_foldl List.nodup_range, if_pos hrow, index_div,
    show index x y = x + 5 * (y : ℕ) from rfl, lane_chiRow y.isLt x.isLt, hnext, hafter]
  rfl

/-! ## The rounds -/

/-- The bytes of `round_constant_info` spell the constants of the 24 rounds. -/
theorem getRoundConstant_eq : ∀ i < 24, getRoundConstant i = roundConstant i := by
  decide

theorem sheet_sha3Round (A : Lanes) (hi : i < 24) :
    sheet (sha3Round A i) = rnd (sheet A) i := by
  have horigin : ∀ x y : Fin 5, index x y = 0 ↔ x = 0 ∧ y = 0 := by decide
  rw [rnd, ← sheet_keccakTheta, ← sheet_keccakRho, ← sheet_keccakPi, ← sheet_keccakChi]
  funext x y
  rw [sheet, sha3Round, lane_set, getRoundConstant_eq i hi, iota]
  by_cases h : index x y = 0
  · rw [if_pos ⟨h, by decide⟩, if_pos ((horigin x y).mp h), sheet, h]
  · rw [if_neg fun heq ↦ h heq.1, if_neg fun heq ↦ h ((horigin x y).mpr heq)]
    rfl

/-- The in-place, table-driven `sha3_permutation` is Keccak-f[1600]. -/
theorem sha3Permutation_keccakF (A : Lanes) :
    sheet (sha3Permutation A) = permutation (sheet A) := by
  have hrounds : ∀ rounds : List ℕ, (∀ i ∈ rounds, i < 24) → ∀ A,
      sheet (rounds.foldl sha3Round A) = rounds.foldl rnd (sheet A) := by
    intro rounds
    induction rounds with
    | nil => exact fun _ _ ↦ rfl
    | cons i rounds ih =>
        intro hlt A
        rw [List.foldl_cons, List.foldl_cons, ih (fun j hj ↦ hlt j (List.mem_cons_of_mem i hj)),
          sheet_sha3Round A (hlt i List.mem_cons_self)]
  exact hrounds _ (fun i hi ↦ List.mem_range.mp hi) A

end CkbAuth.Keccak
