import CkbAuth.Nanocbor

/-!
# Where the CBOR cursor goes

Getters and skips move the cursor forward within their container and leave the
end of the buffer alone.  Skips that succeed do so for every larger recursion
limit, and loops that end do so for every larger number of iterations.
-/

namespace CkbAuth.Nanocbor

open CkbAuth

variable {data : Bytes} {v w : Value}

/-! ## Headers -/

theorem getType_eq_ok_iff {type : ℕ} :
    getType data v = .ok type ↔ atEnd data v = false ∧ deref data v.cur / 32 = type := by
  unfold getType
  cases atEnd data v <;> simp

theorem lt_stop_of_not_atEnd (h : atEnd data v = false) : v.cur < v.stop := by
  by_contra hle
  simp [atEnd, overEnd, Nat.not_lt.mp hle] at h

/-- The size of a header and the number in it, within the limit `max`. -/
def HeaderBytes (data : Bytes) (v : Value) (max res n : ℕ) : Prop :=
  (deref data v.cur % 32 < 24 ∧ res = 1 ∧ n = deref data v.cur % 32) ∨
  (24 ≤ deref data v.cur % 32 ∧ deref data v.cur % 32 ≤ max ∧
    v.cur + 2 ^ (deref data v.cur % 32 - 24) < v.stop ∧
    res = 1 + 2 ^ (deref data v.cur % 32 - 24) ∧
    n = beToNat ((data.drop (v.cur + 1)).take (2 ^ (deref data v.cur % 32 - 24))))

theorem getUint64_eq_ok_iff {max type res n : ℕ} :
    getUint64 data v max type = .ok (res, n) ↔
      getType data v = .ok type ∧ HeaderBytes data v max res n := by
  unfold getUint64 HeaderBytes
  cases getType data v with
  | error e => simp
  | ok ctype =>
      by_cases htype : type = ctype
      · subst htype
        simp only [ne_eq, not_true_eq_false, if_false, sizeByte, true_and]
        generalize deref data v.cur % 32 = b
        by_cases hbyte : b < 24
        · simp [hbyte, Nat.not_le.mpr hbyte, eq_comm]
        · by_cases hmax : max < b
          · simp [hbyte, hmax, Nat.not_le.mpr hmax]
          · by_cases hroom : v.stop ≤ v.cur + 2 ^ (b - 24)
            · simp [hbyte, hmax, hroom, Nat.not_lt.mpr hroom]
            · simp [hbyte, hmax, hroom, Nat.lt_of_not_le hroom, Nat.not_lt.mp hbyte,
                Nat.not_lt.mp hmax, eq_comm]
      · simp [htype, Ne.symm htype]

theorem getUint64_error_neg {max type : ℕ} {e : ℤ} (h : getUint64 data v max type = .error e) :
    e < 0 := by
  unfold getUint64 getType at h
  cases hend : atEnd data v with
  | true =>
      obtain rfl : errEnd = e := by simpa [hend] using h
      decide
  | false =>
      simp only [hend, Bool.false_eq_true, if_false] at h
      split at h
      · obtain rfl : errInvalidType = e := by simpa using h
        decide
      · split at h
        · cases h
        · split at h
          · obtain rfl : errOverflow = e := by simpa using h
            decide
          · split at h
            · obtain rfl : errEnd = e := by simpa using h
              decide
            · cases h

namespace HeaderBytes

variable {max res n : ℕ}

theorem pos (h : HeaderBytes data v max res n) : 1 ≤ res := by
  rcases h with ⟨_, rfl, _⟩ | ⟨_, _, _, rfl, _⟩
  · exact Nat.le_refl 1
  · exact Nat.le_add_right 1 _

theorem small (h : HeaderBytes data v max res n) : res ≤ 129 := by
  rcases h with ⟨_, rfl, _⟩ | ⟨_, _, _, rfl, _⟩
  · decide
  · have hpow : 2 ^ (deref data v.cur % 32 - 24) ≤ 2 ^ 7 :=
      Nat.pow_le_pow_right (by decide) (by omega)
    omega

theorem le_stop (h : HeaderBytes data v max res n) (hlt : v.cur < v.stop) :
    v.cur + res ≤ v.stop := by
  rcases h with ⟨_, rfl, _⟩ | ⟨_, _, hroom, rfl, _⟩
  · exact hlt
  · rw [Nat.add_comm 1, ← Nat.add_assoc]
    exact hroom

theorem two_le (h : HeaderBytes data v max res n) (hn : 24 ≤ n) : 2 ≤ res := by
  rcases h with ⟨_, rfl, rfl⟩ | ⟨_, _, _, rfl, _⟩
  · omega
  · have hpow : 1 ≤ 2 ^ (deref data v.cur % 32 - 24) := Nat.one_le_two_pow
    omega

theorem widen (h : HeaderBytes data v max res n) {max' : ℕ} (hmax : max ≤ max') :
    HeaderBytes data v max' res n := by
  rcases h with h | ⟨h24, hle, h⟩
  · exact .inl h
  · exact .inr ⟨h24, Nat.le_trans hle hmax, h⟩

end HeaderBytes

/-! ## Getters -/

/-- The cursor moves forward within the same container. -/
structure Value.Follows (v w : Value) : Prop where
  cur_le : v.cur ≤ w.cur
  stop_eq : w.stop = v.stop
  flags_eq : w.flags = v.flags

namespace Value.Follows

variable {u : Value}

@[refl] theorem refl (v : Value) : v.Follows v := ⟨Nat.le_refl _, rfl, rfl⟩

theorem trans (h : v.Follows w) (h' : w.Follows u) : v.Follows u :=
  ⟨Nat.le_trans h.cur_le h'.cur_le, h'.stop_eq.trans h.stop_eq, h'.flags_eq.trans h.flags_eq⟩

theorem advance (v : Value) (n : ℕ) : v.Follows (advance v n) :=
  ⟨Nat.le_add_right _ _, rfl, rfl⟩

end Value.Follows

theorem advance_cur {n : ℕ} (hn : n < 2 ^ 32) : (advance v n).cur = v.cur + n := by
  simp only [advance, Nat.mod_eq_of_lt hn]

theorem getInt32_ok {i : ℤ} (h : getInt32 data v = .ok (i, w)) :
    ∃ type res n, (type = typeNint ∨ type = typeUint) ∧ getType data v = .ok type ∧
      HeaderBytes data v sizeWord res n ∧ w = advance v res := by
  unfold getInt32 at h
  split at h
  next => cases h
  next type htype =>
    split at h
    next hint =>
      split at h
      next => cases h
      next res n hheader =>
        have hheader := (getUint64_eq_ok_iff.mp hheader).2
        split at h
        · cases h
        · split at h
          all_goals
            obtain ⟨_, rfl⟩ : _ ∧ advance v res = w := by simpa using h
            exact ⟨type, res, n, hint, htype, hheader, rfl⟩
    next => cases h

theorem lt_cur_of_getInt32 {i : ℤ} (h : getInt32 data v = .ok (i, w)) : v.cur < w.cur := by
  obtain ⟨_, res, n, _, _, hheader, rfl⟩ := getInt32_ok h
  have hpos := hheader.pos
  have hsmall := hheader.small
  rw [advance_cur (by omega)]
  omega

theorem follows_of_getInt32 {i : ℤ} (h : getInt32 data v = .ok (i, w)) : v.Follows w := by
  obtain ⟨_, res, _, _, _, _, rfl⟩ := getInt32_ok h
  exact .advance v res

/-- `_get_str` sets `*buf` exactly when it succeeds. -/
theorem getStr_cases (data : Bytes) (v : Value) (type : ℕ) :
    ((getStr data v type).res < 0 ∧ (getStr data v type).buf = none ∧
      (getStr data v type).next = v) ∨
    ∃ res len, getType data v = .ok type ∧ HeaderBytes data v sizeSizet res len ∧
      v.cur ≤ v.stop ∧ (len + res) % 2 ^ 64 ≤ v.stop - v.cur ∧
      getStr data v type =
        ⟨0, some (v.cur + res), len, advance v ((res + len) % 2 ^ 64)⟩ := by
  unfold getStr
  cases hheader : getUint64 data v sizeSizet type with
  | error e =>
      left
      dsimp only
      split
      · exact ⟨show errEnd < 0 by decide, rfl, rfl⟩
      · exact ⟨getUint64_error_neg hheader, rfl, rfl⟩
  | ok header =>
      obtain ⟨res, len⟩ := header
      obtain ⟨htype, hheader⟩ := getUint64_eq_ok_iff.mp hheader
      dsimp only
      split
      · exact .inl ⟨show errEnd < 0 by decide, rfl, rfl⟩
      next hroom =>
        exact .inr ⟨res, len, htype, hheader, by omega, by omega, rfl⟩

theorem follows_getStr (data : Bytes) (v : Value) (type : ℕ) :
    v.Follows (getStr data v type).next := by
  rcases getStr_cases data v type with ⟨_, _, hnext⟩ | ⟨res, len, _, _, _, _, hstr⟩
  · rw [hnext]
  · rw [hstr]
    exact .advance v _

/-! ## Containers -/

/-- An indefinite container is entered by its header byte, a definite one by a
header that could be read. -/
theorem enterContainer_cases {type : ℕ} (h : enterContainer data v type = .ok w) :
    (v.cur < v.stop ∧ deref data v.cur = type * 32 + 31 ∧
      w = ⟨v.cur + 1, v.stop, 0, decoderFlagIndefinite ||| decoderFlagContainer⟩) ∨
    ∃ res n, getType data v = .ok type ∧ HeaderBytes data v sizeWord res n ∧
      w = ⟨v.cur + res, v.stop, n, decoderFlagContainer⟩ := by
  unfold enterContainer at h
  split at h
  next hindef =>
    obtain ⟨hover, hbyte⟩ := hindef
    exact .inl ⟨by simpa [overEnd] using hover, hbyte, (Except.ok.inj h).symm⟩
  next =>
    split at h
    next => cases h
    next res n hheader =>
      obtain ⟨htype, hheader⟩ := getUint64_eq_ok_iff.mp hheader
      exact .inr ⟨res, n, htype, hheader, (Except.ok.inj h).symm⟩

/-- The cursor moves into a container behind a header of the type. -/
structure Value.Enters (data : Bytes) (type : ℕ) (v w : Value) : Prop where
  lt_stop : v.cur < v.stop
  type_eq : deref data v.cur / 32 = type
  cur_lt : v.cur < w.cur
  stop_eq : w.stop = v.stop

theorem enters_of_enterContainer {type : ℕ} (h : enterContainer data v type = .ok w) :
    v.Enters data type w := by
  rcases enterContainer_cases h with ⟨hlt, hbyte, rfl⟩ | ⟨res, n, htype, hheader, rfl⟩
  · exact ⟨hlt, by omega, Nat.lt_succ_self _, rfl⟩
  · obtain ⟨hend, hbyte⟩ := getType_eq_ok_iff.mp htype
    exact ⟨lt_stop_of_not_atEnd hend, hbyte, Nat.lt_add_of_pos_right hheader.pos, rfl⟩

theorem enters_of_enterArray (h : enterArray data v = .ok w) : v.Enters data typeArr w :=
  enters_of_enterContainer h

theorem enters_of_enterMap (h : enterMap data v = .ok w) : v.Enters data typeMap w := by
  unfold enterMap at h
  split at h
  next => cases h
  next map hmap =>
    split at h
    · cases h
    · obtain rfl := Except.ok.inj h
      obtain ⟨hlt, htype, hcur, hstop⟩ := enters_of_enterContainer hmap
      exact ⟨hlt, htype, hcur, hstop⟩

/-! ## Skips -/

/-- Behind a container that was entered. -/
theorem follows_leaveContainer {type : ℕ} {u : Value} (h : v.Enters data type w)
    (hu : w.cur ≤ u.cur) : v.Follows (leaveContainer v u) ∧ u.cur ≤ (leaveContainer v u).cur := by
  have hcur : u.cur ≤ (leaveContainer v u).cur := by
    simp only [leaveContainer]
    split <;> omega
  have hlt := h.cur_lt
  exact ⟨⟨by omega, rfl, rfl⟩, hcur⟩

theorem follows_skipSimple (data : Bytes) (v : Value) : v.Follows (skipSimple data v).2 := by
  unfold skipSimple
  split
  · rfl
  · split
    · rfl
    · exact .advance v _

section Loops

variable {f g : Value → Option (ℤ × Value)} {n : ℕ} {res res' : ℤ}

theorem follows_skipItems (hf : ∀ v res w, f v = some (res, w) → v.Follows w)
    (h : skipItems data f n res v = some (res', w)) : v.Follows w := by
  induction n generalizing res v with
  | zero => cases h
  | succ n ih =>
      unfold skipItems at h
      split at h
      · obtain ⟨_, rfl⟩ : res = res' ∧ v = w := by simpa using h
        rfl
      · split at h
        next => cases h
        next res'' u hu =>
          split at h
          · obtain ⟨_, rfl⟩ : res'' = res' ∧ u = w := by simpa using h
            exact hf v _ _ hu
          · exact (hf v _ _ hu).trans (ih h)

/-- A loop whose skips succeed does not notice that others would too. -/
theorem skipItems_mono (hfg : ∀ v res w, f v = some (res, w) → 0 ≤ res → g v = some (res, w))
    (h : skipItems data f n res v = some (res', w)) (hres : 0 ≤ res') :
    skipItems data g n res v = some (res', w) := by
  induction n generalizing res v with
  | zero => cases h
  | succ n ih =>
      unfold skipItems at h ⊢
      split at h
      next hend => rwa [if_pos hend]
      next hend =>
        rw [if_neg hend]
        split at h
        next => cases h
        next res'' u hu =>
          by_cases hneg : res'' < 0
          · rw [if_pos hneg] at h
            obtain ⟨rfl, _⟩ : res'' = res' ∧ u = w := by simpa using h
            omega
          · rw [if_neg hneg] at h
            rw [hfg v _ _ hu (by omega)]
            simpa [hneg] using ih h

theorem skipItems_fuel_mono {x : ℤ × Value} {n' : ℕ} (hfg : ∀ v x, f v = some x → g v = some x)
    (hn : n ≤ n') (h : skipItems data f n res v = some x) :
    skipItems data g n' res v = some x := by
  induction n generalizing res v n' with
  | zero => cases h
  | succ n ih =>
      obtain ⟨n', rfl⟩ : ∃ k, n' = k + 1 := ⟨n' - 1, by omega⟩
      unfold skipItems at h ⊢
      split at h
      next hend => rwa [if_pos hend]
      next hend =>
        rw [if_neg hend]
        split at h
        next => cases h
        next res'' u hu =>
          rw [hfg v _ hu]
          dsimp only
          split at h
          next hneg => rwa [if_pos hneg]
          next hneg =>
            rw [if_neg hneg]
            exact ih (by omega) h

/-- A loop that succeeds skips the item that it has reached, if there is one. -/
theorem skipItems_next (hend : atEnd data v = false)
    (h : skipItems data f n res v = some (res', w)) (hres : 0 ≤ res') :
    ∃ n' res'' u, f v = some (res'', u) ∧ 0 ≤ res'' ∧
      skipItems data f n' res'' u = some (res', w) := by
  cases n with
  | zero => cases h
  | succ n =>
      unfold skipItems at h
      rw [if_neg (by simp [hend])] at h
      split at h
      next => cases h
      next res'' u hu =>
        by_cases hneg : res'' < 0
        · rw [if_pos hneg] at h
          obtain ⟨rfl, _⟩ : res'' = res' ∧ u = w := by simpa using h
          omega
        · rw [if_neg hneg] at h
          exact ⟨n, res'', u, hu, by omega, h⟩

theorem skipItems_atEnd (hend : atEnd data v = true)
    (h : skipItems data f n res v = some (res', w)) : w = v := by
  cases n with
  | zero => cases h
  | succ n =>
      unfold skipItems at h
      rw [if_pos hend] at h
      obtain ⟨_, rfl⟩ : res = res' ∧ v = w := by simpa using h
      rfl

end Loops

theorem clamp_nonneg_iff {res : ℤ} : 0 ≤ clamp res ↔ 0 ≤ res := by
  unfold clamp
  split <;> omega

/-- `nanocbor_enter_map` or `nanocbor_enter_array` -/
def enterType (data : Bytes) (type : ℕ) (v : Value) : Except ℤ Value :=
  if type = typeMap then enterMap data v else enterArray data v

theorem enters_of_enterType {type : ℕ} (htype : type = typeArr ∨ type = typeMap)
    (h : enterType data type v = .ok w) : v.Enters data type w := by
  unfold enterType at h
  rcases htype with rfl | rfl
  · exact enters_of_enterArray h
  · exact enters_of_enterMap h

/-- A skip at a container goes through its items and leaves it. -/
theorem skipLimited_container {fuel limit type : ℕ} {u : Value}
    (htype : type = typeArr ∨ type = typeMap) (hget : getType data v = .ok type)
    (henter : enterType data type v = .ok u) :
    skipLimited data fuel (limit + 1) v =
      (skipItems data (skipLimited data fuel limit) fuel 0 u).map fun x ↦
        (clamp x.1, leaveContainer v x.2) := by
  have hstr : ¬(type = typeBstr ∨ type = typeTstr) := by
    rcases htype with rfl | rfl <;> decide
  unfold enterType at henter
  simp only [skipLimited, hget, if_neg hstr, if_pos htype, henter]
  cases skipItems data (skipLimited data fuel limit) fuel 0 u <;> rfl

/-- The other skips do without recursion. -/
theorem skipLimited_flat (fuel fuel' limit limit' : ℕ) (h : ∀ type u, (type = typeArr ∨
    type = typeMap) → getType data v = .ok type → enterType data type v ≠ .ok u) :
    skipLimited data fuel (limit + 1) v = skipLimited data fuel' (limit' + 1) v ∧
      ∃ res w, skipLimited data fuel (limit + 1) v = some (res, w) ∧ v.Follows w := by
  unfold skipLimited
  cases hget : getType data v with
  | error e => exact ⟨rfl, e, v, rfl, .refl v⟩
  | ok type =>
      dsimp only
      by_cases hstr : type = typeBstr ∨ type = typeTstr
      · simp only [if_pos hstr]
        exact ⟨trivial, _, _, rfl, follows_getStr data v type⟩
      · by_cases hcont : type = typeArr ∨ type = typeMap
        · simp only [if_neg hstr, if_pos hcont]
          have hno := fun u ↦ h type u hcont hget
          unfold enterType at hno
          cases henter : if type = typeMap then enterMap data v else enterArray data v with
          | error e => exact ⟨rfl, e, v, rfl, .refl v⟩
          | ok u => exact absurd henter (hno u)
        · simp only [if_neg hstr, if_neg hcont]
          exact ⟨trivial, _, _, rfl, follows_skipSimple data v⟩

theorem flat_or_container (data : Bytes) (v : Value) :
    (∀ type u, (type = typeArr ∨ type = typeMap) → getType data v = .ok type →
      enterType data type v ≠ .ok u) ∨
    ∃ type u, (type = typeArr ∨ type = typeMap) ∧ getType data v = .ok type ∧
      enterType data type v = .ok u := by
  by_cases h : ∃ type u, (type = typeArr ∨ type = typeMap) ∧ getType data v = .ok type ∧
      enterType data type v = .ok u
  · exact .inr h
  · exact .inl fun type u htype hget henter ↦ h ⟨type, u, htype, hget, henter⟩

theorem follows_skipLimited {fuel limit : ℕ} {res : ℤ}
    (h : skipLimited data fuel limit v = some (res, w)) : v.Follows w := by
  induction limit generalizing v res w with
  | zero =>
      obtain ⟨_, rfl⟩ : errRecursion = res ∧ v = w := by simpa [skipLimited] using h
      rfl
  | succ limit ih =>
      rcases flat_or_container data v with hflat | ⟨type, u, htype, hget, henter⟩
      · obtain ⟨_, res', w', hw', hfollows⟩ :=
          skipLimited_flat fuel fuel limit limit hflat
        obtain ⟨_, rfl⟩ : res' = res ∧ w' = w := by simpa [hw'] using h
        exact hfollows
      · rw [skipLimited_container htype hget henter, Option.map_eq_some_iff] at h
        obtain ⟨⟨res', e⟩, hitems, heq⟩ := h
        obtain ⟨_, rfl⟩ : clamp res' = res ∧ leaveContainer v e = w := by simpa using heq
        have hfollows := follows_skipItems (fun _ _ _ h ↦ ih h) hitems
        exact (follows_leaveContainer (enters_of_enterType htype henter) hfollows.cur_le).1

/-- A skip that succeeds does so under a larger recursion limit. -/
theorem skipLimited_mono {fuel limit : ℕ} {res : ℤ}
    (h : skipLimited data fuel limit v = some (res, w)) (hres : 0 ≤ res) :
    skipLimited data fuel (limit + 1) v = some (res, w) := by
  induction limit generalizing v res w with
  | zero =>
      obtain ⟨rfl, _⟩ : errRecursion = res ∧ v = w := by simpa [skipLimited] using h
      simp at hres
  | succ limit ih =>
      rcases flat_or_container data v with hflat | ⟨type, u, htype, hget, henter⟩
      · rw [← h]
        exact (skipLimited_flat _ _ _ _ hflat).1
      · rw [skipLimited_container htype hget henter, Option.map_eq_some_iff] at h ⊢
        obtain ⟨⟨res', e⟩, hitems, heq⟩ := h
        obtain ⟨rfl, rfl⟩ : clamp res' = res ∧ leaveContainer v e = w := by simpa using heq
        exact ⟨(res', e), skipItems_mono (fun _ _ _ h ↦ ih h) hitems
          (clamp_nonneg_iff.mp hres), rfl⟩

theorem skipLimited_fuel_mono {fuel fuel' limit : ℕ} {x : ℤ × Value} (hfuel : fuel ≤ fuel')
    (h : skipLimited data fuel limit v = some x) : skipLimited data fuel' limit v = some x := by
  induction limit generalizing v x with
  | zero => exact h
  | succ limit ih =>
      rcases flat_or_container data v with hflat | ⟨type, u, htype, hget, henter⟩
      · rw [← h]
        exact (skipLimited_flat _ _ _ _ hflat).1
      · rw [skipLimited_container htype hget henter, Option.map_eq_some_iff] at h ⊢
        obtain ⟨y, hitems, heq⟩ := h
        exact ⟨y, skipItems_fuel_mono (fun _ _ h ↦ ih h) hfuel hitems, heq⟩

theorem skipLimited_int {fuel limit : ℕ} {i : ℤ} (h : getInt32 data v = .ok (i, w)) :
    skipLimited data fuel (limit + 1) v = some (0, w) := by
  obtain ⟨type, res, n, hint, hget, hheader, rfl⟩ := getInt32_ok h
  have hstr : ¬(type = typeBstr ∨ type = typeTstr) := by
    rcases hint with rfl | rfl <;> decide
  have hcont : ¬(type = typeArr ∨ type = typeMap) := by
    rcases hint with rfl | rfl <;> decide
  have hlong : getUint64 data v sizeLong type = .ok (res, n) :=
    getUint64_eq_ok_iff.mpr ⟨hget, hheader.widen (by decide)⟩
  have hclamp : clamp (res : ℤ) = 0 := if_neg (by omega)
  simp only [skipLimited, hget, if_neg hstr, if_neg hcont, skipSimple, hlong, hclamp]

theorem skipLimited_bstr {fuel limit : ℕ} (h : (getStr data v typeBstr).res = 0) :
    skipLimited data fuel (limit + 1) v = some (0, (getStr data v typeBstr).next) := by
  rcases getStr_cases data v typeBstr with ⟨hneg, _, _⟩ | ⟨res, len, hget, _, _, _, hstr⟩
  · omega
  · simp only [skipLimited, hget, true_or, if_true, hstr, clamp]
    rfl

end CkbAuth.Nanocbor
