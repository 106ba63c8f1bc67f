import CkbAuth.NanocborSpec
import Mathlib.Data.List.Induction

/-!
# Loops that do not end

A string moves the cursor by the sum of its length and the size of its header,
as an `unsigned int`.  Where that sum is 0 the loop over an indefinite container
stays at the string for ever.  Every other item moves the cursor or is counted,
so there is no other way for `nanocbor_skip` not to end.
-/

namespace CkbAuth.Nanocbor

open CkbAuth

variable {data : Bytes} {u v w : Value} {limit : ℕ} {res : ℤ}

/-! ## The steps of a walk -/

/-- A string that takes no room. -/
structure ZeroStep (data : Bytes) (v : Value) : Prop where
  exists_header : ∃ type res len, (type = typeBstr ∨ type = typeTstr) ∧
    getType data v = .ok type ∧ HeaderBytes data v sizeSizet res len ∧
    (len + res) % 2 ^ 64 ≤ v.stop - v.cur ∧ (res + len) % 2 ^ 64 % 2 ^ 32 = 0

def Skips (data : Bytes) (limit : ℕ) (v : Value) (res : ℤ) (w : Value) : Prop :=
  ∃ fuel, skipLimited data fuel limit v = some (res, w)

theorem Skips.follows (h : Skips data limit v res w) : v.Follows w :=
  h.elim fun _ h ↦ follows_skipLimited h

/-- Two numbers of iterations do not lead to two results. -/
theorem Skips.eq_of_skipLimited {fuel : ℕ} {x : ℤ × Value} (h : Skips data limit v res w)
    (hx : skipLimited data fuel limit v = some x) : x = (res, w) := by
  obtain ⟨fuel', h⟩ := h
  have h₁ := skipLimited_fuel_mono (Nat.le_max_left fuel fuel') hx
  have h₂ := skipLimited_fuel_mono (Nat.le_max_right fuel fuel') h
  exact Option.some.inj (h₁.symm.trans h₂)

/-- The cursors that the loop over the items of a container comes to. -/
inductive ItemsReach (data : Bytes) (limit : ℕ) : Value → Value → Prop
  | refl (v : Value) : ItemsReach data limit v v
  | step {u v w : Value} {res : ℤ} (hend : atEnd data v = false)
      (hskip : Skips data limit v res u) (hres : 0 ≤ res) (hrest : ItemsReach data limit u w) :
      ItemsReach data limit v w

theorem ItemsReach.follows (h : ItemsReach data limit v w) : v.Follows w := by
  induction h with
  | refl v => exact .refl v
  | step _ hskip _ _ ih => exact hskip.follows.trans ih

/-- The skip runs into a string that takes no room, in an indefinite container. -/
def SkipStuck (data : Bytes) : (limit : ℕ) → Value → Prop
  | 0, _ => False
  | limit + 1, v => ∃ type u w, (type = typeArr ∨ type = typeMap) ∧ getType data v = .ok type ∧
      enterType data type v = .ok u ∧ ItemsReach data limit u w ∧ atEnd data w = false ∧
      ((limit ≠ 0 ∧ containerIndefinite w = true ∧ ZeroStep data w) ∨ SkipStuck data limit w)

/-! ## A step moves or counts -/

theorem getType_error_neg {e : ℤ} (h : getType data v = .error e) : e < 0 := by
  unfold getType at h
  split at h
  · obtain rfl : errEnd = e := by simpa using h
    decide
  · cases h

theorem enterContainer_error_neg {type : ℕ} {e : ℤ}
    (h : enterContainer data v type = .error e) : e < 0 := by
  unfold enterContainer at h
  split at h
  · cases h
  · split at h
    next e' huint =>
      obtain rfl : e' = e := by simpa using h
      exact getUint64_error_neg huint
    next => cases h

theorem enterType_error_neg {type : ℕ} {e : ℤ} (h : enterType data type v = .error e) :
    e < 0 := by
  unfold enterType enterMap enterArray at h
  split at h
  · split at h
    next e' henter =>
      obtain rfl : e' = e := by simpa using h
      exact enterContainer_error_neg henter
    next =>
      split at h
      · obtain rfl : errOverflow = e := by simpa using h
        decide
      · cases h
  · exact enterContainer_error_neg h

theorem getStr_of_header {type res len : ℕ} (hget : getType data v = .ok type)
    (hheader : HeaderBytes data v sizeSizet res len) (hle : v.cur ≤ v.stop)
    (hroom : (len + res) % 2 ^ 64 ≤ v.stop - v.cur) :
    getStr data v type = ⟨0, some (v.cur + res), len, advance v ((res + len) % 2 ^ 64)⟩ := by
  have huint := getUint64_eq_ok_iff.mpr ⟨hget, hheader⟩
  simp only [getStr, huint]
  rw [if_neg (by omega)]

/-- What a skip that succeeds leaves of the items to come. -/
structure Progress (data : Bytes) (v w : Value) : Prop where
  remaining_lt : v.remaining ≠ 0 → w.remaining < v.remaining
  moves : v.cur < w.cur ∨ ZeroStep data v

theorem remaining_advance_lt {n : ℕ} (h : v.remaining ≠ 0) :
    (advance v n).remaining < v.remaining := by
  simp only [advance]
  omega

theorem progress_getStr {type : ℕ} (htype : type = typeBstr ∨ type = typeTstr)
    (h : 0 ≤ (getStr data v type).res) : Progress data v (getStr data v type).next := by
  rcases getStr_cases data v type with ⟨hneg, _, _⟩ | ⟨res, len, hget, hheader, hle, hroom, hstr⟩
  · omega
  · rw [hstr]
    refine ⟨remaining_advance_lt, ?_⟩
    by_cases hzero : (res + len) % 2 ^ 64 % 2 ^ 32 = 0
    · exact .inr ⟨type, res, len, htype, hget, hheader, hroom, hzero⟩
    · exact .inl (Nat.lt_add_of_pos_right (Nat.pos_of_ne_zero hzero))

theorem progress_skipSimple (h : 0 ≤ (skipSimple data v).1) :
    Progress data v (skipSimple data v).2 := by
  unfold skipSimple at h ⊢
  cases hget : getType data v with
  | error e =>
      have hneg := getType_error_neg hget
      rw [hget] at h
      dsimp only at h
      omega
  | ok type =>
      simp only [hget] at h ⊢
      cases huint : getUint64 data v sizeLong type with
      | error e =>
          have hneg := getUint64_error_neg huint
          rw [huint] at h
          dsimp only at h
          omega
      | ok header =>
          obtain ⟨res, n⟩ := header
          have hheader := (getUint64_eq_ok_iff.mp huint).2
          have hpos := hheader.pos
          have hsmall := hheader.small
          refine ⟨remaining_advance_lt, .inl ?_⟩
          rw [advance_cur (by omega)]
          omega

theorem progress_leaveContainer {type : ℕ} (henters : v.Enters data type u) (hu : u.cur ≤ w.cur) :
    Progress data v (leaveContainer v w) := by
  have hlt := henters.cur_lt
  have hle := (follows_leaveContainer henters hu).2
  refine ⟨fun h ↦ ?_, .inl (by omega)⟩
  simp only [leaveContainer]
  omega

theorem progress_skipLimited {fuel : ℕ} (h : skipLimited data fuel limit v = some (res, w))
    (hres : 0 ≤ res) : Progress data v w := by
  cases limit with
  | zero =>
      obtain ⟨rfl, _⟩ : errRecursion = res ∧ v = w := by simpa [skipLimited] using h
      simp at hres
  | succ limit =>
      cases hget : getType data v with
      | error e =>
          have hneg := getType_error_neg hget
          obtain ⟨rfl, _⟩ : e = res ∧ v = w := by simpa [skipLimited, hget] using h
          omega
      | ok type =>
          by_cases hstr : type = typeBstr ∨ type = typeTstr
          · simp only [skipLimited, hget, if_pos hstr, Option.some.injEq, Prod.mk.injEq] at h
            obtain ⟨rfl, rfl⟩ := h
            exact progress_getStr hstr (clamp_nonneg_iff.mp hres)
          · by_cases hcont : type = typeArr ∨ type = typeMap
            · cases henter : enterType data type v with
              | error e =>
                  have hneg := enterType_error_neg henter
                  unfold enterType at henter
                  simp only [skipLimited, hget, if_neg hstr, if_pos hcont, henter,
                    Option.some.injEq, Prod.mk.injEq] at h
                  obtain ⟨rfl, _⟩ := h
                  omega
              | ok u =>
                  rw [skipLimited_container hcont hget henter, Option.map_eq_some_iff] at h
                  obtain ⟨⟨res', e⟩, hitems, heq⟩ := h
                  obtain ⟨_, rfl⟩ : clamp res' = res ∧ leaveContainer v e = w := by simpa using heq
                  have hfollows := follows_skipItems (fun _ _ _ h ↦ follows_skipLimited h) hitems
                  exact progress_leaveContainer (enters_of_enterType hcont henter) hfollows.cur_le
            · simp only [skipLimited, hget, if_neg hstr, if_neg hcont, Option.some.injEq,
                Prod.mk.injEq] at h
              obtain ⟨rfl, rfl⟩ := h
              exact progress_skipSimple (clamp_nonneg_iff.mp hres)

/-! ## Skips that do not end -/

theorem ZeroStep.skipLimited {fuel : ℕ} (hzero : ZeroStep data v) (hend : atEnd data v = false) :
    skipLimited data fuel (limit + 1) v =
      some (0, { v with remaining := (v.remaining + (2 ^ 32 - 1)) % 2 ^ 32 }) := by
  obtain ⟨type, size, len, hstr, hget, hheader, hroom, hstep⟩ := hzero
  have hlt := lt_stop_of_not_atEnd hend
  simp only [Nanocbor.skipLimited, hget, if_pos hstr,
    getStr_of_header hget hheader (Nat.le_of_lt hlt) hroom, advance, hstep, Nat.add_zero]
  rfl

theorem skipItems_zeroStep {fuel n : ℕ} (hend : atEnd data w = false)
    (hindef : containerIndefinite w = true) (hzero : ZeroStep data w) (remaining : ℕ) :
    skipItems data (skipLimited data fuel (limit + 1)) n res { w with remaining } = none := by
  obtain ⟨type, size, len, hstr, hget, hheader, hroom, hstep⟩ := hzero
  induction n generalizing res remaining with
  | zero => rfl
  | succ n ih =>
      -- in an indefinite container the count is not looked at
      have hend' : atEnd data { w with remaining } = false := by
        have hindef' : containerIndefinite { w with remaining } = true := hindef
        simp only [atEnd, hindef, hindef', Bool.true_and, Bool.not_true, Bool.false_and,
          Bool.or_false] at hend ⊢
        exact hend
      have hget' : getType data { w with remaining } = .ok type :=
        getType_eq_ok_iff.mpr ⟨hend', (getType_eq_ok_iff.mp hget).2⟩
      have hzero' : ZeroStep data { w with remaining } :=
        ⟨type, size, len, hstr, hget', hheader, hroom, hstep⟩
      unfold skipItems
      rw [if_neg (by simp [hend']), hzero'.skipLimited hend']
      exact ih _

/-- A loop that comes to where it does not end does not end. -/
theorem skipItems_of_reach {fuel : ℕ} (hreach : ItemsReach data limit v w)
    (hw : ∀ n res, skipItems data (skipLimited data fuel limit) n res w = none) (n : ℕ) (res : ℤ) :
    skipItems data (skipLimited data fuel limit) n res v = none := by
  induction hreach generalizing n res with
  | refl v => exact hw n res
  | step hend hskip hres _ ih =>
      cases n with
      | zero => rfl
      | succ n =>
          unfold skipItems
          rw [if_neg (by simp [hend])]
          split
          next => rfl
          next res' u' hu' =>
            obtain ⟨rfl, rfl⟩ := Prod.mk.inj (hskip.eq_of_skipLimited hu')
            rw [if_neg (by omega)]
            exact ih hw n _

theorem skipLimited_of_stuck {fuel : ℕ} (h : SkipStuck data limit v) :
    skipLimited data fuel limit v = none := by
  induction limit generalizing v with
  | zero => exact h.elim
  | succ limit ih =>
      obtain ⟨type, u, w, htype, hget, henter, hreach, hend, hstuck⟩ := h
      rw [skipLimited_container htype hget henter, Option.map_eq_none_iff]
      refine skipItems_of_reach hreach (fun n res ↦ ?_) fuel 0
      rcases hstuck with ⟨hlimit, hindef, hzero⟩ | hstuck
      · obtain ⟨limit, rfl⟩ := Nat.exists_eq_succ_of_ne_zero hlimit
        exact skipItems_zeroStep hend hindef hzero w.remaining
      · cases n with
        | zero => rfl
        | succ n =>
            unfold skipItems
            rw [if_neg (by simp [hend]), ih hstuck]

/-- How far a loop is from the end of its container. -/
def itemsLeft (v : Value) : ℕ :=
  if containerIndefinite v = true then v.stop - v.cur else v.remaining

theorem itemsLeft_lt (hcont : inContainer v = true) (hend : atEnd data v = false)
    (hfollows : v.Follows w) (hprogress : Progress data v w)
    (hzero : ¬(containerIndefinite v = true ∧ ZeroStep data v)) : itemsLeft w < itemsLeft v := by
  have hlt := lt_stop_of_not_atEnd hend
  have hle := hfollows.cur_le
  have hstop := hfollows.stop_eq
  have hflags : containerIndefinite w = containerIndefinite v := by
    simp only [containerIndefinite, hfollows.flags_eq]
  unfold itemsLeft
  rw [hflags]
  cases hindef : containerIndefinite v with
  | true =>
      simp only [if_true]
      rcases hprogress.moves with hmoves | hstays
      · omega
      · exact absurd ⟨hindef, hstays⟩ hzero
  | false =>
      have hremaining : v.remaining ≠ 0 := by
        rintro hnone
        simp [atEnd, hindef, hcont, hnone] at hend
      simpa using hprogress.remaining_lt hremaining

/-- A turn of the loop over the items of a container: an item is skipped, and the
loop goes on behind it. -/
structure ItemStep (data : Bytes) (limit : ℕ) (v w : Value) : Prop where
  inContainer : inContainer v = true
  not_atEnd : atEnd data v = false
  exists_skip : ∃ res, Skips data limit v res w ∧ 0 ≤ res

/-- A turn of the loop takes it nearer to the end of its container, but for a
string that takes no room in an indefinite one. -/
theorem ItemStep.itemsLeft_lt_iff (h : ItemStep data limit v w) :
    itemsLeft w < itemsLeft v ↔ ¬(containerIndefinite v = true ∧ ZeroStep data v) := by
  obtain ⟨hcont, hend, res, ⟨fuel, hskip⟩, hres⟩ := h
  refine ⟨?_, itemsLeft_lt hcont hend (follows_skipLimited hskip) (progress_skipLimited hskip hres)⟩
  rintro hlt ⟨hindef, hzero⟩
  cases limit with
  | zero =>
      obtain ⟨rfl, _⟩ : errRecursion = res ∧ v = w := by simpa [skipLimited] using hskip
      simp at hres
  | succ limit =>
      -- the cursor stays, and here nothing else is counted
      obtain ⟨_, rfl⟩ := Prod.mk.inj (Option.some.inj (hskip.symm.trans (hzero.skipLimited hend)))
      have hflags : itemsLeft { v with remaining := (v.remaining + (2 ^ 32 - 1)) % 2 ^ 32 } =
          itemsLeft v := by
        have hindef' : v.flags = decoderFlagIndefinite ||| decoderFlagContainer :=
          of_decide_eq_true hindef
        simp only [itemsLeft, containerIndefinite, hindef', decide_true, if_true]
      omega

/-- A loop over skips that end ends, if it does not come to a string that takes
no room. -/
theorem skipItems_ends {fuel n : ℕ} (hskip : ∀ w, w.stop = v.stop → ¬SkipStuck data limit w →
      ∃ x, skipLimited data fuel limit w = some x) (hcont : inContainer v = true)
    (hstuck : ∀ w, ItemsReach data limit v w → atEnd data w = false →
      ¬(limit ≠ 0 ∧ containerIndefinite w = true ∧ ZeroStep data w) ∧ ¬SkipStuck data limit w)
    (hn : itemsLeft v < n) :
    ∃ x, skipItems data (skipLimited data fuel limit) n res v = some x := by
  induction n generalizing v res with
  | zero => omega
  | succ n ih =>
      cases hend : atEnd data v with
      | true =>
          refine ⟨(res, v), ?_⟩
          rw [skipItems, if_pos hend]
      | false =>
          obtain ⟨hzero, hv⟩ := hstuck v (.refl v) hend
          obtain ⟨⟨res₁, u⟩, hu⟩ := hskip v rfl hv
          rw [skipItems, if_neg (by simp [hend]), hu]
          dsimp only
          by_cases hneg : res₁ < 0
          · exact ⟨_, if_pos hneg⟩
          · have hres₁ : 0 ≤ res₁ := by omega
            have hlimit : limit ≠ 0 := by
              rintro rfl
              obtain ⟨rfl, _⟩ : errRecursion = res₁ ∧ v = u := by simpa [skipLimited] using hu
              simp at hres₁
            have hfollows := follows_skipLimited hu
            have hlt := itemsLeft_lt hcont hend hfollows (progress_skipLimited hu hres₁)
              fun h ↦ hzero ⟨hlimit, h⟩
            have hcont' : inContainer u = true := by
              simpa only [inContainer, hfollows.flags_eq] using hcont
            rw [if_neg hneg]
            exact ih (fun w hw ↦ hskip w (hw.trans hfollows.stop_eq)) hcont'
              (fun w hw ↦ hstuck w (.step hend ⟨fuel, hu⟩ hres₁ hw)) (by omega)

theorem inContainer_of_enterContainer {type : ℕ} (h : enterContainer data v type = .ok w) :
    inContainer w = true := by
  rcases enterContainer_cases h with ⟨_, _, rfl⟩ | ⟨_, _, _, _, rfl⟩
  · exact decide_eq_true
      (show (decoderFlagIndefinite ||| decoderFlagContainer) &&& decoderFlagContainer ≠ 0 by decide)
  · exact decide_eq_true (show decoderFlagContainer &&& decoderFlagContainer ≠ 0 by decide)

theorem inContainer_of_enterType {type : ℕ} (h : enterType data type v = .ok w) :
    inContainer w = true := by
  unfold enterType enterMap enterArray at h
  split at h
  · split at h
    next => cases h
    next map hmap =>
      split at h
      · cases h
      · obtain rfl := Except.ok.inj h
        have hcontainer := inContainer_of_enterContainer hmap
        exact hcontainer
  · exact inContainer_of_enterContainer h

/-- Enough iterations for every loop over `n` bytes. -/
def iterationBound (n : ℕ) : ℕ := max n (2 ^ 32) + 1

theorem beToNat_snoc (bs : Bytes) (b : UInt8) :
    beToNat (bs ++ [b]) = beToNat bs * 256 + b.toNat := by
  simp [beToNat]

theorem beToNat_lt (bs : Bytes) : beToNat bs < 256 ^ bs.length := by
  induction bs using List.reverseRecOn with
  | nil => simp [beToNat]
  | append_singleton bs b ih =>
      have hb := b.toNat_lt
      rw [beToNat_snoc, List.length_append, List.length_singleton, Nat.pow_succ]
      omega

theorem HeaderBytes.word_lt {n size : ℕ} (h : HeaderBytes data v sizeWord size n) : n < 2 ^ 32 := by
  rcases h with ⟨_, _, rfl⟩ | ⟨_, hle, _, _, rfl⟩
  · omega
  · refine (beToNat_lt _).trans_le ?_
    have hfour : 2 ^ (deref data v.cur % 32 - 24) ≤ 2 ^ 2 :=
      Nat.pow_le_pow_right (by decide) (by simp only [sizeWord] at hle; omega)
    calc 256 ^ ((data.drop (v.cur + 1)).take (2 ^ (deref data v.cur % 32 - 24))).length
        ≤ 256 ^ 4 := Nat.pow_le_pow_right (by decide) (by rw [List.length_take]; omega)
      _ = 2 ^ 32 := rfl

theorem remaining_of_enterContainer {type : ℕ} (h : enterContainer data v type = .ok w) :
    w.remaining < 2 ^ 32 := by
  rcases enterContainer_cases h with ⟨_, _, rfl⟩ | ⟨_, n, _, hheader, rfl⟩
  · exact Nat.two_pow_pos 32
  · exact hheader.word_lt

theorem remaining_of_enterType {type : ℕ} (h : enterType data type v = .ok w) :
    w.remaining < 2 ^ 32 := by
  unfold enterType enterMap enterArray at h
  split at h
  · split at h
    next => cases h
    next map hmap =>
      split at h
      · cases h
      next hsmall =>
        obtain rfl := Except.ok.inj h
        dsimp only
        omega
  · exact remaining_of_enterContainer h

/-- A loop over a container has no more items to come than the bound. -/
theorem itemsLeft_of_enterType {type : ℕ} (h : enterType data type v = .ok w) :
    itemsLeft w < iterationBound w.stop := by
  have hremaining := remaining_of_enterType h
  unfold itemsLeft iterationBound
  split
  · omega
  · omega

theorem skipLimited_ends {fuel : ℕ} (hfuel : iterationBound v.stop ≤ fuel)
    (h : ¬SkipStuck data limit v) : ∃ x, skipLimited data fuel limit v = some x := by
  induction limit generalizing v with
  | zero => exact ⟨_, rfl⟩
  | succ limit ih =>
      rcases flat_or_container data v with hflat | ⟨type, u, htype, hget, henter⟩
      · obtain ⟨_, res, w, hw, _⟩ := skipLimited_flat fuel 0 limit limit hflat
        exact ⟨_, hw⟩
      · have hstop := (enters_of_enterType htype henter).stop_eq
        have hleft := itemsLeft_of_enterType henter
        rw [hstop] at hleft
        have hitems : ∃ x, skipItems data (skipLimited data fuel limit) fuel 0 u = some x :=
          skipItems_ends (fun w hw hno ↦ ih (by rwa [hw, hstop]) hno)
            (inContainer_of_enterType henter)
            (fun w hreach hend ↦
              ⟨fun hzero ↦ h ⟨type, u, w, htype, hget, henter, hreach, hend, .inl hzero⟩,
                fun hstuck ↦ h ⟨type, u, w, htype, hget, henter, hreach, hend, .inr hstuck⟩⟩)
            (by omega)
        obtain ⟨x, hx⟩ := hitems
        refine ⟨(clamp x.1, leaveContainer v x.2), ?_⟩
        rw [skipLimited_container htype hget henter, hx]
        rfl

end CkbAuth.Nanocbor
