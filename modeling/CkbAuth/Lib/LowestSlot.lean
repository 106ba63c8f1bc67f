import Mathlib.Algebra.Order.Ring.Int
import Mathlib.Data.Finset.Card
import Mathlib.Data.Finset.Image
import Mathlib.Data.Set.Function

/-!
# Handing each request the lowest free slot

Slots `0 .. n-1` carry labels.  Requests arrive one after the other, and each
takes the lowest free slot with its own label.  The greedy choice loses
nothing: it serves all requests exactly when they can be assigned to distinct
slots at all, and the slots it uses contain every initial segment that some
assignment uses.
-/

namespace LowestSlot

open Finset

variable {α : Type} [DecidableEq α]

/-- The lowest slot below `n` that is not in `used` and carries the label `a`. -/
def lowest (slot : ℕ → α) (n : ℕ) (used : Finset ℕ) (a : α) : Option ℕ :=
  (List.range n).find? fun i ↦ i ∉ used ∧ slot i = a

theorem lowest_eq_some_iff {slot : ℕ → α} {n i : ℕ} {used : Finset ℕ} {a : α} :
    lowest slot n used a = some i ↔
      (i < n ∧ i ∉ used ∧ slot i = a) ∧ ∀ j < i, slot j = a → j ∈ used := by
  simp only [lowest, List.find?_range_eq_some, decide_eq_true_eq, List.mem_range,
    Bool.not_eq_true', decide_eq_false_iff_not, not_and]
  constructor
  · rintro ⟨⟨hu, hs⟩, hn, hlow⟩
    refine ⟨⟨hn, hu, hs⟩, fun j hj ha ↦ ?_⟩
    by_contra hju
    exact hlow j hj hju ha
  · rintro ⟨⟨hn, hu, hs⟩, hlow⟩
    exact ⟨⟨hu, hs⟩, hn, fun j hj hju ha ↦ hju (hlow j hj ha)⟩

theorem lowest_eq_none_iff {slot : ℕ → α} {n : ℕ} {used : Finset ℕ} {a : α} :
    lowest slot n used a = none ↔ ∀ i < n, slot i = a → i ∈ used := by
  simp only [lowest, List.find?_eq_none, List.mem_range, decide_eq_true_eq, not_and]
  exact ⟨fun h i hi ha ↦ by_contra fun hu ↦ h i hi hu ha, fun h i hi hu ha ↦ hu (h i hi ha)⟩

/-- The slots in use after the first `k` requests, if all of them were served. -/
def serve (slot : ℕ → α) (n : ℕ) (req : ℕ → α) : ℕ → Option (Finset ℕ)
  | 0 => some ∅
  | k + 1 => (serve slot n req k).bind fun used ↦
      (lowest slot n used (req k)).map fun i ↦ insert i used

@[simp] theorem serve_zero (slot : ℕ → α) (n : ℕ) (req : ℕ → α) :
    serve slot n req 0 = some ∅ := rfl

theorem serve_succ (slot : ℕ → α) (n : ℕ) (req : ℕ → α) (k : ℕ) :
    serve slot n req (k + 1) = (serve slot n req k).bind fun used ↦
      (lowest slot n used (req k)).map fun i ↦ insert i used := rfl

theorem serve_succ_eq_some_iff {slot : ℕ → α} {n k : ℕ} {req : ℕ → α} {used' : Finset ℕ} :
    serve slot n req (k + 1) = some used' ↔ ∃ used i, serve slot n req k = some used ∧
      lowest slot n used (req k) = some i ∧ insert i used = used' := by
  simp only [serve_succ, Option.bind_eq_some_iff, Option.map_eq_some_iff]
  exact ⟨fun ⟨u, hu, i, hi, he⟩ ↦ ⟨u, i, hu, hi, he⟩, fun ⟨u, i, hu, hi, he⟩ ↦ ⟨u, hu, i, hi, he⟩⟩

theorem serve_none_of_le {slot : ℕ → α} {n k l : ℕ} {req : ℕ → α}
    (h : serve slot n req k = none) (hl : k ≤ l) : serve slot n req l = none := by
  induction l, hl using Nat.le_induction with
  | base => exact h
  | succ l _ ih => rw [serve_succ, ih, Option.bind_none]

/-- What the greedy choice maintains: within each label the used slots are the
lowest ones, and there are as many of them as requests for that label. -/
structure Inv (slot : ℕ → α) (n : ℕ) (req : ℕ → α) (k : ℕ) (used : Finset ℕ) : Prop where
  lt : ∀ i ∈ used, i < n
  closed : ∀ i ∈ used, ∀ j < i, slot j = slot i → j ∈ used
  count : ∀ a, #{i ∈ used | slot i = a} = #{j ∈ range k | req j = a}

theorem Inv.step {slot : ℕ → α} {n k i : ℕ} {req : ℕ → α} {used : Finset ℕ}
    (h : Inv slot n req k used) (hi : lowest slot n used (req k) = some i) :
    Inv slot n req (k + 1) (insert i used) := by
  obtain ⟨⟨hn, hfree, hlabel⟩, hlow⟩ := lowest_eq_some_iff.mp hi
  refine ⟨?_, ?_, ?_⟩
  · intro j hj
    rcases mem_insert.mp hj with rfl | hj
    · exact hn
    · exact h.lt j hj
  · intro j hj l hl heq
    apply mem_insert_of_mem
    rcases mem_insert.mp hj with rfl | hj
    · exact hlow l hl (heq.trans hlabel)
    · exact h.closed j hj l hl heq
  · intro a
    rw [range_add_one, filter_insert, filter_insert, hlabel]
    by_cases ha : req k = a
    · rw [if_pos ha, if_pos ha, card_insert_of_notMem, card_insert_of_notMem, h.count a]
      · simp
      · simp [hfree]
    · rw [if_neg ha, if_neg ha, h.count a]

theorem serve_inv {slot : ℕ → α} {n : ℕ} {req : ℕ → α} {k : ℕ} {used : Finset ℕ}
    (h : serve slot n req k = some used) : Inv slot n req k used := by
  induction k generalizing used with
  | zero =>
      obtain rfl : ∅ = used := by simpa using h
      exact ⟨by simp, by simp, by simp⟩
  | succ k ih =>
      obtain ⟨before, i, hbefore, hi, rfl⟩ := serve_succ_eq_some_iff.mp h
      exact (ih hbefore).step hi

/-- An assignment of the first `k` requests to distinct slots with their labels. -/
structure Assigns (slot : ℕ → α) (n : ℕ) (req : ℕ → α) (k : ℕ) (f : ℕ → ℕ) : Prop where
  injOn : Set.InjOn f (Set.Iio k)
  lt : ∀ j < k, f j < n
  label : ∀ j < k, slot (f j) = req j

/-- The greedy choice is an assignment, and uses just the slots it assigns. -/
theorem serve_assigns {slot : ℕ → α} {n : ℕ} {req : ℕ → α} {k : ℕ} {used : Finset ℕ}
    (h : serve slot n req k = some used) :
    ∃ f, Assigns slot n req k f ∧ (range k).image f = used := by
  induction k generalizing used with
  | zero =>
      obtain rfl : ∅ = used := by simpa using h
      exact ⟨id, ⟨by simp, by simp, by simp⟩, by simp⟩
  | succ k ih =>
      obtain ⟨before, i, hbefore, hi, rfl⟩ := serve_succ_eq_some_iff.mp h
      obtain ⟨f, hf, himage⟩ := ih hbefore
      obtain ⟨⟨hn, hfree, hlabel⟩, -⟩ := lowest_eq_some_iff.mp hi
      -- request `k` gets the new slot, the earlier ones keep theirs
      have hold : ∀ j < k, Function.update f k i j = f j := fun j hj ↦
        Function.update_of_ne hj.ne i f
      have hfresh : ∀ j < k, f j ≠ i := by
        rintro j hj rfl
        exact hfree (himage ▸ mem_image_of_mem f (mem_range.mpr hj))
      refine ⟨Function.update f k i, ⟨?_, ?_, ?_⟩, ?_⟩
      · intro j hj l hl heq
        rcases Nat.lt_succ_iff_lt_or_eq.mp hj with hj | rfl <;>
          rcases Nat.lt_succ_iff_lt_or_eq.mp hl with hl | rfl
        · rw [hold j hj, hold l hl] at heq
          exact hf.injOn hj hl heq
        · rw [hold j hj, Function.update_self] at heq
          exact (hfresh j hj heq).elim
        · rw [hold l hl, Function.update_self] at heq
          exact (hfresh l hl heq.symm).elim
        · rfl
      · intro j hj
        rcases Nat.lt_succ_iff_lt_or_eq.mp hj with hj | rfl
        · rw [hold j hj]
          exact hf.lt j hj
        · rwa [Function.update_self]
      · intro j hj
        rcases Nat.lt_succ_iff_lt_or_eq.mp hj with hj | rfl
        · rw [hold j hj]
          exact hf.label j hj
        · rwa [Function.update_self]
      · rw [range_add_one, image_insert, Function.update_self, ← himage]
        congr 1
        exact image_congr fun j hj ↦ hold j (mem_range.mp hj)

/-- An assignment puts the requests for one label into that label's slots. -/
theorem Assigns.card_le {slot : ℕ → α} {n : ℕ} {req : ℕ → α} {k : ℕ} {f : ℕ → ℕ}
    (h : Assigns slot n req k f) (a : α) :
    #{j ∈ range k | req j = a} ≤ #{i ∈ range n | slot i = a} := by
  apply card_le_card_of_injOn f
  · intro j hj
    obtain ⟨hj, ha⟩ := mem_filter.mp hj
    have hj := mem_range.mp hj
    exact mem_filter.mpr ⟨mem_range.mpr (h.lt j hj), (h.label j hj).trans ha⟩
  · intro j hj l hl heq
    have hj := mem_range.mp (mem_filter.mp hj).1
    have hl := mem_range.mp (mem_filter.mp hl).1
    exact h.injOn hj hl heq

omit [DecidableEq α] in
theorem Assigns.mono {slot : ℕ → α} {n : ℕ} {req : ℕ → α} {k l : ℕ} {f : ℕ → ℕ}
    (h : Assigns slot n req k f) (hl : l ≤ k) : Assigns slot n req l f :=
  ⟨h.injOn.mono fun _ hj ↦ lt_of_lt_of_le hj hl, fun j hj ↦ h.lt j (by omega),
    fun j hj ↦ h.label j (by omega)⟩

/-- The greedy choice serves every list of requests that can be assigned. -/
theorem serve_isSome_of_assigns {slot : ℕ → α} {n : ℕ} {req : ℕ → α} {k : ℕ} {f : ℕ → ℕ}
    (h : Assigns slot n req k f) : ∃ used, serve slot n req k = some used := by
  induction k with
  | zero => exact ⟨∅, rfl⟩
  | succ k ih =>
      obtain ⟨used, hused⟩ := ih (h.mono (Nat.le_succ k))
      have hinv := serve_inv hused
      cases hi : lowest slot n used (req k) with
      | some i => exact ⟨insert i used, serve_succ_eq_some_iff.mpr ⟨used, i, hused, hi, rfl⟩⟩
      | none =>
          -- all slots of this label are in use, by too few requests
          exfalso
          have hfull : #{i ∈ range n | slot i = req k} ≤ #{i ∈ used | slot i = req k} := by
            apply card_le_card
            intro i hi'
            obtain ⟨hin, ha⟩ := mem_filter.mp hi'
            have hu := lowest_eq_none_iff.mp hi i (mem_range.mp hin) ha
            exact mem_filter.mpr ⟨hu, ha⟩
          have hcount := hinv.count (req k)
          have hneed := h.card_le (req k)
          rw [range_add_one, filter_insert, if_pos rfl, card_insert_of_notMem (by simp)] at hneed
          omega

/-- A slot that an assignment needs together with all lower slots is in use
after the greedy run. -/
theorem mem_of_assigns_covers {slot : ℕ → α} {n : ℕ} {req : ℕ → α} {k r : ℕ} {f : ℕ → ℕ}
    {used : Finset ℕ} (hused : serve slot n req k = some used) (h : Assigns slot n req k f)
    (hcover : ∀ i < r, ∃ j < k, f j = i) {i : ℕ} (hi : i < r) : i ∈ used := by
  by_contra hfree
  have hinv := serve_inv hused
  have hlower : ({l ∈ used | slot l = slot i} : Finset ℕ) ⊆ {l ∈ range i | slot l = slot i} := by
    intro l hl
    obtain ⟨hlu, hla⟩ := mem_filter.mp hl
    refine mem_filter.mpr ⟨mem_range.mpr ?_, hla⟩
    by_contra hge
    rcases Nat.lt_or_eq_of_le (Nat.le_of_not_lt hge) with hlt | rfl
    · exact hfree (hinv.closed l hlu i hlt hla.symm)
    · exact hfree hlu
  -- the assignment covers slot `i` and the lower slots of its label
  have hupper : ({l ∈ range (i + 1) | slot l = slot i} : Finset ℕ) ⊆
      ({j ∈ range k | req j = slot i} : Finset ℕ).image f := by
    intro l hl
    obtain ⟨hli, hla⟩ := mem_filter.mp hl
    obtain ⟨j, hj, rfl⟩ := hcover l (by have := mem_range.mp hli; omega)
    refine mem_image_of_mem f (mem_filter.mpr ⟨mem_range.mpr hj, ?_⟩)
    exact (h.label j hj).symm.trans hla
  have h₁ := card_le_card hlower
  have h₂ := (card_le_card hupper).trans card_image_le
  have h₃ := hinv.count (slot i)
  rw [range_add_one, filter_insert, if_pos rfl, card_insert_of_notMem (by simp)] at h₂
  omega

/-- The greedy run serves all requests and uses every slot below `r` exactly
when some assignment does. -/
theorem serve_covers_iff (slot : ℕ → α) (n : ℕ) (req : ℕ → α) (k r : ℕ) :
    (∃ used, serve slot n req k = some used ∧ ∀ i < r, i ∈ used) ↔
      ∃ f, Assigns slot n req k f ∧ ∀ i < r, ∃ j < k, f j = i := by
  constructor
  · rintro ⟨used, hused, hcover⟩
    obtain ⟨f, hf, himage⟩ := serve_assigns hused
    refine ⟨f, hf, fun i hi ↦ ?_⟩
    obtain ⟨j, hj, hji⟩ := mem_image.mp (himage.symm ▸ hcover i hi)
    exact ⟨j, mem_range.mp hj, hji⟩
  · rintro ⟨f, hf, hcover⟩
    obtain ⟨used, hused⟩ := serve_isSome_of_assigns hf
    exact ⟨used, hused, fun i hi ↦ mem_of_assigns_covers hused hf hcover hi⟩

end LowestSlot
