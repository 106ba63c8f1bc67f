import Mathlib.Algebra.Order.Ring.Int
import Mathlib.Data.List.Nodup
import Mathlib.Tactic.Common

/-!
# Loops that overwrite an array

The array is any type with a lookup.  A loop whose steps work on blocks of their own does
in each block what a single step does there; a loop that moves entries along a path of
distinct places leaves at each place what was at the next one.
-/

namespace InPlace

variable {V ι κ α : Type*} {get : V → ι → α}

/-- The step for a block changes no entry outside of it and looks at none. -/
structure Local (get : V → ι → α) (block : ι → κ) (step : κ → V → V) : Prop where
  frame : ∀ {b A k}, block k ≠ b → get (step b A) k = get A k
  congr : ∀ {b A A' k}, (∀ k, block k = b → get A k = get A' k) → block k = b →
    get (step b A) k = get (step b A') k

/-- Steps for distinct blocks do not meet. -/
theorem Local.get_foldl [DecidableEq κ] {block : ι → κ} {step : κ → V → V}
    (h : Local get block step) {blocks : List κ} (hblocks : blocks.Nodup) (A : V) (k : ι) :
    get (blocks.foldl (fun A b ↦ step b A) A) k =
      if block k ∈ blocks then get (step (block k) A) k else get A k := by
  induction blocks generalizing A with
  | nil => rfl
  | cons b blocks ih =>
      obtain ⟨hb, hrest⟩ := List.nodup_cons.mp hblocks
      rw [List.foldl_cons, ih hrest]
      by_cases hk : block k ∈ blocks
      · have hne : block k ≠ b := fun heq ↦ hb (heq ▸ hk)
        rw [if_pos hk, if_pos (List.mem_cons_of_mem b hk)]
        exact h.congr (fun j hj ↦ h.frame (hj.trans_ne hne)) rfl
      · rw [if_neg hk]
        by_cases heq : block k = b
        · rw [if_pos (heq ▸ List.mem_cons_self), heq]
        · rw [if_neg (List.not_mem_cons_of_ne_of_not_mem heq hk)]
          exact h.frame heq

/-! ## Moving along a path -/

section Path

variable [DecidableEq ι]

/-- The place behind `k` on a path; the last one and those off the path stay. -/
def next : List ι → ι → ι
  | i :: j :: path, k => if k = i then j else next (j :: path) k
  | _, k => k

theorem next_of_notMem {path : List ι} {k : ι} (h : k ∉ path) : next path k = k := by
  induction path with
  | nil => rfl
  | cons i path ih =>
      cases path with
      | nil => rfl
      | cons j path =>
          have hne : k ≠ i := by
            rintro rfl
            exact h List.mem_cons_self
          rw [next, if_neg hne]
          exact ih fun hk ↦ h (List.mem_cons_of_mem i hk)

theorem next_ne_of_notMem {path : List ι} {i k : ι} (hi : i ∉ path) (hk : k ≠ i) :
    next path k ≠ i := by
  induction path with
  | nil => exact hk
  | cons j path ih =>
      cases path with
      | nil => exact hk
      | cons l path =>
          have hpath : i ≠ l := fun heq ↦ hi (heq ▸ List.mem_cons_of_mem j List.mem_cons_self)
          rw [next]
          split
          · exact hpath.symm
          · exact ih fun hmem ↦ hi (List.mem_cons_of_mem j hmem)

/-- A lookup behind one store. -/
def Stores (get : V → ι → α) (set : V → ι → α → V) (i : ι) : Prop :=
  ∀ (A : V) (x : α) (k : ι), get (set A i x) k = if k = i then x else get A k

/-- Every entry of the path but the last takes the value behind it. -/
theorem get_foldl_path {set : V → ι → α → V} {path : List ι}
    (hset : ∀ i ∈ path, Stores get set i) (hpath : path.Nodup) (A : V) (k : ι) :
    get ((path.zip path.tail).foldl (fun A e ↦ set A e.1 (get A e.2)) A) k =
      get A (next path k) := by
  induction path generalizing A with
  | nil => rfl
  | cons i path ih =>
      cases path with
      | nil => rfl
      | cons j path =>
          obtain ⟨hi, hrest⟩ := List.nodup_cons.mp hpath
          have hstore := hset i List.mem_cons_self
          have hih := ih (fun i hi ↦ hset i (List.mem_cons_of_mem _ hi)) hrest (set A i (get A j))
          rw [List.tail_cons, List.zip_cons_cons, List.foldl_cons]
          refine hih.trans ?_
          rw [hstore A (get A j), next]
          by_cases hk : k = i
          · rw [hk, next_of_notMem hi, if_pos rfl, if_pos rfl]
          · rw [if_neg (next_ne_of_notMem hi hk), if_neg hk]

end Path

end InPlace
