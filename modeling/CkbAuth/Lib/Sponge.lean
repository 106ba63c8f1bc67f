import Mathlib.Algebra.Order.Ring.Int
import Mathlib.Data.List.Basic
import Mathlib.Tactic.Common

/-!
# Absorbing a stream block by block

A state takes in blocks of `r` symbols.  A stream arrives in chunks of any sizes, and a
`Buffer` keeps what does not fill a block yet.  How the stream was cut into chunks makes
no difference.
-/

namespace Sponge

variable {σ α : Type*} {f : σ → List α → σ} {r : ℕ}

/-- The state behind all full blocks, and the symbols that are left. -/
def absorb (f : σ → List α → σ) (r : ℕ) (s : σ) (xs : List α) : σ × List α :=
  if 0 < r ∧ r ≤ xs.length then absorb f r (f s (xs.take r)) (xs.drop r) else (s, xs)
termination_by xs.length
decreasing_by rw [List.length_drop]; omega

theorem absorb_of_lt {s : σ} {xs : List α} (h : xs.length < r) :
    absorb f r s xs = (s, xs) := by
  rw [absorb, if_neg fun hle ↦ absurd h (Nat.not_lt.mpr hle.2)]

theorem absorb_of_le {s : σ} {xs : List α} (hr : 0 < r) (h : r ≤ xs.length) :
    absorb f r s xs = absorb f r (f s (xs.take r)) (xs.drop r) := by
  rw [absorb, if_pos ⟨hr, h⟩]

/-- One block at the front. -/
theorem absorb_block_append {s : σ} {block : List α} (hr : 0 < r) (hblock : block.length = r)
    (xs : List α) : absorb f r s (block ++ xs) = absorb f r (f s block) xs := by
  rw [absorb_of_le hr (by rw [List.length_append]; omega), ← hblock, List.take_left,
    List.drop_left]

theorem absorb_block {s : σ} {block : List α} (hr : 0 < r) (hblock : block.length = r) :
    absorb f r s block = (f s block, []) := by
  have happend := @absorb_block_append σ α f r s block hr hblock []
  rwa [List.append_nil, @absorb_of_lt σ α f r _ [] hr] at happend

/-- What is left of one part goes in front of the next. -/
theorem absorb_append (hr : 0 < r) (s : σ) (xs ys : List α) :
    absorb f r s (xs ++ ys) =
      absorb f r (absorb f r s xs).1 ((absorb f r s xs).2 ++ ys) := by
  induction h : xs.length using Nat.strong_induction_on generalizing s xs with
  | _ n ih =>
      by_cases hle : r ≤ xs.length
      · have hblock : (xs.take r).length = r := List.length_take_of_le hle
        rw [absorb_of_le hr hle, ← ih (xs.drop r).length (by rw [List.length_drop]; omega) _ _ rfl,
          ← absorb_block_append hr hblock, ← List.append_assoc, List.take_append_drop]
      · rw [@absorb_of_lt σ α f r s xs (Nat.not_le.mp hle)]

theorem length_absorb_lt (hr : 0 < r) (s : σ) (xs : List α) :
    (absorb f r s xs).2.length < r := by
  induction h : xs.length using Nat.strong_induction_on generalizing s xs with
  | _ n ih =>
      by_cases hle : r ≤ xs.length
      · rw [absorb_of_le hr hle]
        exact ih (xs.drop r).length (by rw [List.length_drop]; omega) _ _ rfl
      · rw [absorb_of_lt (Nat.not_le.mp hle)]
        exact Nat.not_le.mp hle

theorem length_absorb (hr : 0 < r) (s : σ) (xs : List α) :
    (absorb f r s xs).2.length = xs.length % r := by
  induction h : xs.length using Nat.strong_induction_on generalizing s xs with
  | _ n ih =>
      by_cases hle : r ≤ xs.length
      · rw [absorb_of_le hr hle, ih (xs.drop r).length (by rw [List.length_drop]; omega) _ _ rfl,
          List.length_drop, ← Nat.mod_eq_sub_mod hle, h]
      · rw [absorb_of_lt (Nat.not_le.mp hle), ← h, Nat.mod_eq_of_lt (Nat.not_le.mp hle)]

/-! ## Chunks -/

/-- A state and the symbols that wait for their block to fill. -/
structure Buffer (σ α : Type*) (r : ℕ) where
  state : σ
  pending : List α
  pending_lt : pending.length < r

namespace Buffer

theorem pos (b : Buffer σ α r) : 0 < r := (Nat.zero_le _).trans_lt b.pending_lt

@[ext] theorem ext {b c : Buffer σ α r} (hstate : b.state = c.state)
    (hpending : b.pending = c.pending) : b = c := by
  cases b
  cases c
  cases hstate
  cases hpending
  rfl

/-- A buffer in front of the first chunk. -/
def new (hr : 0 < r) (s : σ) : Buffer σ α r := ⟨s, [], hr⟩

/-- One more chunk. -/
def update (f : σ → List α → σ) (b : Buffer σ α r) (chunk : List α) : Buffer σ α r where
  state := (absorb f r b.state (b.pending ++ chunk)).1
  pending := (absorb f r b.state (b.pending ++ chunk)).2
  pending_lt := length_absorb_lt b.pos _ _

/-- The chunks one after the other are one chunk. -/
theorem update_update (b : Buffer σ α r) (xs ys : List α) :
    (b.update f xs).update f ys = b.update f (xs ++ ys) := by
  have happend := @absorb_append σ α f r b.pos b.state (b.pending ++ xs) ys
  rw [List.append_assoc] at happend
  ext1
  · exact congrArg Prod.fst happend.symm
  · exact congrArg Prod.snd happend.symm

theorem update_nil (b : Buffer σ α r) : b.update f [] = b := by
  have hnil : absorb f r b.state (b.pending ++ []) = (b.state, b.pending) := by
    rw [List.append_nil, absorb_of_lt b.pending_lt]
  ext1
  · exact congrArg Prod.fst hnil
  · exact congrArg Prod.snd hnil

/-- However a stream is cut into chunks, the buffer behind it is the same. -/
theorem foldl_update (chunks : List (List α)) (b : Buffer σ α r) :
    chunks.foldl (update f) b = b.update f chunks.flatten := by
  induction chunks generalizing b with
  | nil => exact (update_nil b).symm
  | cons chunk chunks ih => rw [List.foldl_cons, ih, update_update, List.flatten_cons]

theorem update_new (hr : 0 < r) (s : σ) (xs : List α) :
    ((new hr s).update f xs).state = (absorb f r s xs).1 ∧
      ((new hr s).update f xs).pending = (absorb f r s xs).2 := ⟨rfl, rfl⟩

end Buffer

end Sponge
