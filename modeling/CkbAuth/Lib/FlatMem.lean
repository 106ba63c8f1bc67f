import Mathlib.Algebra.Order.Ring.Int
import Mathlib.Data.List.Basic
import Mathlib.Tactic.Common

/-!
# A flat memory

Cells from address 0 on, some of which may be written.  A store reaches no other cell, so
what is read apart from it stays, and no run of stores changes a cell that is not writable.
-/

namespace FlatMem

/-- The cells of a machine and its access rights. -/
structure Memory (α : Type*) where
  cells : List α
  writable : ℕ → Bool

namespace Memory

variable {α : Type*} (mem : Memory α)

def load (addr size : ℕ) : Option (List α) :=
  if addr + size ≤ mem.cells.length then some ((mem.cells.drop addr).take size) else none

def store (addr : ℕ) (values : List α) : Option (Memory α) :=
  if addr + values.length ≤ mem.cells.length ∧
      ∀ i < values.length, mem.writable (addr + i) = true then
    some { mem with
      cells := mem.cells.take addr ++ (values ++ mem.cells.drop (addr + values.length)) }
  else none

variable {mem} {mem' mem'' : Memory α} {addr addr' size : ℕ} {values : List α}

theorem load_eq_some_iff :
    mem.load addr size = some values ↔
      addr + size ≤ mem.cells.length ∧ (mem.cells.drop addr).take size = values := by
  rw [load]
  by_cases h : addr + size ≤ mem.cells.length
  · rw [if_pos h, Option.some_inj, and_iff_right h]
  · rw [if_neg h]
    exact iff_of_false (Option.some_ne_none values).symm fun hload ↦ h hload.1

theorem length_load (h : mem.load addr size = some values) : values.length = size := by
  obtain ⟨hle, rfl⟩ := load_eq_some_iff.mp h
  rw [List.length_take, List.length_drop]
  omega

/-! ## One store -/

theorem store_eq_some_iff :
    mem.store addr values = some mem' ↔
      addr + values.length ≤ mem.cells.length ∧
        (∀ i < values.length, mem.writable (addr + i) = true) ∧
        mem' = ⟨mem.cells.take addr ++ (values ++ mem.cells.drop (addr + values.length)),
          mem.writable⟩ := by
  rw [store, ← and_assoc]
  by_cases h : addr + values.length ≤ mem.cells.length ∧
      ∀ i < values.length, mem.writable (addr + i) = true
  · rw [if_pos h, Option.some_inj, and_iff_right h, eq_comm]
  · rw [if_neg h]
    exact iff_of_false (Option.some_ne_none mem').symm fun hstore ↦ h hstore.1

theorem length_store (h : mem.store addr values = some mem') :
    mem'.cells.length = mem.cells.length := by
  obtain ⟨hle, -, rfl⟩ := store_eq_some_iff.mp h
  dsimp only
  rw [List.length_append, List.length_append, List.length_take, List.length_drop]
  omega

theorem writable_store (h : mem.store addr values = some mem') :
    mem'.writable = mem.writable := by
  obtain ⟨-, -, rfl⟩ := store_eq_some_iff.mp h
  rfl

/-- A cell that the store does not reach. -/
theorem getElem?_store (h : mem.store addr values = some mem') {a : ℕ}
    (ha : a < addr ∨ addr + values.length ≤ a) : mem'.cells[a]? = mem.cells[a]? := by
  obtain ⟨hle, -, rfl⟩ := store_eq_some_iff.mp h
  have hfront : (mem.cells.take addr).length = addr := by
    rw [List.length_take]
    omega
  dsimp only
  rcases ha with ha | ha
  · rw [List.getElem?_append_left (by omega), List.getElem?_take_of_lt ha]
  · rw [List.getElem?_append_right (by omega), hfront, List.getElem?_append_right (by omega),
      List.getElem?_drop]
    congr 1
    omega

/-- What was stored is read back. -/
theorem load_store (h : mem.store addr values = some mem') :
    mem'.load addr values.length = some values := by
  have hlen := length_store h
  obtain ⟨hle, -, rfl⟩ := store_eq_some_iff.mp h
  have hfront : (mem.cells.take addr).length = addr := by
    rw [List.length_take]
    omega
  refine load_eq_some_iff.mpr ⟨hlen.symm ▸ hle, ?_⟩
  rw [List.drop_left' hfront, List.take_left]

theorem load_congr (hlen : mem'.cells.length = mem.cells.length)
    (h : ∀ a, addr ≤ a → a < addr + size → mem'.cells[a]? = mem.cells[a]?) :
    mem'.load addr size = mem.load addr size := by
  have hslice : (mem'.cells.drop addr).take size = (mem.cells.drop addr).take size := by
    apply List.ext_getElem?
    intro i
    by_cases hi : i < size
    · rw [List.getElem?_take_of_lt hi, List.getElem?_take_of_lt hi, List.getElem?_drop,
        List.getElem?_drop, h (addr + i) (Nat.le_add_right addr i) (by omega)]
    · rw [List.getElem?_take_eq_none (Nat.not_lt.mp hi),
        List.getElem?_take_eq_none (Nat.not_lt.mp hi)]
  rw [load, load, hlen, hslice]

/-- What is apart from a store is read as before. -/
theorem load_store_apart (h : mem.store addr values = some mem')
    (hapart : addr + values.length ≤ addr' ∨ addr' + size ≤ addr) :
    mem'.load addr' size = mem.load addr' size :=
  load_congr (length_store h) fun a hle hlt ↦ getElem?_store h (by omega)

/-! ## Runs of stores -/

/-- What no run of stores changes. -/
structure Keeps (mem mem' : Memory α) : Prop where
  length : mem'.cells.length = mem.cells.length
  writable : mem'.writable = mem.writable
  cells : ∀ a, mem.writable a = false → mem'.cells[a]? = mem.cells[a]?

theorem Keeps.refl (mem : Memory α) : Keeps mem mem := ⟨rfl, rfl, fun _ _ ↦ rfl⟩

theorem Keeps.trans (h : Keeps mem mem') (h' : Keeps mem' mem'') : Keeps mem mem'' :=
  ⟨h'.length.trans h.length, h'.writable.trans h.writable,
    fun a ha ↦ (h'.cells a (h.writable ▸ ha)).trans (h.cells a ha)⟩

theorem keeps_store (h : mem.store addr values = some mem') : Keeps mem mem' := by
  refine ⟨length_store h, writable_store h, fun a ha ↦ getElem?_store h ?_⟩
  obtain ⟨-, hwritable, -⟩ := store_eq_some_iff.mp h
  by_contra hin
  have hat := hwritable (a - addr) (by omega)
  rw [Nat.add_sub_of_le (by omega), ha] at hat
  cases hat

end Memory

end FlatMem
