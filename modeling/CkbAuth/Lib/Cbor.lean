import Mathlib.Algebra.Order.Ring.Int
import Mathlib.Data.List.Basic
import Mathlib.Tactic.Common

/-!
# CBOR items

The grammar of items without tags, relative to the heads that are allowed: a
reader may limit the size of a count.  An item comes with a bound on its nesting
depth, a scalar having depth 1.
-/

namespace Cbor

/-- A number, most significant byte first. -/
def beValue (bs : List UInt8) : ℕ := bs.foldl (fun acc b ↦ acc * 256 + b.toNat) 0

/-- A head of a major type with the argument `n`, in the first byte or in `2 ^ k`
bytes behind it.  `max` bounds the additional information. -/
inductive IsHead (max type n : ℕ) : List UInt8 → Prop
  | small (hn : n < 24) : IsHead max type n [UInt8.ofNat (32 * type + n)]
  | wide {k : ℕ} {arg : List UInt8} (hmax : 24 + k ≤ max) (hlen : arg.length = 2 ^ k)
      (hvalue : beValue arg = n) : IsHead max type n (UInt8.ofNat (32 * type + (24 + k)) :: arg)

/-- The heads that are allowed, by major type and argument. -/
abbrev Heads := ℕ → ℕ → List UInt8 → Prop

/-- Items behind a head that counts them, or between a head without a count and
a break. -/
inductive IsContainer (heads : Heads) (type count : ℕ) (items : List (List UInt8)) :
    List UInt8 → Prop
  | definite {head : List UInt8} (hhead : heads type count head) :
      IsContainer heads type count items (head ++ items.flatten)
  | indefinite :
      IsContainer heads type count items (UInt8.ofNat (32 * type + 31) :: (items.flatten ++ [0xff]))

/-- An item of nesting depth at most `d`. -/
inductive IsItem (heads : Heads) : ℕ → List UInt8 → Prop
  | scalar {d type n : ℕ} {bs : List UInt8} (htype : type = 0 ∨ type = 1 ∨ type = 7)
      (hhead : heads type n bs) : IsItem heads (d + 1) bs
  | string {d type : ℕ} {head bs : List UInt8} (htype : type = 2 ∨ type = 3)
      (hhead : heads type bs.length head) : IsItem heads (d + 1) (head ++ bs)
  | array {d : ℕ} {items : List (List UInt8)} {bs : List UInt8}
      (hitems : ∀ b ∈ items, IsItem heads d b)
      (hbs : IsContainer heads 4 items.length items bs) : IsItem heads (d + 1) bs
  | map {d count : ℕ} {items : List (List UInt8)} {bs : List UInt8}
      (hitems : ∀ b ∈ items, IsItem heads d b) (hcount : items.length = 2 * count)
      (hbs : IsContainer heads 5 count items bs) : IsItem heads (d + 1) bs

/-- An integer between `-2 ^ 31` and `2 ^ 31 - 1` in at most four bytes behind
the first. -/
def IsInt32 (i : ℤ) (bs : List UInt8) : Prop :=
  ∃ n < 2 ^ 31, (IsHead 26 0 n bs ∧ i = n) ∨ (IsHead 26 1 n bs ∧ i = -1 - n)

variable {max type n d : ℕ} {heads : Heads} {bs : List UInt8}

theorem IsHead.length_pos (h : IsHead max type n bs) : 0 < bs.length := by
  cases h <;> simp

theorem IsHead.widen {max' : ℕ} (h : IsHead max type n bs) (hmax : max ≤ max') :
    IsHead max' type n bs := by
  cases h with
  | small hn => exact .small hn
  | wide hk hlen hvalue => exact .wide (hk.trans hmax) hlen hvalue

/-- The first byte tells the major type, and is no break. -/
theorem IsHead.exists_cons (h : IsHead max type n bs) (htype : type < 8) (hmax : max ≤ 27) :
    ∃ b arg, bs = b :: arg ∧ b.toNat / 32 = type ∧ b.toNat % 32 < 28 := by
  have hbyte : ∀ info < 28, (UInt8.ofNat (32 * type + info)).toNat = 32 * type + info := by
    intro info hinfo
    rw [UInt8.toNat_ofNat']
    omega
  cases h with
  | small hn =>
      refine ⟨_, _, rfl, ?_, ?_⟩ <;> rw [hbyte n (by omega)] <;> omega
  | @wide k arg hk _ _ =>
      refine ⟨_, _, rfl, ?_, ?_⟩ <;> rw [hbyte (24 + k) (by omega)] <;> omega

theorem IsItem.mono {d' : ℕ} (h : IsItem heads d bs) (hd : d ≤ d') : IsItem heads d' bs := by
  induction h generalizing d' with
  | scalar htype hhead =>
      obtain ⟨d', rfl⟩ : ∃ k, d' = k + 1 := ⟨d' - 1, by omega⟩
      exact .scalar htype hhead
  | string htype hhead =>
      obtain ⟨d', rfl⟩ : ∃ k, d' = k + 1 := ⟨d' - 1, by omega⟩
      exact .string htype hhead
  | array _ hbs ih =>
      obtain ⟨d', rfl⟩ : ∃ k, d' = k + 1 := ⟨d' - 1, by omega⟩
      exact .array (fun b hb ↦ ih b hb (by omega)) hbs
  | map _ hcount hbs ih =>
      obtain ⟨d', rfl⟩ : ∃ k, d' = k + 1 := ⟨d' - 1, by omega⟩
      exact .map (fun b hb ↦ ih b hb (by omega)) hcount hbs

theorem IsInt32.isItem {i : ℤ} (h : IsInt32 i bs) (hheads : ∀ {type n bs}, type < 2 →
    IsHead 26 type n bs → heads type n bs) : IsItem heads (d + 1) bs := by
  obtain ⟨n, _, ⟨hhead, _⟩ | ⟨hhead, _⟩⟩ := h
  · exact .scalar (.inl rfl) (hheads (by decide) hhead)
  · exact .scalar (.inr (.inl rfl)) (hheads (by decide) hhead)

end Cbor
