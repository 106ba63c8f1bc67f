import Mathlib.Data.List.Basic
import Mathlib.Tactic.Common

/-!
# Framing

A list behind its length, written in a word of fixed width.  Frames that follow each other
can be told apart, and so can lists of them.
-/

namespace Framing

variable {α : Type*} {code : ℕ → List α} {width bound : ℕ} {xs ys us vs : List α}

/-- Words of one width, different ones for different numbers below a bound. -/
structure Words (code : ℕ → List α) (width bound : ℕ) : Prop where
  length : ∀ n, (code n).length = width
  inj : ∀ {n k : ℕ}, n < bound → k < bound → code n = code k → n = k

def frame (code : ℕ → List α) (xs : List α) : List α := code xs.length ++ xs

theorem length_frame (h : Words code width bound) (xs : List α) :
    (frame code xs).length = width + xs.length := by
  rw [frame, List.length_append, h.length]

theorem frame_append_inj (h : Words code width bound) (hx : xs.length < bound)
    (hy : ys.length < bound) (heq : frame code xs ++ us = frame code ys ++ vs) :
    xs = ys ∧ us = vs := by
  rw [frame, frame, List.append_assoc, List.append_assoc] at heq
  obtain ⟨hword, hrest⟩ := List.append_inj heq ((h.length _).trans (h.length _).symm)
  exact List.append_inj hrest (h.inj hx hy hword)

theorem frame_ne_nil (h : Words code width bound) (hwidth : 0 < width) : frame code xs ≠ [] := by
  intro hnil
  have hlen := length_frame h xs
  rw [hnil, List.length_nil] at hlen
  omega

/-- A list of lists is determined by its frames. -/
theorem flatMap_frame_inj (h : Words code width bound) (hwidth : 0 < width) {ls ks : List (List α)}
    (hls : ∀ l ∈ ls, l.length < bound) (hks : ∀ k ∈ ks, k.length < bound)
    (heq : ls.flatMap (frame code) = ks.flatMap (frame code)) : ls = ks := by
  induction ls generalizing ks with
  | nil =>
      cases ks with
      | nil => rfl
      | cons k ks =>
          rw [List.flatMap_cons] at heq
          exact absurd (List.append_eq_nil_iff.mp heq.symm).1 (frame_ne_nil h hwidth)
  | cons l ls ih =>
      cases ks with
      | nil =>
          rw [List.flatMap_cons] at heq
          exact absurd (List.append_eq_nil_iff.mp heq).1 (frame_ne_nil h hwidth)
      | cons k ks =>
          rw [List.flatMap_cons, List.flatMap_cons] at heq
          obtain ⟨rfl, hrest⟩ := frame_append_inj h (hls l List.mem_cons_self)
            (hks k List.mem_cons_self) heq
          exact congrArg (l :: ·) (ih (fun m hm ↦ hls m (List.mem_cons_of_mem l hm))
            (fun m hm ↦ hks m (List.mem_cons_of_mem l hm)) hrest)

end Framing
