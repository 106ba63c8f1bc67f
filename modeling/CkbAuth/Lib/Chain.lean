import Mathlib.Data.Fintype.Card
import Mathlib.Data.Set.Finite.List
import Mathlib.Logic.Relation

/-!
# Chains of pointers

Who follows pointers through finitely many places gets to one without a pointer, or to one that
is on a circle.
-/

namespace Chain

open Relation

variable {α : Type*} {r : α → α → Prop} {a : α}

/-- Nothing is pointed at from here, or the way from here leads back. -/
def Last (r : α → α → Prop) (b : α) : Prop := (∀ c, ¬r b c) ∨ TransGen r b b

theorem wellFounded_swap [Finite α] (hacyclic : ∀ a, ¬TransGen r a a) :
    WellFounded (Function.swap r) := by
  have : IsTrans α (Function.swap (TransGen r)) := ⟨fun _ _ _ hab hbc ↦ hbc.trans hab⟩
  have : Std.Irrefl (Function.swap (TransGen r)) := ⟨hacyclic⟩
  have hwf := Finite.wellFounded_of_trans_of_irrefl (Function.swap (TransGen r))
  exact hwf.mono fun b c h ↦ TransGen.single h

theorem exists_last (hfin : {b | ReflTransGen r a b}.Finite) :
    ∃ b, ReflTransGen r a b ∧ Last r b := by
  by_contra hno
  have : Finite {b | ReflTransGen r a b} := hfin
  -- without a circle, the places that are reached have a last one
  have hwf := @wellFounded_swap {b | ReflTransGen r a b} (fun b c ↦ r b.1 c.1) _ fun b hcircle ↦
    hno ⟨b.1, b.2, .inr (TransGen.lift Subtype.val (fun _ _ h ↦ h) _ _ hcircle)⟩
  obtain ⟨b, -, hlast⟩ := hwf.has_min Set.univ ⟨⟨a, .refl⟩, trivial⟩
  exact hno ⟨b.1, b.2, .inl fun c hc ↦ hlast ⟨c, b.2.tail hc⟩ trivial hc⟩

/-- The places are those of a list. -/
theorem exists_last_mem {l : List α} (hclosed : ∀ b ∈ l, ∀ c, r b c → c ∈ l) (ha : a ∈ l) :
    ∃ b ∈ l, ReflTransGen r a b ∧ Last r b := by
  have hmem (b : α) (hb : ReflTransGen r a b) : b ∈ l := by
    induction hb with
    | refl => exact ha
    | tail _ hstep ih => exact hclosed _ ih _ hstep
  obtain ⟨b, hb, hlast⟩ := exists_last (l.finite_toSet.subset hmem)
  exact ⟨b, hmem b hb, hb, hlast⟩

end Chain
