import Mathlib.Algebra.BigOperators.Group.Finset.Basic
import Mathlib.Data.Fintype.Basic

/-!
# Counting

Sums over a family of states of which one member is replaced, and quorums among the others: a set
that leaves out its owner and has more than half of what remains.
-/

namespace FaasNet.Lib

section
variable {ι σ : Type*} [Fintype ι] [DecidableEq ι]

/-- Replacing the member at `i` trades its share of the sum for that of the new one. -/
theorem sum_update (weight : σ → Nat) (family : ι → σ) (i : ι) (new : σ) :
    ∑ j, weight (Function.update family i new j) + weight (family i) = ∑ j, weight (family j) + weight new := by
  rw [← Finset.sum_erase_add _ _ (Finset.mem_univ i), ← Finset.sum_erase_add Finset.univ _ (Finset.mem_univ i)]
  have others : ∑ j ∈ Finset.univ.erase i, weight (Function.update family i new j) =
      ∑ j ∈ Finset.univ.erase i, weight (family j) := by
    apply Finset.sum_congr rfl
    intro j member
    rw [Function.update_of_ne (Finset.ne_of_mem_erase member)]
  rw [others, Function.update_self]
  omega

end

/-! ## Quorums among the others -/

section
variable {ι : Type*} [DecidableEq ι] {all A B : Finset ι}

/-- A quorum has no room beside another one that it does not meet, unless the owner of the other
one belongs to it. -/
theorem owner_mem_of_disjoint_quorums {c : ι} (owner : c ∈ all) (insideA : A ⊆ all) (insideB : B ⊆ all)
    (disjoint : Disjoint A B) (quorumA : (all.card - 1) / 2 + 1 ≤ A.card) (quorumB : (all.card - 1) / 2 + 1 ≤ B.card)
    (own : c ∉ A) : c ∈ B := by
  by_contra missing
  have room : A ∪ B ⊆ all.erase c := by
    apply Finset.subset_erase.mpr
    exact ⟨Finset.union_subset insideA insideB, by simp [own, missing]⟩
  have count := Finset.card_le_card room
  rw [Finset.card_union_of_disjoint disjoint, Finset.card_erase_of_mem owner] at count
  omega

end

end FaasNet.Lib
