import Mathlib.Data.List.FinRange
import Mathlib.Data.List.Sort

/-! Rows in another order.

A permutation of its places puts a row into another order (`rearranged`). What is made of the
elements one by one comes in that order too (`map_rearranged`). Some of the elements may not have
been moved past each other (`KeepsOrder`); without the others, the row is then as it was
(`filter_rearranged`). -/
namespace HostInventory

variable {α : Type}

/-- The row that has at each place `i` what stood at `σ i`. -/
def rearranged {n : Nat} (σ : Equiv.Perm (Fin n)) (l : List α) : List α :=
  (List.finRange n).filterMap fun i => l[(σ i).val]?

/-- Of the elements with `p` none is moved past another. -/
def KeepsOrder (l : List α) (σ : Equiv.Perm (Fin l.length)) (p : α → Bool) : Prop :=
  ∀ i j, i < j → p (l.get (σ i)) = true → p (l.get (σ j)) = true → σ i < σ j

theorem map_rearranged {β : Type} {n : Nat} (σ : Equiv.Perm (Fin n)) (f : α → β) (l : List α) :
    (rearranged σ l).map f = rearranged σ (l.map f) := by
  simp only [rearranged, List.map_filterMap, List.getElem?_map]

section Places
variable {l : List α} (σ : Equiv.Perm (Fin l.length))

theorem rearranged_eq_map :
    rearranged σ l = ((List.finRange l.length).map σ).map l.get := by
  have hget : (fun i => l[(σ i).val]?) = fun i => some (l.get (σ i)) :=
    funext fun i => List.getElem?_eq_getElem (σ i).isLt
  rw [rearranged, hget, List.filterMap_eq_map', List.map_map]
  rfl

theorem rearranged_perm : (rearranged σ l).Perm l := by
  rw [rearranged_eq_map]
  have hplaces := σ.map_finRange_perm.map l.get
  rwa [List.map_get_finRange] at hplaces

/-- What has kept its order among itself is the same row as before. -/
theorem filter_rearranged {p : α → Bool} (h : KeepsOrder l σ p) :
    (rearranged σ l).filter p = l.filter p := by
  -- Both are read off the places of such elements, which increase in either row.
  have hbefore : ((List.finRange l.length).filter (p ∘ l.get)).Pairwise (· < ·) :=
    (List.pairwise_lt_finRange _).filter _
  have hafter : (((List.finRange l.length).map σ).filter (p ∘ l.get)).Pairwise (· < ·) := by
    rw [List.filter_map, List.pairwise_map]
    refine ((List.pairwise_lt_finRange _).filter _).imp_of_mem fun hi hj hlt => ?_
    exact h _ _ hlt (List.mem_filter.1 hi).2 (List.mem_filter.1 hj).2
  have hplaces := List.Perm.eq_of_pairwise (fun _ _ _ _ hab hba => absurd hab (lt_asymm hba))
    hafter hbefore (σ.map_finRange_perm.filter _)
  rw [rearranged_eq_map, List.filter_map, hplaces, ← List.filter_map, List.map_get_finRange]

end Places
end HostInventory
