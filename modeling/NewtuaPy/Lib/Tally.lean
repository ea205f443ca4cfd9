import Mathlib.Algebra.BigOperators.Group.Finset.Basic

/-!
# Tallies over parties

Each party of a system is in some state, a state has a weight, and a tally is the sum of
the weights over some of the parties.  When one party moves on, a tally changes by what
that party brings to it.
-/

/-- The weights of the parties in `parties`, added up. -/
def tally {ι β : Type} (weight : β → Nat) (parties : Finset ι) (states : ι → β) : Nat :=
  ∑ i ∈ parties, weight (states i)

section Tally

variable {ι β : Type} (weight : β → Nat) {parties : Finset ι} (states : ι → β) {i : ι}

variable {weight states} in
theorem tally_eq_zero (idle : ∀ i ∈ parties, weight (states i) = 0) :
    tally weight parties states = 0 :=
  Finset.sum_eq_zero idle

variable [DecidableEq ι]

/-- A party outside the tally moves on. -/
theorem tally_update_of_notMem (outside : i ∉ parties) (next : β) :
    tally weight parties (Function.update states i next) = tally weight parties states := by
  refine Finset.sum_congr rfl fun j member => ?_
  have other : j ≠ i := by
    rintro rfl
    exact outside member
  rw [Function.update_of_ne other]

/-- A party of the tally moves on. -/
theorem tally_update (member : i ∈ parties) (next : β) :
    tally weight parties (Function.update states i next) + weight (states i) =
      tally weight parties states + weight next := by
  have others : tally weight (parties.erase i) (Function.update states i next) =
      tally weight (parties.erase i) states :=
    tally_update_of_notMem weight states (Finset.notMem_erase i parties) next
  unfold tally at others ⊢
  rw [← Finset.add_sum_erase parties _ member, others, Function.update_self,
    ← Finset.add_sum_erase parties (fun i => weight (states i)) member]
  omega

/-- A party moves on and joins the tally. -/
theorem tally_insert (outside : i ∉ parties) (next : β) :
    tally weight (insert i parties) (Function.update states i next) =
      tally weight parties states + weight next := by
  have others : tally weight parties (Function.update states i next) =
      tally weight parties states :=
    tally_update_of_notMem weight states outside next
  unfold tally at others ⊢
  rw [Finset.sum_insert outside, others, Function.update_self, Nat.add_comm]

end Tally
