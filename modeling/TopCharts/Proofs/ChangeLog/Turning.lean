import TopCharts.Proofs.ChangeLog.Times
import TopCharts.Proofs.Store.Exact

/-!
# Drains between two families of sets

* `Delivers.turns` : updates that deliver what one family of sets has more or less than another turn
  one into the other;
* `turns_updates` : so does a drain of a batch with these net weights, at one time. Which records
  the weights come from, and their order, does not matter.
-/

namespace TopCharts

open Std (TransOrd LawfulEqOrd)

variable {κ τ : Type} [Ord κ] [TransOrd κ] {old new : κ → Finset Entry}

theorem Delivers.turns {us : List (Update κ)} {weight : κ → Entry → Int} (h : Delivers us weight)
    (hweight : ∀ key e, weight key e =
      (if e ∈ new key then 1 else 0) - if e ∈ old key then 1 else 0) : Turns us old new where
  removed key e := by
    rw [h.removed, hweight]
    by_cases hold : e ∈ old key <;> by_cases hnew : e ∈ new key <;> simp [hold, hnew]
  added key e := by
    rw [h.added, hweight]
    by_cases hold : e ∈ old key <;> by_cases hnew : e ∈ new key <;> simp [hold, hnew]
  order := h.order.imp Update.change_of_lt

/-- **The updates of a batch** whose net weights are those of the change from `old` to `new`. -/
theorem ChangeLog.turns_updates [LawfulEqOrd κ] [DecidableEq κ] [Ord τ] [TransOrd τ] [LawfulEqOrd τ]
    [DecidableEq τ] (time : τ) {batch : List (Weighted κ τ)}
    (hnet : ∀ t key e, net batch (t, key, e) = if t = time then
      (if e ∈ new key then 1 else 0) - (if e ∈ old key then 1 else 0) else 0)
    {us : List (Update κ)} (h : updates batch = .ok us) : Turns us old new := by
  refine (delivers_of_one_time time (fun t key e ht => ?_) h).turns fun key e => ?_
  · rw [hnet, if_neg ht]
  · rw [hnet, if_pos rfl]

end TopCharts
