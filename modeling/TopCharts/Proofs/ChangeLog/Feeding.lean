import TopCharts.Proofs.ChangeLog.Drain
import TopCharts.Store

/-!
# A change log that feeds a store

* `Feeding κ τ k` : a change log, and the store that its drains are applied to;
* `Feeding.take` : records a batch, drains the log and applies the updates. It fails if the drain
  overflows;
* `Feeding.outcomes` : what the updates of a batch do, one by one;
* `Feeding.run` : one batch after the other, from the start;
* `take_eq_ok_of_run` : between batches the log is empty, so the updates are those of the batch.
-/

namespace TopCharts

open Attempt
open Std (TransOrd)

structure Feeding (κ τ : Type) (k : Nat) [Ord κ] where
  log : ChangeLog κ τ
  store : Store κ k

namespace Feeding

variable {κ τ : Type} [Ord κ] [TransOrd κ] [Ord τ] {k : Nat}

def start : Feeding κ τ k := ⟨.empty, .empty⟩

/-- Records a batch and drains the log into the store. -/
def take (f : Feeding κ τ k) (batch : List (Weighted κ τ)) : Except Fault (Feeding κ τ k) := do
  let (updates, log) := (batch.foldl ChangeLog.record f.log).drain
  return ⟨log, (f.store.applyAll (← updates)).2⟩

def outcomes (f : Feeding κ τ k) (batch : List (Weighted κ τ)) : Except Fault (List Outcome) := do
  let (updates, _) := (batch.foldl ChangeLog.record f.log).drain
  return (f.store.applyEach (← updates)).1

def run (batches : List (List (Weighted κ τ))) : Except Fault (Feeding κ τ k) :=
  batches.foldlM take start

omit [Ord κ] [TransOrd κ] [Ord τ] in
theorem toList_foldl_record (log : ChangeLog κ τ) (batch : List (Weighted κ τ)) :
    (batch.foldl ChangeLog.record log).changes.toList = log.changes.toList ++ batch := by
  induction batch generalizing log with
  | nil => exact (List.append_nil _).symm
  | cons r batch ih =>
    rw [List.foldl_cons, ih, ChangeLog.record, Array.toList_push, List.append_assoc]
    rfl

omit [TransOrd κ] in
theorem drain_foldl_record (log : ChangeLog κ τ) (batch : List (Weighted κ τ)) :
    (batch.foldl ChangeLog.record log).drain =
      (ChangeLog.updates (log.changes.toList ++ batch), .empty) := by
  rw [ChangeLog.drain, toList_foldl_record]

theorem take_eq_ok_iff {f g : Feeding κ τ k} {batch : List (Weighted κ τ)} :
    f.take batch = .ok g ↔ ∃ us, ChangeLog.updates (f.log.changes.toList ++ batch) = .ok us ∧
      ⟨.empty, (f.store.applyEach us).2⟩ = g := by
  have htake : f.take batch =
      ChangeLog.updates (batch.foldl ChangeLog.record f.log).changes.toList >>= fun us =>
        pure ⟨.empty, (f.store.applyEach us).2⟩ := rfl
  rw [htake, toList_foldl_record, bind_eq_ok]
  simp only [pure_eq_ok]

theorem run_append_singleton {batches : List (List (Weighted κ τ))}
    {batch : List (Weighted κ τ)} {g : Feeding κ τ k} :
    run (batches ++ [batch]) = .ok g ↔
      ∃ f : Feeding κ τ k, run batches = .ok f ∧ f.take batch = .ok g := by
  rw [run, List.foldlM_append, bind_eq_ok]
  refine exists_congr fun f => and_congr_right ?_
  intro _
  rw [List.foldlM_cons, bind_eq_ok]
  simp only [List.foldlM_nil, pure_eq_ok, exists_eq_right]

theorem log_run {batches : List (List (Weighted κ τ))} {f : Feeding κ τ k}
    (h : run batches = .ok f) : f.log = .empty := by
  rcases List.eq_nil_or_concat batches with rfl | ⟨batches, batch, rfl⟩
  · rw [← pure_eq_ok.1 h]
    rfl
  · rw [List.concat_eq_append, run_append_singleton] at h
    obtain ⟨g, -, h⟩ := h
    obtain ⟨us, -, rfl⟩ := take_eq_ok_iff.1 h
    rfl

/-- Taking a batch after others applies the updates that it alone amounts to. -/
theorem take_eq_ok_of_run {batches : List (List (Weighted κ τ))} {f g : Feeding κ τ k}
    (hf : run batches = .ok f) {batch : List (Weighted κ τ)} (h : f.take batch = .ok g) :
    ∃ us, ChangeLog.updates batch = .ok us ∧ g.store = (f.store.applyEach us).2 := by
  obtain ⟨us, hus, rfl⟩ := take_eq_ok_iff.1 h
  rw [log_run hf] at hus
  exact ⟨us, hus, rfl⟩

theorem outcomes_eq_ok_of_run {batches : List (List (Weighted κ τ))} {f : Feeding κ τ k}
    (hf : run batches = .ok f) {batch : List (Weighted κ τ)} {os : List Outcome}
    (h : f.outcomes batch = .ok os) :
    ∃ us, ChangeLog.updates batch = .ok us ∧ (f.store.applyEach us).1 = os := by
  have houtcomes : f.outcomes batch =
      ChangeLog.updates (batch.foldl ChangeLog.record f.log).changes.toList >>= fun us =>
        pure (f.store.applyEach us).1 := rfl
  rw [houtcomes, toList_foldl_record, log_run hf, bind_eq_ok] at h
  simp only [pure_eq_ok] at h
  exact h

end Feeding

end TopCharts
