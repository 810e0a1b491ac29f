import TopCharts.Proofs.Attempt
import TopCharts.Proofs.Router.Sharding
import TopCharts.Run.Epochs
import TopCharts.Workers

/-!
# Runs of epochs and of workers

* `meets_runEpochs` : the epochs of a run, from what each of them meets;
* `Workers.run_eq_ok_iff` : a job is done by all workers if each of them does it.
-/

namespace TopCharts

open Attempt

/-! ## Epochs -/

namespace Run

theorem ofNat_eq_zero_iff {n : Nat} (hn : n < 2 ^ 64) : UInt64.ofNat n = 0 ↔ n = 0 := by
  rw [← UInt64.toNat_inj, UInt64.toNat_ofNat_of_lt' hn]
  rfl

variable {σ : Type} {step : UInt64 → σ → Except Fault σ}

theorem runEpochs_go_succ (n : Nat) (epoch : UInt64) (s : σ) :
    runEpochs.go step (n + 1) epoch s =
      runEpochs.go step n epoch s >>= step (epoch + UInt64.ofNat n) := by
  induction n generalizing epoch s with
  | zero =>
    show (step epoch s >>= Except.ok) = step (epoch + 0) s
    rw [UInt64.add_zero]
    cases step epoch s <;> rfl
  | succ n ih =>
    show (step epoch s >>= runEpochs.go step (n + 1) (epoch + 1)) = _
    have hnext : epoch + 1 + UInt64.ofNat n = epoch + UInt64.ofNat (n + 1) := by
      rw [UInt64.ofNat_add, UInt64.add_assoc, UInt64.add_comm (UInt64.ofNat n)]
      rfl
    simp only [funext (ih (epoch + 1)), hnext]
    show _ = (step epoch s >>= runEpochs.go step n (epoch + 1)) >>= _
    cases step epoch s <;> rfl

/-- **A run of epochs**, from what each epoch meets. -/
theorem meets_runEpochs {W : Nat → Prop} {P : Nat → σ → Prop} {n : UInt64} {s : σ}
    (hstep : ∀ i < n.toNat, ∀ s, P i s →
      Meets (step (UInt64.ofNat i) s) (W (i + 1)) (P (i + 1)))
    (hmono : ∀ i, W (i + 1) → W i) (hstart : P 0 s) :
    Meets (runEpochs n step s) (W n.toNat) (P n.toNat) := by
  suffices hgo : ∀ m ≤ n.toNat, Meets (runEpochs.go step m 0 s) (W m) (P m) from
    hgo n.toNat (Nat.le_refl _)
  intro m
  induction m with
  | zero => exact fun _ => .ok hstart
  | succ m ih =>
    intro hm
    rw [runEpochs_go_succ, UInt64.zero_add]
    exact (ih (Nat.le_of_succ_le hm)).bind (hmono m) (hstep m hm)

end Run

/-! ## Workers -/

theorem Workers.run_eq_ok_iff {ε α : Type} {workers : UInt64}
    {job : (index peers : UInt64) → Except ε α} {results : List α} :
    Workers.run workers job = .ok results ↔
      (shardList workers).mapM (fun i => job i (max workers 1)) = .ok results := by
  have hmap : (shardList workers).mapM (fun i => job i (max workers 1)) =
      (List.range (max workers 1).toNat).mapM fun i => job (UInt64.ofNat i) (max workers 1) := by
    rw [shardList, List.mapM_map]
    rfl
  rw [hmap, Workers.run]
  cases (List.range (max workers 1).toNat).mapM fun i => job (UInt64.ofNat i) (max workers 1) with
  | ok results' => simp only [Except.ok.injEq]
  | error e => simp only [reduceCtorEq]

theorem shardOf_max {κ : Type} [ShardKey κ] (key : κ) (shards : UInt64) :
    shardOf key (max shards 1) = shardOf key shards := by
  have hmax : max (max shards 1) 1 = max shards 1 := by
    rw [← UInt64.toNat_inj]
    show (if (if shards ≤ 1 then 1 else shards) ≤ 1 then 1 else if shards ≤ 1 then 1 else shards).toNat =
      (if shards ≤ 1 then 1 else shards).toNat
    split <;> simp_all
  rw [shardOf, hmax, shardOf]

end TopCharts
