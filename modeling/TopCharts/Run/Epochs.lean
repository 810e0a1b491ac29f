import TopCharts.Arithmetic

/-!
# Running epochs

`runEpochs n step s` takes a state through the epochs `0`, `1`, …, `n - 1`; a step that fails ends
the run.
-/

namespace TopCharts.Run

/-- Takes a state through `n` epochs. -/
def runEpochs {σ : Type} (n : UInt64) (step : UInt64 → σ → Except Fault σ) (s : σ) :
    Except Fault σ :=
  go n.toNat 0 s
where
  /-- The epochs from `epoch` on, `left` of them. -/
  go : (left : Nat) → (epoch : UInt64) → σ → Except Fault σ
    | 0, _, s => .ok s
    | left + 1, epoch, s => do go left (epoch + 1) (← step epoch s)

end TopCharts.Run
