import TopCharts.Arithmetic
import TopCharts.Update

/-!
# Change logs

A change log buffers weighted changes of charted entries until the times that produced them are
complete. A batch brings the retraction of an old value and the delivery of the new one in no
promised order; draining puts the retraction first.

* `Weighted` : a change of an entry's multiplicity, under a key, at a time;
* `ChangeLog.record` buffers a change, `pending` counts them;
* `ChangeLog.drain` : every buffered change as updates ordered by time, then key, with retractions
  ahead of additions. The weights of one entry at one time are summed, and a sum of zero is
  dropped. The log is empty afterwards, also when a sum overflows.
-/

namespace TopCharts

open Std (TransOrd)

/-- A change by `diff` of the multiplicity of an entry, under a key, at a time. -/
structure Weighted (κ τ : Type) where
  time : τ
  key : κ
  entry : Entry
  diff : Int64
  deriving DecidableEq

namespace Weighted

variable {κ τ : Type} [Ord κ] [Ord τ]

/-- The order of places: by time, then key, then rank. Weights do not count. -/
def comparePlace : Weighted κ τ → Weighted κ τ → Ordering :=
  compareLex (compareOn time) (compareLex (compareOn key) (compareOn entry))

/-- Sums the weights of neighbours in one place, in the order given. -/
def consolidate : List (Weighted κ τ) → Except Fault (List (Weighted κ τ))
  | [] => .ok []
  | r :: rs => go r rs
where
  go (sum : Weighted κ τ) : List (Weighted κ τ) → Except Fault (List (Weighted κ τ))
    | [] => .ok [sum]
    | r :: rs =>
      if comparePlace sum r = .eq then do
        let diff ← Checked.addInt sum.diff r.diff
        go { sum with diff } rs
      else do
        let rest ← go r rs
        return sum :: rest

/-- The update a summed change stands for; its weight must have a magnitude. -/
def toUpdate (r : Weighted κ τ) : Except Fault (τ × Update κ) := do
  let _ ← if r.diff < 0 then Checked.negInt r.diff else pure r.diff
  return (r.time, ⟨r.key, if r.diff < 0 then .remove else .add, r.entry⟩)

end Weighted

/-- Buffered changes, the latest last. -/
structure ChangeLog (κ τ : Type) where
  changes : Array (Weighted κ τ)

namespace ChangeLog

variable {κ τ : Type}

def empty : ChangeLog κ τ := ⟨#[]⟩

instance : Inhabited (ChangeLog κ τ) := ⟨empty⟩

def record (log : ChangeLog κ τ) (change : Weighted κ τ) : ChangeLog κ τ :=
  ⟨log.changes.push change⟩

def pending (log : ChangeLog κ τ) : Nat :=
  log.changes.size

variable [Ord κ] [Ord τ]

def updates (changes : List (Weighted κ τ)) : Except Fault (List (Update κ)) := do
  let sums ← Weighted.consolidate
    (changes.mergeSort fun a b => (Weighted.comparePlace a b).isLE)
  let timed ← (sums.filter (·.diff ≠ 0)).mapM Weighted.toUpdate
  let order := compareLex (compareOn Prod.fst) (compareOn Prod.snd)
  return (timed.mergeSort fun a b => (order a b).isLE).map Prod.snd

/-- Takes every buffered change out of the log, as updates. -/
def drain (log : ChangeLog κ τ) : Except Fault (List (Update κ)) × ChangeLog κ τ :=
  (updates log.changes.toList, empty)

end ChangeLog

end TopCharts
