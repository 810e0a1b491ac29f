import TopCharts.Arrangement.Layers
import TopCharts.Music
import TopCharts.Shard
import TopCharts.Tracker

/-!
# Arrangements

An arrangement keeps all that was ever added to a collection, by key and in layers of runs. It is
divided among workers; a key belongs to one of them.

* `Arrangement.start`, `add`, `close` : an arrangement before, during and at the end of a run;
* `Arrangement.history` : what the additions so far amount to, for some of the records. It fails if
  a sum is no word, added up from the oldest run to the newest.
-/

namespace TopCharts

open Std (TransOrd)

instance : ArrangedBy Int64 Int64 where
  key id := id

instance : ArrangedBy Song Int64 where
  key := Song.id

instance {γ : Type} : ArrangedBy (Tally γ) (Tally γ) where
  key t := t

instance {γ : Type} [ShardKey γ] : ShardKey (Tally γ) where
  hashBytes t := ShardKey.hashBytes t.group ++ ShardKey.hashBytes t.identity

/-- A collection arranged by key, the part of each worker in its own layers. -/
structure Arrangement (α : Type) where
  parts : List (Layers α)

namespace Arrangement

variable {α κ : Type} [Ord α] [TransOrd α] [Ord κ] [ShardKey κ] [ArrangedBy α κ]

def start (workers : Nat) : Arrangement α where
  parts := List.replicate workers {}

/-- The sum of the additions, for the records that satisfy `p`. -/
def history (a : Arrangement α) (p : α → Bool) : Except Fault (Collection α) :=
  let runs := a.parts.flatMap Layers.runs
  Collection.settle ((Collection.map Stamped.record ⟨runs.flatMap Collection.rows⟩).filter p)

def add (horizon : Horizon) (time : UInt64) (c : Collection α) (a : Arrangement α) :
    Except Fault (Arrangement α) := do
  let workers := UInt64.ofNat a.parts.length
  let parts ← a.parts.zipIdx.mapM fun (part, index) =>
    let own := c.filter fun r => (shardOf (ArrangedBy.key (κ := κ) r) workers).toNat = index
    part.add horizon (.ofCollection time own)
  return ⟨parts⟩

def close (a : Arrangement α) : Except Fault Unit :=
  a.parts.forM Layers.close

end Arrangement

end TopCharts
