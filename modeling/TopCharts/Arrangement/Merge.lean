import TopCharts.Collection

/-!
# Runs and their merges

A run is a settled collection whose records carry the times at which they were added. Two runs that
follow each other in time are merged key by key, a few rows at a time, so that no addition has to
wait for a large merge.

* `Stamped`, `Run` : records with their times, and runs of them;
* `ArrangedBy` : records with the key by which they are arranged;
* `Horizon` : the time up to which a merge forgets times, so that rows of one record become one;
* `Merge.begin`, `Merge.work`, `Merge.finish` : a merge is begun, goes on for some rows, or is
  brought to its end. It fails if a sum is no word.
-/

namespace TopCharts

open Std (TransOrd)

/-- Records that are arranged by a key. -/
class ArrangedBy (α : Type) (κ : outParam Type) where
  key : α → κ

/-- A record with the time at which it was added. -/
structure Stamped (α : Type) where
  record : α
  time : UInt64
  deriving DecidableEq

namespace Stamped

variable {α : Type} [Ord α]

instance : Ord (Stamped α) where
  compare := compareLex (compareOn record) (compareOn time)

instance [TransOrd α] : TransOrd (Stamped α) :=
  inferInstanceAs (Std.TransCmp (compareLex (compareOn record) (compareOn time)))

end Stamped

/-- A settled collection of records with times. -/
abbrev Run (α : Type) := Collection (Stamped α)

def Run.ofCollection {α : Type} (time : UInt64) (c : Collection α) : Run α :=
  c.map fun record => ⟨record, time⟩

/-- The time up to which times are forgotten. Without one all are kept. -/
abbrev Horizon := Option UInt64

/-- A time as it is known beyond the horizon. -/
def Horizon.forget (horizon : Horizon) (time : UInt64) : UInt64 :=
  match horizon with
  | some h => max h time
  | none => time

/-- Two runs on their way to becoming one. -/
structure Merge (α : Type) where
  older : Run α
  newer : Run α
  horizon : Horizon
  /-- The rows of each key that is still to come, in the order of the keys. -/
  due : List (List (Stamped α × Int))
  /-- The rows of the keys that are through, the last first. -/
  through : List (Stamped α × Int) := []

namespace Merge

variable {α κ : Type} [Ord α] [TransOrd α]

/-- The rows of two runs by key, the older first. -/
def byKey [Ord κ] [ArrangedBy α κ] (older newer : Run α) : List (List (Stamped α × Int)) :=
  let order (a b : Stamped α × Int) : Ordering :=
    compareOn (fun row => ArrangedBy.key (κ := κ) row.1.record) a b
  ((older.rows ++ newer.rows).mergeSort fun a b => (order a b).isLE).splitBy fun a b =>
    order a b = .eq

/-- The merge of two runs before its first row. -/
def begin [Ord κ] [ArrangedBy α κ] (horizon : Horizon) (older newer : Run α) : Merge α where
  older := older
  newer := newer
  horizon := horizon
  due := byKey older newer

/-- A merge that takes in one more run after the others. -/
def extend (m : Merge α) (run : Run α) : Merge α :=
  { m with newer := m.newer ++ run, due := m.due ++ run.rows.map ([·]) }

def settleKey (horizon : Horizon) (rows : List (Stamped α × Int)) :
    Except Fault (List (Stamped α × Int)) := do
  let known : Run α := Collection.map (fun s => ⟨s.record, horizon.forget s.time⟩) ⟨rows⟩
  return (← known.settle).rows

/-- Whether a record has a single row that repeats the time and the weight of the row before it. -/
def repeats (through rows : List (Stamped α × Int)) : Bool :=
  match rows, through with
  | [row], last :: _ => last.1.time = row.1.time && last.2 = row.2
  | _, _ => false

/-- What it takes to store the merged rows of a key after others, the last first: one for each row,
but nothing for a record whose single row repeats the one before it. -/
def store (through rows : List (Stamped α × Int)) : Nat × List (Stamped α × Int) :=
  (rows.splitBy fun a b => compare a.1.record b.1.record = .eq).foldl
    (fun (cost, through) rows =>
      (if repeats through rows then cost else cost + rows.length, rows.reverse ++ through))
    (0, through)

/-- Merges keys until the effort is spent, and says what is left of it. -/
def workOn (horizon : Horizon) :
    (effort : Nat) → (due : List (List (Stamped α × Int))) → (through : List (Stamped α × Int)) →
      Except Fault (Nat × List (List (Stamped α × Int)) × List (Stamped α × Int))
  | effort, [], through => .ok (effort, [], through)
  | 0, due, through => .ok (0, due, through)
  | effort + 1, rows :: due, through => do
    let (cost, through) := store through (← settleKey horizon rows)
    workOn horizon (effort + 1 - cost) due through

/-- Goes on with a merge. It is over when some of the effort is left. -/
def work (effort : Nat) (m : Merge α) : Except Fault (Merge α ⊕ Run α) := do
  let (left, due, through) ← workOn m.horizon effort m.due m.through
  if left = 0 then return .inl { m with due, through }
  else return .inr ⟨through.reverse⟩

def finish (m : Merge α) : Except Fault (Run α) := do
  let rest ← m.due.mapM (settleKey m.horizon)
  return ⟨m.through.reverse ++ rest.flatten⟩

end Merge

end TopCharts
