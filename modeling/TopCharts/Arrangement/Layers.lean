import TopCharts.Arrangement.Merge

/-!
# Runs in layers

The runs of an arrangement lie in layers. A layer has room for twice as many rows as the one below
it; a second run in a layer begins a merge with the first, and a merged run moves one layer up.
Every addition pays for some work on the merges, as much as keeps them ahead of the additions.

* `Layer`, `Layers` : a layer is vacant, holds a run, or merges two;
* `Layers.runs` : the runs, the oldest first;
* `Layers.add` : adds a run; `Layers.close` does the last work, when nothing will be added. Either
  fails if a sum of a merge is no word.
-/

namespace TopCharts

open Std (TransOrd)

inductive Layer (α : Type) where
  | vacant
  | single (run : Run α)
  | merging (merge : Merge α)

namespace Layer

variable {α κ : Type} [Ord α] [TransOrd α]

def runs : Layer α → List (Run α)
  | vacant => []
  | single run => [run]
  | merging m => [m.older, m.newer]

def receive [Ord κ] [ArrangedBy α κ] (horizon : Horizon) (run : Run α) : Layer α → Layer α
  | vacant => single run
  | single older => merging (.begin horizon older run)
  | merging m => merging (m.extend run)

/-- Works on the merge of a layer. A merged run leaves it. -/
def work (effort : Nat) : Layer α → Except Fault (Layer α × Option (Run α))
  | merging m => do
    match ← m.work effort with
    | .inl m => return (merging m, none)
    | .inr run => return (vacant, some run)
  | layer => .ok (layer, none)

def finish : Layer α → Except Fault (Option (Run α))
  | vacant => .ok none
  | single run => .ok (some run)
  | merging m => do return some (← m.finish)

end Layer

structure Layers (α : Type) where
  layers : List (Layer α) := []

namespace Layers

variable {α κ : Type} [Ord α] [TransOrd α] [Ord κ] [ArrangedBy α κ]

def runs (l : Layers α) : List (Run α) :=
  l.layers.reverse.flatMap Layer.runs

def level (rows : Nat) : Nat :=
  rows.nextPowerOfTwo.log2

/-- Gives a run to the layer at an index. -/
def place (horizon : Horizon) (run : Run α) : (index : Nat) → List (Layer α) → List (Layer α)
  | 0, [] => [.single run]
  | 0, layer :: layers => layer.receive horizon run :: layers
  | index + 1, [] => .vacant :: place horizon run index []
  | index + 1, layer :: layers => layer :: place horizon run index layers

/-- Works on the merges of all layers, from the smallest on. A merged run moves up, and the work on
the merge that it begins there starts at once. -/
def workOn (horizon : Horizon) (effort : Nat) :
    (risen : Option (Run α)) → List (Layer α) → Except Fault (List (Layer α))
  | none, [] => .ok []
  | some run, [] => .ok [.single run]
  | risen, layer :: layers => do
    let layer := match risen with
      | some run => layer.receive horizon run
      | none => layer
    let (layer, risen) ← layer.work effort
    return layer :: (← workOn horizon effort risen layers)

/-- All that some layers hold, and a newer run, as one run. -/
def unite (horizon : Horizon) :
    List (Layer α) → (newer : Option (Run α)) → Except Fault (Option (Run α))
  | [], newer => .ok newer
  | layer :: layers, newer => do
    let layer := match newer with
      | some run => layer.receive horizon run
      | none => layer
    unite horizon layers (← layer.finish)

/-- Clears the way to the layer at an index: what lies below it moves there as one run, or further
up, if there is a run already. -/
def clear (horizon : Horizon) (index : Nat) (layers : List (Layer α)) :
    Except Fault (List (Layer α)) := do
  match ← unite horizon (layers.take index) none with
  | none => return layers
  | some run =>
    let layers := place horizon run index (.replicate index .vacant ++ layers.drop index)
    match layers[index]? with
    | some (.merging m) =>
      return place horizon (← m.finish) (index + 1) (layers.set index .vacant)
    | _ => return layers

/-- The number of rows that some layers may hold, the largest layer first. -/
def room (layers : List (Layer α)) : Nat :=
  layers.reverse.zipIdx.foldl (fun sum (layer, index) => sum + (layer.runs.length <<< index)) 0

/-- Puts the largest run over some layers, the largest first: as low as its rows allow, and
together with the next run, if all below are small enough. -/
def lower (horizon : Horizon) (run : Run α) : List (Layer α) → List (Layer α)
  | .vacant :: layers =>
    if level run.rows.length ≤ layers.length then lower horizon run layers
    else .single run :: .vacant :: layers
  | .single newer :: layers =>
    if level run.rows.length ≤ layers.length && room layers ≤ (1 <<< (layers.length + 2)) / 8 then
      .merging (.begin horizon run newer) :: layers
    else .single run :: .single newer :: layers
  | layers => .single run :: layers

/-- Lowers the largest run, unless it is being merged. -/
def tidy (horizon : Horizon) (layers : List (Layer α)) : List (Layer α) :=
  match layers.reverse with
  | .single run :: layers => (lower horizon run layers).reverse
  | _ => layers

/-- Whether the smallest run is there and has no rows. -/
def startsEmpty (l : Layers α) : Bool :=
  match l.layers.find? fun layer => !layer.runs.isEmpty with
  | some (.single run) => run.rows.isEmpty
  | _ => false

/-- Adds a run. One without rows still makes the merges go on, but not twice in a row. -/
def add (horizon : Horizon) (run : Run α) (l : Layers α) : Except Fault (Layers α) := do
  if run.rows.isEmpty && l.startsEmpty then return l
  else
    let index := level run.rows.length
    let layers ← workOn horizon (8 <<< index) none l.layers
    let layers ← clear horizon index layers
    return ⟨tidy horizon (place horizon run index layers)⟩

/-- Does the last work. No more times are forgotten. -/
def close (l : Layers α) : Except Fault Unit :=
  discard (l.add none .empty)

end Layers

end TopCharts
