import TopCharts.Chart.Codec
import TopCharts.Update

/-!
# A store of charts

A store keeps one chart per key. The first update seen for a key creates its chart, which stays,
even when it empties, until the key is dropped.

* `Outcome` : what an update did; `Outcome.merge` for a run of them;
* `Store κ k`, with `apply`, `applyUpdate`, `applyEach`, `applyAll`, `applyChange`;
* `get?`, `topK`, `keys`, `size` : the observations;
* `dropKey`, `retain` : releasing keys;
* `encode`, `restore` : a chart to and from its bytes.
-/

namespace TopCharts

open Std (ExtTreeMap TransOrd)

/-- What an update, or a run of them, did to a store. -/
structure Outcome where
  /-- A key had no chart before. -/
  created : Bool := false
  /-- A retraction took back a ranked entry. -/
  retracted : Bool := false
  /-- A retraction found nothing to take back. -/
  stale : Bool := false
  /-- The last entry that an addition pushed out of its chart. -/
  evicted : Option Entry := none
  deriving DecidableEq, Repr

/-- The outcome of two runs, the second after the first. -/
def Outcome.merge (first second : Outcome) : Outcome where
  created := first.created || second.created
  retracted := first.retracted || second.retracted
  stale := first.stale || second.stale
  evicted := second.evicted <|> first.evicted

def Outcome.mergeAll (outcomes : List Outcome) : Outcome :=
  outcomes.foldl merge {}

def chartSize : Nat := 5

/-- The charts of many keys. -/
structure Store (κ : Type) (k : Nat) [Ord κ] where
  charts : ExtTreeMap κ (Chart k)

namespace Store

variable {κ : Type} [Ord κ] [TransOrd κ] {k : Nat}

def empty : Store κ k := ⟨∅⟩

instance : Inhabited (Store κ k) := ⟨empty⟩

/-! ## Updates -/

/-- Applies one change to the chart of `key`, which starts empty if the key is new. -/
def apply (s : Store κ k) (key : κ) (change : Change) (e : Entry) : Outcome × Store κ k :=
  let created := !s.charts.contains key
  let chart := s.charts.getD key .empty
  match change with
  | .add =>
    let (evicted, chart) := chart.add e
    ({ created, evicted }, ⟨s.charts.insert key chart⟩)
  | .remove =>
    let (retracted, chart) := chart.remove e
    ({ created, retracted, stale := !retracted }, ⟨s.charts.insert key chart⟩)

def applyUpdate (s : Store κ k) (u : Update κ) : Outcome × Store κ k :=
  s.apply u.key u.change u.entry

/-- Applies updates in turn, each with an outcome of its own. -/
def applyEach (s : Store κ k) : List (Update κ) → List Outcome × Store κ k
  | [] => ([], s)
  | u :: us =>
    let (outcome, s) := s.applyUpdate u
    let (outcomes, s) := s.applyEach us
    (outcome :: outcomes, s)

/-- Applies updates in turn and merges their outcomes. -/
def applyAll (s : Store κ k) (updates : List (Update κ)) : Outcome × Store κ k :=
  let (outcomes, s) := s.applyEach updates
  (Outcome.mergeAll outcomes, s)

/-- Changes a value of `key` from `old` to `new`, the retraction first. -/
def applyChange (s : Store κ k) (key : κ) (old new : Option Entry) : Outcome × Store κ k :=
  let (outcome, s) := match old with
    | some e => s.apply key .remove e
    | none => ({}, s)
  match new with
  | some e =>
    let (next, s) := s.apply key .add e
    (outcome.merge next, s)
  | none => (outcome, s)

/-! ## Observations -/

def get? (s : Store κ k) (key : κ) : Option (Chart k) :=
  s.charts[key]?

def topK (s : Store κ k) (key : κ) : Option (List Entry) :=
  (s.get? key).map Chart.toList

def keys (s : Store κ k) : List κ :=
  s.charts.keys

def size (s : Store κ k) : Nat :=
  s.charts.size

def isEmpty (s : Store κ k) : Bool :=
  s.charts.isEmpty

/-! ## Releasing keys -/

/-- Drops the chart of a key and returns it. -/
def dropKey (s : Store κ k) (key : κ) : Option (Chart k) × Store κ k :=
  (s.get? key, ⟨s.charts.erase key⟩)

/-- Drops the keys that fail `keep` and counts them. -/
def retain (s : Store κ k) (keep : κ → Bool) : Nat × Store κ k :=
  let charts := s.charts.filter fun key _ => keep key
  (s.charts.size - charts.size, ⟨charts⟩)

/-! ## Encodings -/

def encode (s : Store κ k) (key : κ) : Option (List UInt8) :=
  (s.get? key).map Chart.encode

/-- Sets the chart of a key from its encoding. A value that is not computed unsets the key and
reports `false`. -/
def restore (s : Store κ k) (key : κ) (bytes : Option (List UInt8)) :
    Except CorruptEncoding (Bool × Store κ k) := do
  match ← Chart.decode bytes with
  | some chart => return (true, ⟨s.charts.insert key chart⟩)
  | none => return (false, ⟨s.charts.erase key⟩)

end Store

end TopCharts
