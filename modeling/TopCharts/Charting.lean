import TopCharts.ChangeLog
import TopCharts.Ledgers
import TopCharts.Router
import TopCharts.Shard

/-!
# Charting plays on several workers

Songs and plays arrive in epochs. After each, the counts change, and every change is recorded in
the change log of the worker that owns its chart key, under the number of the epoch. A worker then
drains its log and applies the updates to its charts; or it lets the changes wait for a later epoch.

* `share`, `stepBy` : the part of a list that comes in through one worker, when the list is dealt to
  the workers in turn. One counts the records as it passes them, the other skips ahead;
* `Batch`, `Batch.deal` : what arrives in an epoch, and the `Input` of each worker;
* `ChartWorker` : the log and the charts of a worker;
* `Charting` : the songs and plays so far, the counts, and the workers;
* `Charting.step` : one epoch, from the inputs of the workers to a report for each of them. It fails
  if the ledgers do;
* `Charting.advance` : the epoch of a batch; `Charting.entering` are the plays that come in through
  one worker and count;
* `Charting.close` : the end of a run;
* `Charting.router` : the router over the charts of all workers.
-/

namespace TopCharts

/-- The records that enter through worker `index` when they are dealt to `workers` in turn. -/
def share {α : Type} (workers index : Nat) (records : List α) : List α :=
  (records.zipIdx.filter fun (_, i) => i % workers = index).map Prod.fst

/-- The records after the first `skip`, of which it takes one in `step`. -/
def stepBy {α : Type} (step : Nat) : Nat → List α → List α
  | _, [] => []
  | 0, a :: records => a :: stepBy step (step - 1) records
  | skip + 1, _ :: records => stepBy step skip records

/-- What comes in through one worker in an epoch. -/
structure Input where
  songs : Collection Song
  plays : Collection Play

/-- What arrives in an epoch. -/
structure Batch where
  songs : Collection Song := .empty
  plays : Collection Play := .empty
  /-- Whether the workers drain their logs after the epoch. -/
  drains : Bool := true

/-- The inputs of the workers, to whom songs and plays are dealt in turn. -/
def Batch.deal (b : Batch) (workers : Nat) : List Input :=
  (List.range workers).map fun index =>
    ⟨⟨share workers index b.songs.rows⟩, ⟨share workers index b.plays.rows⟩⟩

structure ChartWorker where
  log : ChangeLog String UInt64 := .empty
  charts : Store String chartSize := .empty

/-- What a worker did when it drained its log. -/
structure Drained where
  updates : List (Update String)
  /-- The outcome of each update. -/
  outcomes : List Outcome
  charts : Store String chartSize

namespace ChartWorker

def record (w : ChartWorker) (time : UInt64) (changes : Collection (Keyed String)) : ChartWorker :=
  let add (log : ChangeLog String UInt64) (row : Keyed String × Int) : ChangeLog String UInt64 :=
    log.record ⟨time, row.1.key, row.1.entry, Int64.ofInt row.2⟩
  { w with log := changes.rows.foldl add w.log }

def drain (w : ChartWorker) : Except Fault (Drained × ChartWorker) := do
  let (updates, log) := w.log.drain
  let updates ← updates
  let (outcomes, charts) := w.charts.applyEach updates
  return ({ updates, outcomes, charts }, { log, charts })

end ChartWorker

/-- The state of charting between epochs. -/
structure Charting where
  minDurationMs : UInt64
  epoch : UInt64 := 0
  plays : Collection Int64 := .empty
  songs : Collection Song := .empty
  counts : Collection (Keyed String) := .empty
  ledgers : Ledgers
  workers : List ChartWorker

namespace Charting

/-- Before the first epoch. There is at least one worker. -/
def start (workers minDurationMs : UInt64) : Charting where
  minDurationMs := minDurationMs
  ledgers := .start (max workers 1).toNat
  workers := List.replicate (max workers 1).toNat {}

def owned (c : Charting) (index : Nat) (changes : Collection (Keyed String)) :
    Collection (Keyed String) :=
  changes.filter fun change =>
    (shardOf change.key (UInt64.ofNat c.workers.length)).toNat = index

/-- The songs of the plays that come in through worker `index` and count. -/
def entering (c : Charting) (b : Batch) (index : Nat) : Collection Int64 :=
  chartablePlays ⟨share c.workers.length index b.plays.rows⟩ c.minDurationMs

/-- One epoch. Every worker reports what it drained, if it did. -/
def step (c : Charting) (inputs : List Input) (drains : Bool) :
    Except Fault (List (Option Drained) × Charting) := do
  let newPlays := inputs.map fun i => chartablePlays i.plays c.minDurationMs
  let newSongs := inputs.map Input.songs
  let ledgers ← c.ledgers.post c.epoch newPlays newSongs
  let plays := (c.plays ++ Ledgers.arrived newPlays).consolidate
  let songs := (c.songs ++ Ledgers.arrived newSongs).consolidate
  let counts := playCounts plays songs
  let changes := countChanges c.counts counts
  let results ← c.workers.zipIdx.mapM fun (w, index) => do
    let w := w.record c.epoch (c.owned index changes)
    if drains then
      let (drained, w) ← w.drain
      return (some drained, w)
    else return (none, w)
  return (results.map Prod.fst,
    { c with
      epoch := c.epoch + 1, plays, songs, counts, ledgers, workers := results.map Prod.snd })

def advance (c : Charting) (b : Batch) : Except Fault (List (Option Drained) × Charting) :=
  c.step (b.deal c.workers.length) b.drains

def close (c : Charting) : Except Fault Unit :=
  c.ledgers.close

def router (c : Charting) : Except RoutingError (Router String chartSize) :=
  Router.ofSnapshots (c.workers.zipIdx.map fun (w, index) =>
    .capture (UInt64.ofNat index) w.charts)

end Charting

end TopCharts
