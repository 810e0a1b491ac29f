import TopCharts.Charting
import TopCharts.Demo.Music
import TopCharts.Metrics
import TopCharts.Run.Epochs
import TopCharts.Settings
import TopCharts.Workers

/-!
# The music charts program

Plays are replayed from a feed in the first epoch, generated in all, and charted by genre and
overall. The workers deal plays and songs among them. At the end every chart is shown, and the
metrics.

* `workerRecords` : the songs and plays that come in through one worker;
* `MusicState`, `musicEpoch` : the charts and counters, and what an epoch does to them;
* `ChartLine` : a chart as it is shown; songs that the catalog lacks are left out;
* `musicLines` : the lines that a run prints.
-/

namespace TopCharts.Run

open Std (ExtTreeMap)

structure MusicState where
  charting : Charting
  metrics : Metrics

def epochPlays (s : MusicSettings) (replay : List Play) (epoch : UInt64) :
    Except Fault (List Play) := do
  let generated ← Demo.plays epoch s.playsPerEpoch s.songs
  return (if epoch = 0 then replay else []) ++ generated

def ingestPlay (s : MusicSettings) (m : Metrics) (p : Play) : Metrics :=
  (m.count .eventsIngested 1).countIf (!p.isChartable s.minDurationMs) .eventsFiltered

/-- Counts what a worker drained. -/
def countDrained (m : Metrics) (d : Drained) : Metrics :=
  let m := (d.updates.zip d.outcomes).foldl (fun m (u, o) => m.recordApply u.change o) m
  m.count .chartsPeak (UInt64.ofNat d.charts.size)

/-- The songs and plays that worker `index` puts in in an epoch. It goes through all plays and keeps
those whose turn is its own. The catalog comes in in the first epoch. -/
def workerRecords (s : MusicSettings) (songs : List Song) (replay : List Play) (epoch : UInt64)
    (peers index : Nat) : Except Fault (List Song × List Play) := do
  let plays ← epochPlays s replay epoch
  return (if epoch = 0 then stepBy peers index songs else [], share peers index plays)

/-- One epoch. Every worker counts and puts in its own records. -/
def musicEpoch (s : MusicSettings) (songs : List Song) (replay : List Play) (epoch : UInt64)
    (state : MusicState) : Except Fault MusicState := do
  let peers := state.charting.workers.length
  let records ← (List.range peers).mapM (workerRecords s songs replay epoch peers)
  let metrics := records.foldl (fun m (_, plays) => plays.foldl (ingestPlay s) m) state.metrics
  let inputs := records.map fun (songs, plays) => ⟨.ofList songs, .ofList plays⟩
  let (drained, charting) ← state.charting.step inputs true
  return { charting, metrics := (drained.filterMap id).foldl countDrained metrics }

/-- The charts and counters at the end. `malformed` lines of the feed were left out. -/
def musicRun (s : MusicSettings) (songs : List Song) (feed : Feed.Contents Play) :
    Except Fault MusicState := do
  let state ← runEpochs s.run.epochs (musicEpoch s songs feed.records)
    { charting := .start s.run.workers s.minDurationMs
      metrics := Metrics.count {} .eventsFiltered (UInt64.ofNat feed.malformed) }
  state.charting.close
  return state

structure SongChart where
  key : String
  shard : Option UInt64
  songs : List ChartedSong

def SongChart.line (c : SongChart) : String :=
  String.ofList (Json.writeObject [("chart", Json.writeText c.key),
    ("shard", Json.writeOption (Json.Format.word "usize").write c.shard),
    ("songs", Json.writeArray (c.songs.map ChartedSong.write))])

def songCharts (songs : List Song) (r : Router String chartSize) :
    Except RoutingError (List SongChart) := do
  let byId : ExtTreeMap Int64 Song := .ofList (songs.map fun s => (s.id, s))
  r.keys.mapM fun key => do
    let counts := ((← r.topK key).getD []).map PlayCount.ofEntry
    let shown := counts.filterMap fun c => byId[c.songId]?.map fun s => .ofSong s c.plays
    return { key, shard := r.ownerOf key, songs := shown }

def musicLines (s : MusicSettings) (feed : Feed.Contents Play) : Except Failure (List String) :=
  let songs := Demo.catalog s.songs
  match musicRun s songs feed with
  | .error _ => .error ⟨WorkerFailure.message {}, []⟩
  | .ok state =>
    match state.charting.router >>= songCharts songs with
    | .error e => .error ⟨e.message, []⟩
    | .ok charts => .ok (charts.map SongChart.line ++ [state.metrics.line "music_charts" none])

end TopCharts.Run
