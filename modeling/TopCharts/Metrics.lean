import TopCharts.Json.Format
import TopCharts.Store

/-!
# Metrics

The counters of a run. They are machine words that wrap; the peak number of charts is a maximum
instead of a sum.

* `Metrics`, `Counter`, `Metrics.count` : the counters, and counting on one of them;
* `Metrics.recordApply` : counts one update with its outcome;
* `Metrics.merge` : the counters of two parts of a run together;
* `Metrics.line` : the counters as a line of JSON, with a label and the time passed.
-/

namespace TopCharts

structure Metrics where
  eventsIngested : UInt64 := 0
  eventsFiltered : UInt64 := 0
  chartAdds : UInt64 := 0
  chartRemoves : UInt64 := 0
  staleRetractions : UInt64 := 0
  evictions : UInt64 := 0
  chartsPeak : UInt64 := 0
  deriving DecidableEq, Repr, Inhabited

inductive Counter where
  | eventsIngested
  | eventsFiltered
  | chartAdds
  | chartRemoves
  | staleRetractions
  | evictions
  | chartsPeak
  deriving DecidableEq, Repr

namespace Counter

def all : List Counter :=
  [eventsIngested, eventsFiltered, chartAdds, chartRemoves, staleRetractions, evictions, chartsPeak]

def name : Counter → String
  | eventsIngested => "events_ingested"
  | eventsFiltered => "events_filtered"
  | chartAdds => "chart_adds"
  | chartRemoves => "chart_removes"
  | staleRetractions => "stale_retractions"
  | evictions => "evictions"
  | chartsPeak => "charts_peak"

end Counter

namespace Metrics

def get (m : Metrics) : Counter → UInt64
  | .eventsIngested => m.eventsIngested
  | .eventsFiltered => m.eventsFiltered
  | .chartAdds => m.chartAdds
  | .chartRemoves => m.chartRemoves
  | .staleRetractions => m.staleRetractions
  | .evictions => m.evictions
  | .chartsPeak => m.chartsPeak

/-- Counts `n` more, or for the peak, records that it was at least `n`. -/
def count (m : Metrics) (c : Counter) (n : UInt64) : Metrics :=
  match c with
  | .eventsIngested => { m with eventsIngested := m.eventsIngested + n }
  | .eventsFiltered => { m with eventsFiltered := m.eventsFiltered + n }
  | .chartAdds => { m with chartAdds := m.chartAdds + n }
  | .chartRemoves => { m with chartRemoves := m.chartRemoves + n }
  | .staleRetractions => { m with staleRetractions := m.staleRetractions + n }
  | .evictions => { m with evictions := m.evictions + n }
  | .chartsPeak => { m with chartsPeak := max m.chartsPeak n }

/-- Counts one if a condition holds. -/
def countIf (m : Metrics) (p : Bool) (c : Counter) : Metrics :=
  if p then m.count c 1 else m

/-- Counts one update with its outcome. -/
def recordApply (m : Metrics) (change : Change) (o : Outcome) : Metrics :=
  (match change with
    | .add => m.count .chartAdds 1
    | .remove => m.count .chartRemoves 1)
    |>.countIf o.stale .staleRetractions
    |>.countIf o.evicted.isSome .evictions

/-- The counters of two parts of a run together. -/
def merge (m n : Metrics) : Metrics :=
  Counter.all.foldl (fun m c => m.count c (n.get c)) m

structure Elapsed where
  seconds : UInt64
  nanoseconds : UInt64
  deriving DecidableEq, Repr

def Elapsed.milliseconds (e : Elapsed) : Nat :=
  e.seconds.toNat * 1000 + e.nanoseconds.toNat / 1000000

/-- The counters as a line of JSON. -/
def line (m : Metrics) (label : String) (elapsed : Option Elapsed) : String :=
  let number (n : Nat) := (toString n).toList
  String.ofList (Json.writeObject (
    ("label", Json.writeText label)
      :: Counter.all.map (fun c => (c.name, number (m.get c).toNat))
      ++ [("elapsed_ms", Json.writeOption (fun e => number e.milliseconds) elapsed)]))

end Metrics

end TopCharts
