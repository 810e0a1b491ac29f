import TopCharts.Demo.Articles
import TopCharts.Metrics
import TopCharts.Router
import TopCharts.Run.Epochs
import TopCharts.Settings
import TopCharts.Tracker
import TopCharts.Workers

/-!
# The article charts program

Page views are replayed from a feed in the first epoch, generated in all, and charted by industry
and window of time. Every worker sees all views and handles those whose window it owns. After each
epoch the windows before the retention horizon are dropped. At the end every chart is shown, and the
metrics.

* `ArticleState`, `handleView`, `expire`, `articleEpoch` : the records, charts and counters of a
  worker, and what a view, the end of an epoch, and an epoch do to them;
* `ArticleChart` : a chart as it is shown;
* `articleLines` : the lines that a run prints.
-/

namespace TopCharts.Run

structure ArticleState where
  tracker : Tracker (Tally Window) Window := .empty
  charts : Store Window chartSize := .empty
  metrics : Metrics := {}

def epochViews (s : ArticleSettings) (replay : List PageView) (epoch : UInt64) :
    Except Fault (List PageView) := do
  let generated ← Demo.views epoch s.viewsPerEpoch s.epochSpanMs
  return (if epoch = 0 then replay else []) ++ generated

/-- Counts one more view of an article in a window and applies the updates. -/
def countArticle (state : ArticleState) (key : Window) (article : Int64) :
    Except Fault ArticleState := do
  let (step, tracker) ← state.tracker.increment key article 1
  let (outcomes, charts) := state.charts.applyEach step.updates
  let metrics := (step.updates.zip outcomes).foldl
    (fun m (u, o) => m.recordApply u.change o) state.metrics
  return { tracker, charts, metrics }

/-- Handles a view that belongs to the worker. -/
def handleView (s : ArticleSettings) (catalog : PageCatalog) (state : ArticleState)
    (v : PageView) : Except Fault ArticleState :=
  let state := { state with metrics := state.metrics.count .eventsIngested 1 }
  match if v.isArticle then catalog.id? v.page else none with
  | some article => countArticle state (.ofView v s.windowSizeMs) article
  | none => .ok { state with metrics := state.metrics.count .eventsFiltered 1 }

def expire (horizonMs : UInt64) (state : ArticleState) : ArticleState :=
  let keep (w : Window) : Bool := horizonMs ≤ w.startMs
  { state with tracker := state.tracker.forget keep, charts := (state.charts.retain keep).2 }

/-- One epoch of worker `index` among `peers`. -/
def articleEpoch (s : ArticleSettings) (catalog : PageCatalog) (replay : List PageView)
    (index peers epoch : UInt64) (state : ArticleState) : Except Fault ArticleState := do
  let views ← epochViews s replay epoch
  let owned := views.filter fun v => shardOf (Window.ofView v s.windowSizeMs) peers = index
  let state ← owned.foldlM (handleView s catalog) state
  let clock ← Checked.mul epoch s.epochSpanMs
  let state := expire (retentionHorizon clock s.windowSizeMs s.retainedWindows) state
  let size := UInt64.ofNat state.charts.size
  return { state with metrics := state.metrics.count .chartsPeak size }

/-- The whole run of worker `index` among `peers`. -/
def articleWorker (s : ArticleSettings) (catalog : PageCatalog) (replay : List PageView)
    (index peers : UInt64) : Except Fault (Snapshot Window × Metrics) := do
  let state ← runEpochs s.run.epochs (articleEpoch s catalog replay index peers) {}
  return (.capture index state.charts, state.metrics)

structure ArticleChart where
  window : Window
  shard : Option UInt64
  articles : List (String × Int64)

def ArticleChart.line (c : ArticleChart) : String :=
  let article (page : String) (views : Int64) : List Char :=
    Json.writeObject [("page", Json.writeText page), ("views", Json.Format.int.write views)]
  String.ofList (Json.writeObject [("industry", Json.writeText c.window.industry),
    ("window_start_ms", (Json.Format.word "u64").write c.window.startMs),
    ("shard", Json.writeOption (Json.Format.word "usize").write c.shard),
    ("articles", Json.writeArray (c.articles.map fun (page, views) => article page views))])

def articleCharts (catalog : PageCatalog) (r : Router Window chartSize) :
    Except RoutingError (List ArticleChart) :=
  r.keys.mapM fun key => do
    let entries := (← r.topK key).getD []
    let page (e : Entry) : String := (catalog.page? e.identity).getD "<unknown>"
    return {
      window := key
      shard := r.ownerOf key
      articles := entries.map fun e => (page e, e.score) }

def articleLines (s : ArticleSettings) (feed : Feed.Contents PageView) :
    Except Failure (List String) :=
  let catalog := PageCatalog.ofList (Demo.pages ++ feed.records.map PageView.page)
  match Workers.run s.run.workers (articleWorker s catalog feed.records) with
  | .error e => .error ⟨e.message, []⟩
  | .ok results =>
    let skipped := Metrics.count {} .eventsFiltered (UInt64.ofNat feed.malformed)
    let metrics := (results.map Prod.snd).foldl Metrics.merge skipped
    match Router.ofSnapshots (results.map Prod.fst) >>= articleCharts catalog with
    | .error e => .error ⟨e.message, []⟩
    | .ok charts => .ok (charts.map ArticleChart.line ++ [metrics.line "top_articles" none])

end TopCharts.Run
