import TopCharts.Proofs.Articles.Worker

/-!
# What the article charts program prints

* `workerState` : the state in which a run leaves a worker; the charts of all workers together are
  `Sharded`, so their snapshots make a router (`sharded_workerState`);
* `articleLines_eq` : the lines are those of the charts that the router lists;
* `ArticleChart.Shows` : a chart lists the most viewed pages of its window, with the exact counts;
* `ArticleRun` : the lines of a run are one such chart for each window that is not before the last
  horizon and has a view of an article;
* `articleLines_whole_run` : a run completes if its views can be generated and counted, and prints
  these lines.
-/

namespace TopCharts.Run

open Attempt
open Std (TransOrd LawfulEqOrd)

section

variable {s : ArticleSettings} {replay : List PageView}

/-! ## The workers together -/

def workerRun (s : ArticleSettings) (replay : List PageView) (index : UInt64) :
    Except Fault ArticleState :=
  runEpochs s.run.epochs
    (articleEpoch s (viewCatalog replay) replay index (max s.run.workers 1)) {}

/-- The state in which a run leaves a worker. -/
def workerState (s : ArticleSettings) (replay : List PageView) (index : UInt64) : ArticleState :=
  (workerRun s replay index).toOption.getD {}

theorem workerRun_eq {index : UInt64} (h : ∃ state, workerRun s replay index = .ok state) :
    workerRun s replay index = .ok (workerState s replay index) := by
  obtain ⟨state, hstate⟩ := h
  rw [workerState, hstate]
  rfl

theorem sharded_workerState (hsize : (viewCatalog replay).size ≤ 2 ^ 63) :
    Sharded s.run.workers fun i => (workerState s replay i).charts := by
  have hcharts (i : UInt64) : (workerState s replay i).charts = .empty ∨
      ∃ views, Charted s (viewCatalog replay) i (max s.run.workers 1)
        (horizonAfter s s.run.epochs.toNat) views (workerState s replay i) := by
    cases hrun : workerRun s replay i with
    | error e =>
      left
      rw [workerState, hrun]
      rfl
    | ok state =>
      have hstate : workerState s replay i = state := by
        rw [workerState, hrun]
        rfl
      obtain ⟨views, -, hcharted⟩ := (meets_run s replay i _ hsize).result state hrun
      exact .inr ⟨views, hstate ▸ hcharted⟩
  constructor
  · intro i
    rcases hcharts i with h | ⟨views, h⟩
    · rw [h]
      exact Store.sound_empty
    · exact fun key => (h.counted.exact.chart key).sound
  · intro i key hkey
    rcases hcharts i with h | ⟨views, h⟩
    · rw [h, Store.get?_empty] at hkey
      cases hkey
    · have hcounted := (h.counted.exact.known key).1 hkey
      rw [Collection.totals_nonempty, workerCounts] at hcounted
      split at hcounted
      · rename_i howned
        rw [← howned.1, shardOf_max]
      · exact absurd rfl hcounted

/-- The chart that the store of a window's worker has for it. -/
def storedChart (s : ArticleSettings) (replay : List PageView) (w : Window) : Option (List Entry) :=
  (workerState s replay (shardOf w s.run.workers)).charts.topK w

def shownChart (s : ArticleSettings) (replay : List PageView) (w : Window) : ArticleChart where
  window := w
  shard := some (shardOf w s.run.workers)
  articles := ((storedChart s replay w).getD []).map fun e =>
    (((viewCatalog replay).page? e.identity).getD "<unknown>", e.score)

end

variable {s : ArticleSettings} {feed : Feed.Contents PageView}

theorem articleLines_of_results {results : List (Snapshot Window × Metrics)}
    (hresults : Workers.run s.run.workers
      (articleWorker s (viewCatalog feed.records) feed.records) = .ok results)
    {charts : List ArticleChart}
    (hcharts : Router.ofSnapshots (results.map Prod.fst) >>=
      articleCharts (viewCatalog feed.records) = .ok charts) :
    ∃ m : Metrics, articleLines s feed =
      .ok (charts.map ArticleChart.line ++ [m.line "top_articles" none]) := by
  have hcatalog : PageCatalog.ofList (Demo.pages ++ feed.records.map PageView.page) =
      viewCatalog feed.records := rfl
  refine ⟨(results.map Prod.snd).foldl Metrics.merge
    (Metrics.count {} .eventsFiltered (UInt64.ofNat feed.malformed)), ?_⟩
  rw [articleLines]
  simp only [hcatalog, hresults, hcharts]

theorem workers_run_eq
    (hrun : ∀ i ∈ shardList s.run.workers, ∃ state, workerRun s feed.records i = .ok state) :
    Workers.run s.run.workers (articleWorker s (viewCatalog feed.records) feed.records) =
      .ok ((shardList s.run.workers).map fun i => (.capture i (workerState s feed.records i).charts,
        (workerState s feed.records i).metrics)) := by
  refine Workers.run_eq_ok_iff.2 (mapM_eq_ok fun i hi => ?_)
  exact bind_eq_ok.2 ⟨_, workerRun_eq (hrun i hi), rfl⟩

theorem articleLines_eq (hsize : (viewCatalog feed.records).size ≤ 2 ^ 63)
    (hrun : ∀ i ∈ shardList s.run.workers, ∃ state, workerRun s feed.records i = .ok state) :
    ∃ (windows : List Window) (m : Metrics), windows.Pairwise (fun a b => compare a b = .lt) ∧
      (∀ w, w ∈ windows ↔ (storedChart s feed.records w).isSome) ∧
      articleLines s feed = .ok ((windows.map (shownChart s feed.records)).map ArticleChart.line ++
        [m.line "top_articles" none]) := by
  obtain ⟨r, hr, hrouted⟩ := (sharded_workerState (s := s) hsize).exists_router (List.Perm.refl _)
  have hrouted (w : Window) : r.topK w = .ok (storedChart s feed.records w) ∧
      r.ownerOf w = if (storedChart s feed.records w).isSome then
        some (shardOf w s.run.workers) else none := hrouted w
  have hkeys (w : Window) : w ∈ r.keys ↔ (storedChart s feed.records w).isSome :=
    Router.mem_keys_of_ownerOf_eq (hrouted w).2
  have hcharts : articleCharts (viewCatalog feed.records) r =
      .ok (r.keys.map (shownChart s feed.records)) := by
    refine mapM_eq_ok fun w hw => ?_
    rw [(hrouted w).1, (hrouted w).2, if_pos ((hkeys w).1 hw)]
    rfl
  obtain ⟨m, hm⟩ := articleLines_of_results (workers_run_eq hrun)
    (bind_eq_ok.2 ⟨r, by rw [List.map_map]; exact hr, hcharts⟩)
  exact ⟨r.keys, m, r.pairwise_keys, hkeys, hm⟩

theorem workerRun_of_articleLines {lines : List String} (h : articleLines s feed = .ok lines) :
    ∀ i ∈ shardList s.run.workers, ∃ state, workerRun s feed.records i = .ok state := by
  rw [articleLines] at h
  dsimp only at h
  split at h
  · cases h
  · rename_i results hresults
    intro i hi
    obtain ⟨result, hresult⟩ := exists_of_mapM_eq_ok (Workers.run_eq_ok_iff.1 hresults) i hi
    obtain ⟨state, hstate, -⟩ := bind_eq_ok.1 hresult
    exact ⟨state, hstate⟩

/-! ## The whole run -/

section

variable {views : List PageView} {w : Window}

theorem charted_workerState (hsize : (viewCatalog feed.records).size ≤ 2 ^ 63)
    (hrun : ∀ i ∈ shardList s.run.workers, ∃ state, workerRun s feed.records i = .ok state)
    (hviews : viewsUntil s feed.records s.run.epochs.toNat = .ok views) (w : Window) :
    Charted s (viewCatalog feed.records) (shardOf w s.run.workers) (max s.run.workers 1)
      (horizonAfter s s.run.epochs.toNat) views
      (workerState s feed.records (shardOf w s.run.workers)) := by
  obtain ⟨views', hviews', hcharted⟩ := (meets_run s feed.records (shardOf w s.run.workers) _
    hsize).result _ (workerRun_eq (hrun _ (shardOf_mem w s.run.workers)))
  rw [hviews] at hviews'
  cases hviews'
  exact hcharted

theorem isWord_count (hsize : (viewCatalog feed.records).size ≤ 2 ^ 63)
    (hrun : ∀ i ∈ shardList s.run.workers, ∃ state, workerRun s feed.records i = .ok state)
    (hviews : viewsUntil s feed.records s.run.epochs.toNat = .ok views)
    (hw : horizonAfter s s.run.epochs.toNat ≤ w.startMs) {page : String}
    (hpage : page ∈ articlePages s views w) : IsWord ((articlePages s views w).count page) := by
  have hcharted := charted_workerState hsize hrun hviews w
  have hinj := pageNumber_inj (s := s) (w := w) (viewCatalog_sound _) hsize hcharted.known
  have hword := hcharted.counted.words w (pageNumber (viewCatalog feed.records) page)
  rw [workerCounts, if_pos ⟨shardOf_max w _, hw⟩, multiplicity_ofList_map hinj hpage] at hword
  exact hword

/-- What is stored for a window after a run: its most viewed pages, unless it is before the last
horizon or has no views of articles. -/
theorem storedChart_eq (hsize : (viewCatalog feed.records).size ≤ 2 ^ 63)
    (hrun : ∀ i ∈ shardList s.run.workers, ∃ state, workerRun s feed.records i = .ok state)
    (hviews : viewsUntil s feed.records s.run.epochs.toNat = .ok views) (w : Window) :
    storedChart s feed.records w =
      if horizonAfter s s.run.epochs.toNat ≤ w.startMs ∧ articlePages s views w ≠ [] then
        some ((mostFrequent chartSize (pageNumber (viewCatalog feed.records))
          (articlePages s views w)).map fun x =>
            ⟨pageNumber (viewCatalog feed.records) x.1, .ofInt x.2⟩)
      else none := by
  have hcharted := charted_workerState hsize hrun hviews w
  have hstored : storedChart s feed.records w = _ := hcharted.counted.exact.topK_eq w
  rw [hstored, workerCounts]
  by_cases hw : horizonAfter s s.run.epochs.toNat ≤ w.startMs
  · have hinj := pageNumber_inj (s := s) (w := w) (viewCatalog_sound _) hsize hcharted.known
    simp only [shardOf_max, hw, and_self, if_true, true_and]
    rw [best_totals_ofList chartSize hinj fun page hpage => isWord_count hsize hrun hviews hw hpage]
    refine if_congr ?_ rfl rfl
    rw [Collection.totals_nonempty, Collection.ofList, ne_eq, List.map_eq_nil_iff,
      List.map_eq_nil_iff]
  · simp only [hw, and_false, false_and, if_false, Collection.totals_empty,
      Finset.not_nonempty_empty]

end

/-- A chart lists the five most viewed pages of its window, with the exact numbers of views, and
the shard of the window. Equal numbers are ordered by the numbers of the pages. -/
structure ArticleChart.Shows (s : ArticleSettings) (replay views : List PageView)
    (c : ArticleChart) : Prop where
  shard : c.shard = some (shardOf c.window s.run.workers)
  articles : (c.articles.map fun (page, n) => (page, n.toInt)) =
    (mostFrequent 5 (pageNumber (viewCatalog replay)) (articlePages s views c.window)).map
      fun (page, n) => (page, (n : Int))

/-- What a run of the article charts prints: in the order of the keys, a chart for each window that
is not before the horizon of the last epoch and has a view of an article, and then the metrics. -/
structure ArticleRun (s : ArticleSettings) (feed : Feed.Contents PageView) (lines : List String)
    (views : List PageView) (charts : List ArticleChart) (m : Metrics) : Prop where
  received : viewsUntil s feed.records s.run.epochs.toNat = .ok views
  printed : lines = charts.map ArticleChart.line ++ [m.line "top_articles" none]
  ordered : (charts.map ArticleChart.window).Pairwise fun a b => compare a b = .lt
  kept : ∀ w, w ∈ charts.map ArticleChart.window ↔
    horizonAfter s s.run.epochs.toNat ≤ w.startMs ∧
      ∃ v ∈ views, v.isArticle ∧ Window.ofView v s.windowSizeMs = w
  shows : ∀ c ∈ charts, c.Shows s feed.records views
  noEpochs : s.run.epochs = 0 → charts = []

section

variable {views : List PageView} {w : Window}

theorem mem_windows_iff (hsize : (viewCatalog feed.records).size ≤ 2 ^ 63)
    (hrun : ∀ i ∈ shardList s.run.workers, ∃ state, workerRun s feed.records i = .ok state)
    (hviews : viewsUntil s feed.records s.run.epochs.toNat = .ok views) (w : Window) :
    (storedChart s feed.records w).isSome ↔
      horizonAfter s s.run.epochs.toNat ≤ w.startMs ∧ articlePages s views w ≠ [] := by
  rw [storedChart_eq hsize hrun hviews]
  split
  · rename_i hw
    exact iff_of_true rfl hw
  · rename_i hw
    exact iff_of_false Bool.false_ne_true hw

theorem shows_shownChart (hsize : (viewCatalog feed.records).size ≤ 2 ^ 63)
    (hrun : ∀ i ∈ shardList s.run.workers, ∃ state, workerRun s feed.records i = .ok state)
    (hviews : viewsUntil s feed.records s.run.epochs.toNat = .ok views)
    (hkept : horizonAfter s s.run.epochs.toNat ≤ w.startMs) (hne : articlePages s views w ≠ []) :
    (shownChart s feed.records w).Shows s feed.records views := by
  have hknown : Known (viewCatalog feed.records) views :=
    (charted_workerState hsize hrun hviews w).known
  refine ⟨rfl, ?_⟩
  show ((((storedChart s feed.records w).getD []).map _).map _) = _
  rw [storedChart_eq hsize hrun hviews, if_pos ⟨hkept, hne⟩, Option.getD_some, List.map_map,
    List.map_map]
  refine List.map_congr_left fun x hx => ?_
  obtain ⟨hpage, hcount⟩ := mem_byFrequency.1 (List.mem_of_mem_take hx)
  have hword := isWord_count hsize hrun hviews hkept hpage
  rw [← hcount] at hword
  refine Prod.ext ?_ hword.toInt_ofInt
  show ((viewCatalog feed.records).page? (pageNumber (viewCatalog feed.records) x.1)).getD _ = x.1
  rw [(viewCatalog_sound _).page?_eq hsize (hknown.id?_eq hpage), Option.getD_some]

theorem articleRun_shownChart (hsize : (viewCatalog feed.records).size ≤ 2 ^ 63)
    (hrun : ∀ i ∈ shardList s.run.workers, ∃ state, workerRun s feed.records i = .ok state)
    (hviews : viewsUntil s feed.records s.run.epochs.toNat = .ok views) {windows : List Window}
    {m : Metrics} (hsorted : windows.Pairwise fun a b => compare a b = .lt)
    (hmem : ∀ w, w ∈ windows ↔ (storedChart s feed.records w).isSome) :
    ArticleRun s feed ((windows.map (shownChart s feed.records)).map ArticleChart.line ++
      [m.line "top_articles" none]) views (windows.map (shownChart s feed.records)) m := by
  have hmem (w : Window) := (hmem w).trans (mem_windows_iff hsize hrun hviews w)
  have hwindows : (windows.map (shownChart s feed.records)).map ArticleChart.window = windows := by
    rw [List.map_map]
    exact List.map_id _
  refine ⟨hviews, rfl, hwindows.symm ▸ hsorted, fun w => ?_, fun c hc => ?_, fun hzero => ?_⟩
  · rw [hwindows, hmem]
    exact and_congr_right fun _ => articlePages_ne_nil
  · obtain ⟨w, hw, rfl⟩ := List.mem_map.1 hc
    obtain ⟨hkept, hne⟩ := (hmem w).1 hw
    exact shows_shownChart hsize hrun hviews hkept hne
  · obtain rfl : [] = views := by
      rw [hzero] at hviews
      exact Except.ok.inj hviews
    rw [List.map_eq_nil_iff, List.eq_nil_iff_forall_not_mem]
    exact fun w hw => ((hmem w).1 hw).2 rfl

end

/-- **The article charts of a whole run.** A run completes if its views can be generated and
counted. Then it prints one chart for each window that is not before the last horizon and has a view
of an article, with the five most viewed pages of the window. -/
theorem articleLines_whole_run (s : ArticleSettings) (feed : Feed.Contents PageView)
    (hsize : (viewCatalog feed.records).size ≤ 2 ^ 63) :
    ((∃ views, viewsUntil s feed.records s.run.epochs.toNat = .ok views ∧ Countable s views) →
      ∃ lines, articleLines s feed = .ok lines) ∧
    ∀ lines, articleLines s feed = .ok lines →
      ∃ views charts m, ArticleRun s feed lines views charts m := by
  constructor
  · intro hviews
    have hrun (i : UInt64) (_ : i ∈ shardList s.run.workers) :
        ∃ state, workerRun s feed.records i = .ok state :=
      (meets_run s feed.records i _ hsize).succeeds hviews
    obtain ⟨_, _, -, -, hlines⟩ := articleLines_eq hsize hrun
    exact ⟨_, hlines⟩
  · intro lines h
    have hrun := workerRun_of_articleLines h
    obtain ⟨views, hviews, -⟩ := (meets_run s feed.records _ _ hsize).result _
      (workerRun_eq (hrun _ (shardOf_mem "" s.run.workers)))
    obtain ⟨windows, m, hsorted, hmem, hlines⟩ := articleLines_eq hsize hrun
    rw [h] at hlines
    cases hlines
    exact ⟨views, _, m, articleRun_shownChart hsize hrun hviews hsorted hmem⟩

/-- Two epochs of four views each, the first after views of a later window: one is not of an
article, and the window of the first epoch is dropped. -/
theorem articleLines_whole_run_two_epochs :
    let s : ArticleSettings :=
      { run := ⟨2, 2⟩, windowSizeMs := 1000, viewsPerEpoch := 4,
        epochSpanMs := 1000, retainedWindows := 0 }
    let feed : Feed.Contents PageView := ⟨[⟨"ann", "a.html", "finance", "NEWS, ARTICLE", 5000⟩,
      ⟨"ann", "a.html", "finance", "ARTICLE", 5999⟩, ⟨"bob", "a.html", "finance", "", 5999⟩,
      ⟨"bob", "stuff.html", "finance", "ARTICLE", 5999⟩], 1⟩
    (viewCatalog feed.records).size ≤ 2 ^ 63 ∧
      (∀ lines, articleLines s feed = .ok lines →
        ∃ views charts m, ArticleRun s feed lines views charts m) ∧
      horizonAfter s 2 = 1000 ∧
      (viewsUntil s feed.records 2).toOption.map (articlePages s · ⟨"finance", 5000⟩) =
        some ["a.html", "a.html", "stuff.html"] ∧
      (articleLines s feed).toOption.map List.length = some 5 ∧
      (articleLines s feed).toOption.bind (·[1]?) = some ("\x7b\"industry\":\"finance\"," ++
        "\"window_start_ms\":5000,\"shard\":1,\"articles\":[" ++
        "\x7b\"page\":\"a.html\",\"views\":2\x7d,\x7b\"page\":\"stuff.html\",\"views\":1\x7d]\x7d") :=
  ⟨by decide +kernel, (articleLines_whole_run _ _ (by decide +kernel)).2, by decide +kernel,
    by decide +kernel, by decide +kernel, by decide +kernel⟩

end TopCharts.Run
