import TopCharts.Proofs.Articles.Lines
import TopCharts.Proofs.Metrics.Accounts

/-!
# What the counters of the article charts say

* `articleEvents` : the windows and pages of the views of articles;
* `Metered` : the counters of a worker account for the views of its windows; views of articles add
  to its charts one by one (`Metered.article`);
* `Accounted` : the worker is `Charted` and `Metered`. A view keeps this (`Accounted.handleView`),
  and an epoch does, since what expires is not counted (`Accounted.articleEpoch`);
* `meets_accounted_run` : so it holds after a run;
* `runMetrics` : the counters of all workers, which a run prints; `ArticleAccounts` : they account
  for all views (`exists_articleAccounts`).
-/

namespace TopCharts.Run

open Attempt
open Std (TransOrd LawfulEqOrd)

/-- The windows and pages of the views of articles. -/
def articleEvents (s : ArticleSettings) (views : List PageView) : List (Window × String) :=
  (views.filter PageView.isArticle).map fun v => (Window.ofView v s.windowSizeMs, v.page)

theorem valuesAt_articleEvents (s : ArticleSettings) (views : List PageView) (w : Window) :
    valuesAt (articleEvents s views) w = articlePages s views w := by
  rw [valuesAt, articleEvents, articlePages, List.filter_map, List.map_map, List.filter_filter]
  congr 1
  refine List.filter_congr fun v _ => ?_
  rw [Bool.decide_and, Bool.decide_eq_true]
  exact Bool.and_comm _ _

/-! ## The counters of a worker -/

/-- The counters show the numbers `t`, which account for the views of a worker's windows. -/
structure Metered (s : ArticleSettings) (index peers : UInt64) (views : List PageView) (m : Metrics)
    (t : Counter → Nat) : Prop where
  totals : m.Totals t
  ingested : t .eventsIngested =
    views.countP fun v => shardOf (Window.ofView v s.windowSizeMs) peers = index
  filtered : t .eventsFiltered =
    views.countP fun v => !v.isArticle && shardOf (Window.ofView v s.windowSizeMs) peers = index
  grown : Grown chartSize t
    (sizesOf (shardOf · peers) [index] fun w => (articlePages s views w).length)
    (sizesOf (shardOf · peers) [index] 0)
    (sizesOf (shardOf · peers) [index] fun w => (articlePages s views w).toFinset.card)

section

variable {s : ArticleSettings} {catalog : PageCatalog} {index peers horizonMs : UInt64}
  {before views : List PageView} {state state' : ArticleState} {v : PageView} {m : Metrics}
  {t : Counter → Nat}

theorem metered_start (s : ArticleSettings) (index peers : UInt64) :
    Metered s index peers [] {} 0 where
  totals := .start
  ingested := rfl
  filtered := rfl
  grown := by
    show Grown chartSize 0 (sizesOf _ _ 0) (sizesOf _ _ 0) (sizesOf _ _ 0)
    rw [sizesOf_zero]
    exact .refl chartSize 0

theorem Metered.other (h : Metered s index peers before m t) (hv : v.isArticle = false)
    (howned : shardOf (Window.ofView v s.windowSizeMs) peers = index) :
    Metered s index peers (before ++ [v])
      ((m.count .eventsIngested 1).count .eventsFiltered 1)
      (t + Pi.single .eventsIngested 1 + Pi.single .eventsFiltered 1) := by
  have hpages (w : Window) : articlePages s (before ++ [v]) w = articlePages s before w :=
    articlePages_concat_of_neg fun h => Bool.false_ne_true (hv ▸ h.1)
  refine ⟨(h.totals.count _ 1).count _ 1, ?_, ?_, ?_⟩
  · rw [List.countP_append, ← h.ingested]
    simp [howned]
  · rw [List.countP_append, ← h.filtered]
    simp [howned, hv]
  · simp only [hpages]
    exact (h.grown.count (.inl rfl) 1).count (.inr rfl) 1

theorem countArticle_eq_ok {key : Window} {article : Int64}
    (h : countArticle state key article = .ok state') :
    ∃ change, state.tracker.Moves ⟨key, article⟩ change ∧ state' = {
      tracker := change.2
      charts := (state.charts.applyEach change.1.updates).2
      metrics := (state.charts.report change.1.updates).foldl
        (fun m (u, o) => m.recordApply u.change o) state.metrics } := by
  obtain ⟨change, hchange, h⟩ := bind_eq_ok.1 h
  obtain ⟨score, -, rfl⟩ := Tracker.increment_eq_ok_iff.1 hchange
  cases pure_eq_ok.1 h
  exact ⟨_, state.tracker.upsert_moves _ _ _, rfl⟩

/-- In a window of the worker that is not before the horizon, there is an entry for each page. -/
theorem Charted.card_totals (hcatalog : catalog.Sound) (hsize : catalog.size ≤ 2 ^ 63)
    (h : Charted s catalog index peers horizonMs views state) {w : Window}
    (howned : shardOf w peers = index) (hkept : horizonMs ≤ w.startMs) :
    (workerCounts s catalog index peers horizonMs views w).totals.card =
      (articlePages s views w).toFinset.card := by
  have hinj := pageNumber_inj (s := s) (w := w) hcatalog hsize h.known
  rw [workerCounts, if_pos ⟨howned, hkept⟩]
  exact card_eq_of_mem_iff hinj fun e => mem_totals_ofList hinj

theorem workerCounts_of_ne (hv : v.isArticle)
    (howned : shardOf (Window.ofView v s.windowSizeMs) peers = index)
    (hkept : horizonMs ≤ (Window.ofView v s.windowSizeMs).startMs) {w : Window}
    (hw : Window.ofView v s.windowSizeMs ≠ w) :
    workerCounts s catalog index peers horizonMs (before ++ [v]) w =
      workerCounts s catalog index peers horizonMs before w := by
  rw [workerCounts_of_isArticle hv howned hkept]
  exact if_neg hw

theorem Charted.card_raised (h : Charted s catalog index peers horizonMs before state)
    (h' : Charted s catalog index peers horizonMs (before ++ [v]) state')
    (hv : v.isArticle) (howned : shardOf (Window.ofView v s.windowSizeMs) peers = index)
    (hkept : horizonMs ≤ (Window.ofView v s.windowSizeMs).startMs) (w : Window) :
    ((workerCounts s catalog index peers horizonMs (before ++ [v]) w).totals \
      (workerCounts s catalog index peers horizonMs before w).totals).card =
        if Window.ofView v s.windowSizeMs = w then 1 else 0 := by
  split
  · rename_i hw
    subst hw
    have hnew := h'.counted.words (Window.ofView v s.windowSizeMs) (pageNumber catalog v.page)
    rw [workerCounts_of_isArticle hv howned hkept] at hnew ⊢
    simp only [CountAction.tally, if_true] at hnew ⊢
    rw [Collection.multiplicity_tally, if_pos rfl] at hnew
    rw [Collection.totals_tally_sdiff (h.counted.words _ _) hnew (by decide),
      Finset.card_singleton]
  · rename_i hw
    rw [workerCounts_of_ne hv howned hkept hw, sdiff_self]
    rfl

/-- **A view of an article** is one addition to the chart of its window. -/
theorem Charted.grown (hcatalog : catalog.Sound) (hsize : catalog.size ≤ 2 ^ 63)
    (h : Charted s catalog index peers horizonMs before state)
    {change : Tracker.Step Window × Tracker (Tally Window) Window}
    (hmoves : state.tracker.Moves
      ⟨Window.ofView v s.windowSizeMs, pageNumber catalog v.page⟩ change)
    (h' : Charted s catalog index peers horizonMs (before ++ [v])
      { tracker := change.2, charts := (state.charts.applyEach change.1.updates).2, metrics := m })
    (hv : v.isArticle) (howned : shardOf (Window.ofView v s.windowSizeMs) peers = index)
    (hkept : horizonMs ≤ (Window.ofView v s.windowSizeMs).startMs) :
    Grown chartSize (reported (state.charts.report change.1.updates))
      (fun w => if Window.ofView v s.windowSizeMs = w then 1 else 0)
      (sizesOf (shardOf · peers) [index] fun w => (articlePages s before w).toFinset.card)
      (sizesOf (shardOf · peers) [index]
        fun w => (articlePages s (before ++ [v]) w).toFinset.card) := by
  have hgrown := h.counted.exact.grown h'.counted.exact (fun _ => Collection.oneEach_totals _)
    (hmoves.turns h.counted.totals h'.counted.totals) change.1.nodup_updates
  simp only [h.card_raised h' hv howned hkept] at hgrown
  refine hgrown.resize _ _ fun w => ?_
  by_cases hw : Window.ofView v s.windowSizeMs = w
  · left
    subst hw
    rw [h.card_totals hcatalog hsize howned hkept, h'.card_totals hcatalog hsize howned hkept]
    exact ⟨if_pos (List.mem_singleton.2 howned), if_pos (List.mem_singleton.2 howned)⟩
  · right
    rw [workerCounts_of_ne hv howned hkept hw, sizesOf, sizesOf,
      articlePages_concat_of_neg fun h => hw h.2]
    exact ⟨rfl, rfl⟩

theorem sizesOf_length_concat (hv : v.isArticle)
    (howned : shardOf (Window.ofView v s.windowSizeMs) peers = index) :
    (sizesOf (shardOf · peers) [index] fun w => (articlePages s (before ++ [v]) w).length) =
      (sizesOf (shardOf · peers) [index] fun w => (articlePages s before w).length) +
        fun w => if Window.ofView v s.windowSizeMs = w then 1 else 0 := by
  funext w
  rw [Pi.add_apply, sizesOf, sizesOf]
  by_cases hw : Window.ofView v s.windowSizeMs = w
  · rw [if_pos hw, articlePages_concat_of_pos hv hw, List.length_append, ← hw, howned,
      if_pos List.mem_cons_self, if_pos List.mem_cons_self]
    rfl
  · rw [if_neg hw, articlePages_concat_of_neg fun h => hw h.2, Nat.add_zero]

theorem Metered.article (hcatalog : catalog.Sound) (hsize : catalog.size ≤ 2 ^ 63)
    (hcharted : Charted s catalog index peers horizonMs before state)
    (h : Metered s index peers before state.metrics t) (hv : v.isArticle)
    (howned : shardOf (Window.ofView v s.windowSizeMs) peers = index)
    (hkept : horizonMs ≤ (Window.ofView v s.windowSizeMs).startMs)
    (hstep : countArticle { state with metrics := state.metrics.count .eventsIngested 1 }
      (Window.ofView v s.windowSizeMs) (pageNumber catalog v.page) = .ok state')
    (hcharted' : Charted s catalog index peers horizonMs (before ++ [v]) state') :
    ∃ t, Metered s index peers (before ++ [v]) state'.metrics t := by
  obtain ⟨change, hmoves, rfl⟩ := countArticle_eq_ok hstep
  have hgrown := hcharted.grown hcatalog hsize hmoves hcharted' hv howned hkept
  refine ⟨_, (h.totals.count .eventsIngested 1).foldl_recordApply _, ?_, ?_, ?_⟩
  · rw [List.countP_append, ← h.ingested]
    simp [howned, reported]
  · rw [List.countP_append, ← h.filtered]
    simp [hv, reported]
  · rw [sizesOf_length_concat hv howned]
    exact (h.grown.count (.inl rfl) 1).trans hgrown

theorem Metered.of_filter (h : Metered s index peers (before ++ views.filter fun v =>
      shardOf (Window.ofView v s.windowSizeMs) peers = index) m t) :
    Metered s index peers (before ++ views) m t := by
  have hsizes (size : List String → Nat) :
      (sizesOf (shardOf · peers) [index] fun w => size (articlePages s (before ++ views.filter
        fun v => shardOf (Window.ofView v s.windowSizeMs) peers = index) w)) =
      sizesOf (shardOf · peers) [index] fun w => size (articlePages s (before ++ views) w) := by
    funext w
    refine ite_congr rfl (fun hw => ?_) fun _ => rfl
    show size _ = size _
    rw [articlePages_append, articlePages_append, articlePages_filter]
    rintro v rfl
    exact decide_eq_true (List.mem_singleton.1 hw)
  refine ⟨h.totals, ?_, ?_, hsizes List.length ▸ hsizes (fun l => l.toFinset.card) ▸ h.grown⟩
  · rw [h.ingested, List.countP_append, List.countP_append, List.countP_filter]
    simp only [Bool.and_self]
  · rw [h.filtered, List.countP_append, List.countP_append, List.countP_filter]
    congr 2
    funext v
    simp

/-! ## A run of a worker -/

/-- The worker has charted the views of its windows, and its counters account for them. -/
structure Accounted (s : ArticleSettings) (catalog : PageCatalog) (index peers horizonMs : UInt64)
    (views : List PageView) (state : ArticleState) : Prop
    extends Charted s catalog index peers horizonMs views state where
  metered : ∃ t, Metered s index peers views state.metrics t

theorem Accounted.handleView (hcatalog : catalog.Sound) (hsize : catalog.size ≤ 2 ^ 63)
    (h : Accounted s catalog index peers horizonMs before state)
    (hknown : (catalog.id? v.page).isSome)
    (howned : shardOf (Window.ofView v s.windowSizeMs) peers = index)
    (hkept : horizonMs ≤ (Window.ofView v s.windowSizeMs).startMs) :
    Meets (handleView s catalog state v) False
      (Accounted s catalog index peers horizonMs (before ++ [v])) := by
  refine ⟨False.elim, fun state' hstep => ?_⟩
  have hcharted := (h.toCharted.handleView hcatalog hsize hknown howned hkept).result state' hstep
  obtain ⟨t, hmetered⟩ := h.metered
  refine ⟨hcharted, ?_⟩
  cases hv : v.isArticle with
  | false =>
    rw [Run.handleView, hv] at hstep
    cases hstep
    exact ⟨_, hmetered.other hv howned⟩
  | true =>
    rw [handleView_of_isArticle hv hknown] at hstep
    exact hmetered.article hcatalog hsize h.toCharted hv howned hkept hstep hcharted

/-- **An epoch of a worker** is accounted for. -/
theorem Accounted.articleEpoch (hcatalog : catalog.Sound) (hsize : catalog.size ≤ 2 ^ 63)
    (h : Accounted s catalog index peers horizonMs before state) {replay : List PageView}
    {epoch : UInt64} (hviews : epochViews s replay epoch = .ok views)
    (hknown : Known catalog views)
    (hkept : ∀ v ∈ views, horizonMs ≤ (Window.ofView v s.windowSizeMs).startMs)
    (hepoch : Run.articleEpoch s catalog replay index peers epoch state = .ok state') :
    ∃ t, Metered s index peers (before ++ views) state'.metrics t := by
  obtain ⟨views', hviews', hepoch⟩ := bind_eq_ok.1 hepoch
  rw [hviews] at hviews'
  cases hviews'
  obtain ⟨counted, hcounted, hepoch⟩ := bind_eq_ok.1 hepoch
  obtain ⟨clock, -, hepoch⟩ := bind_eq_ok.1 hepoch
  cases pure_eq_ok.1 hepoch
  have hview : ∀ before, ∀ v ∈ views.filter fun v =>
      shardOf (Window.ofView v s.windowSizeMs) peers = index,
      ∀ state, Accounted s catalog index peers horizonMs before state →
        Meets (Run.handleView s catalog state v) False
          (Accounted s catalog index peers horizonMs (before ++ [v])) := by
    intro before v hv state hstate
    obtain ⟨hv, hindex⟩ := List.mem_filter.1 hv
    exact hstate.handleView hcatalog hsize (hknown v hv) (of_decide_eq_true hindex) (hkept v hv)
  have hfold := Meets.foldlM (W := fun _ => False) (fun _ _ => False.elim) hview h
  obtain ⟨t, hmetered⟩ := (hfold.result counted hcounted).metered
  obtain ⟨htotals, hingested, hfiltered, hgrown⟩ := hmetered.of_filter
  exact ⟨t, htotals.peak _, hingested, hfiltered, hgrown⟩

end

/-- **A run of a worker** is accounted for. -/
theorem meets_accounted_run (s : ArticleSettings) (replay : List PageView) (index peers : UInt64)
    (hsize : (viewCatalog replay).size ≤ 2 ^ 63) :
    Meets (runEpochs s.run.epochs (articleEpoch s (viewCatalog replay) replay index peers) {}) False
      fun state => ∃ views, viewsUntil s replay s.run.epochs.toNat = .ok views ∧
        Accounted s (viewCatalog replay) index peers (horizonAfter s s.run.epochs.toNat) views
          state := by
  refine meets_runEpochs (W := fun _ => False) (P := fun n state => ∃ views,
    viewsUntil s replay n = .ok views ∧
      Accounted s (viewCatalog replay) index peers (horizonAfter s n) views state)
    ?_ (fun _ => False.elim)
    ⟨[], rfl, charted_start s _ index peers _, 0, metered_start s index peers⟩
  rintro i hi state ⟨before, hbefore, hstate⟩
  have hi : i < 2 ^ 64 := hi.trans s.run.epochs.toNat_lt
  refine ⟨False.elim, fun state' hepoch => ?_⟩
  obtain ⟨views, hviews, hcharted⟩ :=
    (meets_epoch hsize hi hbefore hstate.toCharted).result state' hepoch
  obtain ⟨before', hbefore', more, hmore, rfl⟩ := viewsUntil_succ_eq_ok.1 hviews
  rw [hbefore] at hbefore'
  cases hbefore'
  exact ⟨_, hviews, hcharted, hstate.articleEpoch (viewCatalog_sound _) hsize hmore
    (known_epochViews hmore) (fun v hv => horizonAfter_le_of_mem hi hmore hv) hepoch⟩

/-! ## The views of a run -/

/-- How many views a run has: the replayed ones, if there is an epoch, and the generated ones. -/
theorem length_viewsUntil {s : ArticleSettings} {replay views : List PageView} {n : Nat}
    (hn : n < 2 ^ 64) (h : viewsUntil s replay n = .ok views) :
    views.length = (if n = 0 then 0 else replay.length) +
      n * (max s.viewsPerEpoch 1).toNat := by
  induction n generalizing views with
  | zero =>
    cases h
    rw [Nat.zero_mul]
    rfl
  | succ n ih =>
    obtain ⟨before, hbefore, more, hmore, rfl⟩ := viewsUntil_succ_eq_ok.1 h
    obtain ⟨generated, hgenerated, hmore⟩ := bind_eq_ok.1 hmore
    cases pure_eq_ok.1 hmore
    have hlength : generated.length = (max s.viewsPerEpoch 1).toNat := by
      rw [(Demo.generate_eq_ok hgenerated).1]
      exact congrArg UInt64.toNat (ite_self _)
    have hn : n < 2 ^ 64 := Nat.lt_of_succ_lt hn
    rw [List.length_append, List.length_append, ih hn hbefore, hlength, Nat.succ_mul,
      if_neg (Nat.succ_ne_zero n), apply_ite List.length, List.length_nil,
      if_congr (ofNat_eq_zero_iff hn) rfl rfl]
    split <;> omega

/-! ## All workers together -/

section

variable {s : ArticleSettings} {feed : Feed.Contents PageView} {views : List PageView}
  {lines : List String}

/-- The counters of all workers, with the lines of the feed that were left out. -/
def runMetrics (s : ArticleSettings) (feed : Feed.Contents PageView) : Metrics :=
  ((shardList s.run.workers).map fun i => (workerState s feed.records i).metrics).foldl
    Metrics.merge (Metrics.count {} .eventsFiltered (UInt64.ofNat feed.malformed))

theorem getLast?_of_articleLines (h : articleLines s feed = .ok lines) :
    lines.getLast? = some ((runMetrics s feed).line "top_articles" none) := by
  have hresults := workers_run_eq (workerRun_of_articleLines h)
  rw [viewCatalog] at hresults
  rw [articleLines, hresults] at h
  dsimp only at h
  split at h
  · cases h
  · cases h
    rw [List.getLast?_concat, List.map_map]
    rfl

theorem sum_countP_workers (s : ArticleSettings) (views : List PageView) (p : PageView → Bool) :
    ((shardList s.run.workers).map fun i => views.countP fun v =>
      p v && shardOf (Window.ofView v s.windowSizeMs) (max s.run.workers 1) = i).sum =
        views.countP p := by
  have hshard : ∀ v ∈ views, shardOf (Window.ofView v s.windowSizeMs) (max s.run.workers 1) ∈
      (shardList s.run.workers).toFinset := by
    intro v _
    rw [shardOf_max]
    exact List.mem_toFinset.2 (shardOf_mem _ _)
  rw [countP_eq_sum_keys _ hshard p, List.sum_toFinset _ (nodup_shardList _)]
  simp only [List.countP_filter]

/-- **The counters of a worker** account for the views of its windows. -/
theorem exists_metered_workerState (hsize : (viewCatalog feed.records).size ≤ 2 ^ 63)
    (hviews : viewsUntil s feed.records s.run.epochs.toNat = .ok views) {i : UInt64}
    (hrun : ∃ state, workerRun s feed.records i = .ok state) :
    ∃ t, Metered s i (max s.run.workers 1) views (workerState s feed.records i).metrics t := by
  obtain ⟨views', hviews', haccounted⟩ :=
    (meets_accounted_run s feed.records i _ hsize).result _ (workerRun_eq hrun)
  rw [hviews] at hviews'
  cases hviews'
  exact haccounted.metered

theorem exists_totals_runMetrics (hviews : viewsUntil s feed.records s.run.epochs.toNat = .ok views)
    (hsize : (viewCatalog feed.records).size ≤ 2 ^ 63)
    (hrun : ∀ i ∈ shardList s.run.workers, ∃ state, workerRun s feed.records i = .ok state) :
    ∃ t, (runMetrics s feed).Totals t ∧ t .eventsIngested = views.length ∧
      t .eventsFiltered = feed.malformed + views.countP (fun v => !v.isArticle) ∧
      Grown chartSize t (fun w => (articlePages s views w).length) 0
        fun w => (articlePages s views w).toFinset.card := by
  choose! t ht using fun i hi => exists_metered_workerState hsize hviews (hrun i hi)
  have hsum (c : Counter) : ((shardList s.run.workers).map t).sum c =
      ((shardList s.run.workers).map fun i => t i c).sum := by
    rw [Pi.list_sum_apply, List.map_map]
    rfl
  have hall (w : Window) : shardOf w (max s.run.workers 1) ∈ shardList s.run.workers := by
    rw [shardOf_max]
    exact shardOf_mem w _
  refine ⟨_, (Metrics.Totals.start.count .eventsFiltered feed.malformed).foldl_merge
    fun i hi => (ht i hi).totals, ?_, ?_, ?_⟩
  · have hworkers := sum_countP_workers s views fun _ => true
    rw [Pi.add_apply, hsum, List.map_congr_left fun i hi => (ht i hi).ingested]
    simp only [Bool.true_and, List.countP_true] at hworkers
    rw [hworkers]
    exact Nat.zero_add _
  · have hworkers := sum_countP_workers s views fun v => !v.isArticle
    rw [Pi.add_apply, hsum, List.map_congr_left fun i hi => (ht i hi).filtered]
    simp only [hworkers, zero_add, Pi.single_eq_same]
  · have hgrown := Grown.sum (nodup_shardList s.run.workers) fun i hi => (ht i hi).grown
    rw [sizesOf_of_forall hall, sizesOf_of_forall hall, sizesOf_of_forall hall] at hgrown
    rw [zero_add, add_comm]
    exact hgrown.count (.inr rfl) _

/-- The counters that a run prints account for its views: the replayed ones, if there is an epoch,
and the generated ones of all epochs. Every view of an article is an addition. -/
structure ArticleAccounts (s : ArticleSettings) (feed : Feed.Contents PageView)
    (lines : List String) (views : List PageView) (m : Metrics) : Prop where
  received : viewsUntil s feed.records s.run.epochs.toNat = .ok views
  length : views.length = (if s.run.epochs = 0 then 0 else feed.records.length) +
    s.run.epochs.toNat * (max s.viewsPerEpoch 1).toNat
  printed : lines.getLast? = some (m.line "top_articles" none)
  accounts : m.Accounts views.length (feed.malformed + views.countP fun v => !v.isArticle)
    (articleEvents s views)
  adds : m.chartAdds = .ofNat (views.countP PageView.isArticle)

/-- **The counters that a run prints** account for all views. -/
theorem exists_articleAccounts (hsize : (viewCatalog feed.records).size ≤ 2 ^ 63)
    (h : articleLines s feed = .ok lines) : ∃ views m, ArticleAccounts s feed lines views m := by
  have hrun := workerRun_of_articleLines h
  obtain ⟨views, hviews, -⟩ := (meets_run s feed.records _ _ hsize).result _
    (workerRun_eq (hrun _ (shardOf_mem "" s.run.workers)))
  obtain ⟨t, htotals, hingested, hfiltered, hgrown⟩ := exists_totals_runMetrics hviews hsize hrun
  have hevents : (articleEvents s views).length = views.countP PageView.isArticle := by
    rw [articleEvents, List.length_map, List.countP_eq_length_filter]
  simp only [← valuesAt_articleEvents] at hgrown
  refine ⟨views, runMetrics s feed, hviews, ?_, getLast?_of_articleLines h, ?_, ?_⟩
  · have hzero : s.run.epochs.toNat = 0 ↔ s.run.epochs = 0 := UInt64.toNat_inj (b := 0)
    rw [length_viewsUntil s.run.epochs.toNat_lt hviews, if_congr hzero rfl rfl]
  · rw [← hingested, ← hfiltered]
    refine htotals.accounts hgrown (fun _ => le_rfl) ?_
    have := views.countP_le_length (p := PageView.isArticle)
    omega
  · rw [← hevents, ← hgrown.adds_eq]
    exact htotals .chartAdds (by decide)

end

end TopCharts.Run
