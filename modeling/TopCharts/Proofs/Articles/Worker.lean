import TopCharts.Proofs.Articles.Counting
import TopCharts.Proofs.Articles.Horizon
import TopCharts.Proofs.Run.Basic

/-!
# A worker of the article charts

* `Charted` : tracker and charts of a worker have counted the views of its windows that are not
  before a horizon, and nothing else;
* `Charted.handleView`, `Charted.expire`, `Charted.articleEpoch` : a view, the end of an epoch and a
  whole epoch keep this, and do not fail if the counts are words;
* `viewsUntil`, `horizonAfter` : the views of the first epochs of a run, and the horizon after them;
* `horizonAfter_le_of_mem` : no view of an epoch is before the horizon after the earlier ones;
* `meets_run` : a run of the worker succeeds if the views can be generated and counted, and leaves
  its charts with all views of the windows that are not before the last horizon.

That dropping a window loses nothing hangs on the views that follow: none of them is before the
horizon that is already reached. The replayed ones come first, when the horizon is zero.
-/

namespace TopCharts.Run

open Attempt
open Std (TransOrd LawfulEqOrd)

/-! ## The invariant -/

def ArticleState.pipeline (state : ArticleState) : Pipeline (Tally Window) Window chartSize :=
  ⟨state.tracker, state.charts⟩

/-- The worker has counted the views of its windows that are not before the horizon. -/
structure Charted (s : ArticleSettings) (catalog : PageCatalog) (index peers horizonMs : UInt64)
    (views : List PageView) (state : ArticleState) : Prop where
  known : Known catalog views
  counted : state.pipeline.Counted (workerCounts s catalog index peers horizonMs views)

theorem charted_start (s : ArticleSettings) (catalog : PageCatalog)
    (index peers horizonMs : UInt64) : Charted s catalog index peers horizonMs [] {} where
  known v hv := absurd hv List.not_mem_nil
  counted := by
    have hempty : workerCounts s catalog index peers horizonMs [] = fun _ => .empty := by
      funext w
      exact ite_self _
    rw [hempty]
    exact Pipeline.counted_start

theorem countArticle_pipeline (state : ArticleState) (key : Window) (article : Int64) :
    (countArticle state key article).map ArticleState.pipeline =
      state.pipeline.increment key article 1 := by
  rw [countArticle, Pipeline.increment, show state.pipeline.tracker = state.tracker from rfl]
  cases state.tracker.increment key article 1 with
  | ok change => rfl
  | error e => rfl

section

variable {s : ArticleSettings} {catalog : PageCatalog} {index peers horizonMs : UInt64}
  {before views : List PageView} {state : ArticleState}

theorem handleView_of_isArticle {v : PageView} (hv : v.isArticle)
    (hknown : (catalog.id? v.page).isSome) : handleView s catalog state v =
      countArticle { state with metrics := state.metrics.count .eventsIngested 1 }
        (Window.ofView v s.windowSizeMs) (pageNumber catalog v.page) := by
  rw [handleView, hv, if_pos rfl, id?_eq_pageNumber hknown]

/-- A view of an article is counted unless its count is no word. -/
theorem Charted.increment (hcatalog : catalog.Sound) (hsize : catalog.size ≤ 2 ^ 63)
    (h : Charted s catalog index peers horizonMs before state) {v : PageView}
    (hknown : Known catalog (before ++ [v])) (hv : v.isArticle)
    (howned : shardOf (Window.ofView v s.windowSizeMs) peers = index)
    (hkept : horizonMs ≤ (Window.ofView v s.windowSizeMs).startMs) :
    Meets (state.pipeline.increment (Window.ofView v s.windowSizeMs) (pageNumber catalog v.page) 1)
      (Countable s (before ++ [v])) fun q =>
        q.Counted (workerCounts s catalog index peers horizonMs (before ++ [v])) := by
  have hcounts : workerCounts s catalog index peers horizonMs (before ++ [v]) = _ :=
    workerCounts_of_isArticle hv howned hkept
  rw [hcounts]
  constructor
  · intro hcountable
    have hword : IsWord ((workerCounts s catalog index peers horizonMs (before ++ [v])
        (Window.ofView v s.windowSizeMs)).multiplicity (pageNumber catalog v.page)) :=
      hcountable.isWord hcatalog hsize hknown _ _
    rw [hcounts] at hword
    simp only [CountAction.tally, if_true, Collection.multiplicity_tally] at hword
    exact ⟨_, h.counted.increment_eq _ hword⟩
  · intro q hq
    obtain ⟨q', hq', hcounted⟩ := h.counted.increment
      ⟨fun _ => by decide, h.counted.isWord_of_increment hq⟩
    rw [hq] at hq'
    exact Except.ok.inj hq' ▸ hcounted

/-- **A view of the worker is counted**, if it is not before the horizon. -/
theorem Charted.handleView (hcatalog : catalog.Sound) (hsize : catalog.size ≤ 2 ^ 63)
    (h : Charted s catalog index peers horizonMs before state) {v : PageView}
    (hknown : (catalog.id? v.page).isSome)
    (howned : shardOf (Window.ofView v s.windowSizeMs) peers = index)
    (hkept : horizonMs ≤ (Window.ofView v s.windowSizeMs).startMs) :
    Meets (handleView s catalog state v) (Countable s (before ++ [v]))
      (Charted s catalog index peers horizonMs (before ++ [v])) := by
  have hknown' : Known catalog (before ++ [v]) := by
    intro u hu
    rcases List.mem_append.1 hu with hu | hu
    · exact h.known u hu
    · rw [List.mem_singleton.1 hu]
      exact hknown
  cases hv : v.isArticle with
  | false =>
    have hcounts : workerCounts s catalog index peers horizonMs (before ++ [v]) =
        workerCounts s catalog index peers horizonMs before := workerCounts_of_not_isArticle hv
    rw [Run.handleView, hv]
    exact .ok ⟨hknown', hcounts ▸ h.counted⟩
  | true =>
    rw [handleView_of_isArticle hv hknown]
    have hmeets := Meets.of_map
      (countArticle_pipeline { state with metrics := state.metrics.count .eventsIngested 1 } _ _)
      (h.increment hcatalog hsize hknown' hv howned hkept)
    exact hmeets.imp id fun _ hq => ⟨hknown', hq⟩

theorem Charted.expire (h : Charted s catalog index peers horizonMs views state) {later : UInt64}
    (hle : horizonMs ≤ later) :
    Charted s catalog index peers later views (expire later state) where
  known := h.known
  counted := by
    have hexpire := h.counted.expire fun w : Window => decide (later ≤ w.startMs)
    simp only [workerCounts_expire hle] at hexpire
    exact hexpire

/-- **An epoch of a worker**: its views are counted, if none is before the horizon that was reached
before, and then the windows before the new one are dropped. -/
theorem Charted.articleEpoch (hcatalog : catalog.Sound) (hsize : catalog.size ≤ 2 ^ 63)
    (h : Charted s catalog index peers horizonMs before state) {replay : List PageView}
    {epoch clock : UInt64} (hviews : epochViews s replay epoch = .ok views)
    (hknown : Known catalog views)
    (hkept : ∀ v ∈ views, horizonMs ≤ (Window.ofView v s.windowSizeMs).startMs)
    (hclock : Checked.mul epoch s.epochSpanMs = .ok clock)
    (hlater : horizonMs ≤ retentionHorizon clock s.windowSizeMs s.retainedWindows) :
    Meets (Run.articleEpoch s catalog replay index peers epoch state) (Countable s (before ++ views))
      (Charted s catalog index peers (retentionHorizon clock s.windowSizeMs s.retainedWindows)
        (before ++ views)) := by
  have hall : Known catalog (before ++ views) := fun v hv =>
    (List.mem_append.1 hv).elim (h.known v) (hknown v)
  have howned : Meets
      ((views.filter fun v => shardOf (Window.ofView v s.windowSizeMs) peers = index).foldlM
        (Run.handleView s catalog) state)
      (Countable s (before ++ views)) (Charted s catalog index peers horizonMs (before ++ views)) := by
    refine (Meets.foldlM (W := Countable s) (fun _ _ hc => hc.sublist (List.sublist_append_left _ _))
      ?_ h).imp ?_ ?_
    · intro before v hv state hstate
      obtain ⟨hv, hindex⟩ := List.mem_filter.1 hv
      exact hstate.handleView hcatalog hsize (hknown v hv) (of_decide_eq_true hindex) (hkept v hv)
    · exact fun hc => hc.sublist (List.filter_sublist.append_left before)
    · rintro state ⟨-, hcounted⟩
      rw [workerCounts_filter] at hcounted
      exact ⟨hall, hcounted⟩
  have hepoch : Run.articleEpoch s catalog replay index peers epoch state =
      (views.filter fun v => shardOf (Window.ofView v s.windowSizeMs) peers = index).foldlM
        (Run.handleView s catalog) state >>= fun state =>
          let state := Run.expire (retentionHorizon clock s.windowSizeMs s.retainedWindows) state
          .ok { state with
            metrics := state.metrics.count .chartsPeak (UInt64.ofNat state.charts.size) } := by
    rw [Run.articleEpoch, hviews, hclock]
    rfl
  rw [hepoch]
  exact howned.bind id fun state hstate => .ok ⟨hall, (hstate.expire hlater).counted⟩

end

/-! ## The views of a run -/

def viewsUntil (s : ArticleSettings) (replay : List PageView) : Nat → Except Fault (List PageView)
  | 0 => .ok []
  | n + 1 => do return (← viewsUntil s replay n) ++ (← epochViews s replay (UInt64.ofNat n))

/-- The horizon after the first epochs of a run: that of the clock of the last of them. -/
def horizonAfter (s : ArticleSettings) (epochs : Nat) : UInt64 :=
  retentionHorizon (UInt64.ofNat ((epochs - 1) * s.epochSpanMs.toNat)) s.windowSizeMs
    s.retainedWindows

def viewCatalog (replay : List PageView) : PageCatalog :=
  .ofList (Demo.pages ++ replay.map PageView.page)

theorem viewCatalog_sound (replay : List PageView) : (viewCatalog replay).Sound :=
  PageCatalog.ofList_sound _

theorem viewsUntil_succ_eq_ok {s : ArticleSettings} {replay views : List PageView} {n : Nat} :
    viewsUntil s replay (n + 1) = .ok views ↔ ∃ before, viewsUntil s replay n = .ok before ∧
      ∃ more, epochViews s replay (UInt64.ofNat n) = .ok more ∧ before ++ more = views := by
  rw [viewsUntil, bind_eq_ok]
  simp only [bind_eq_ok, pure_eq_ok]

theorem epochViews_eq_ok {s : ArticleSettings} {replay views : List PageView} {epoch : UInt64}
    (h : epochViews s replay epoch = .ok views) :
    ∃ generated, Demo.views epoch s.viewsPerEpoch s.epochSpanMs = .ok generated ∧
      ∀ v ∈ views, v ∈ generated ∨ epoch = 0 ∧ v ∈ replay := by
  obtain ⟨generated, hgenerated, h⟩ := bind_eq_ok.1 h
  rw [pure_eq_ok] at h
  refine ⟨generated, hgenerated, fun v hv => ?_⟩
  rw [← h, List.mem_append] at hv
  rcases hv with hv | hv
  · split at hv
    · rename_i hzero
      exact .inr ⟨hzero, hv⟩
    · cases hv
  · exact .inl hv

theorem known_epochViews {s : ArticleSettings} {replay views : List PageView} {epoch : UInt64}
    (h : epochViews s replay epoch = .ok views) : Known (viewCatalog replay) views := by
  obtain ⟨generated, hgenerated, hviews⟩ := epochViews_eq_ok h
  intro v hv
  refine PageCatalog.isSome_id?_ofList.2 (List.mem_append.2 ?_)
  rcases hviews v hv with hv | ⟨-, hv⟩
  · exact .inl (Demo.mem_views hgenerated hv)
  · exact .inr (List.mem_map_of_mem hv)

/-! ## The epochs of a run -/

section

variable {s : ArticleSettings} {replay views before : List PageView} {clock index peers : UInt64}
  {i : Nat}

theorem horizonAfter_zero (s : ArticleSettings) : horizonAfter s 0 = 0 := by
  rw [horizonAfter, Nat.zero_sub, Nat.zero_mul]
  exact retentionHorizon_zero _ _

theorem mul_span_eq (hi : i < 2 ^ 64)
    (hclock : Checked.mul (UInt64.ofNat i) s.epochSpanMs = .ok clock) :
    i * s.epochSpanMs.toNat = clock.toNat := by
  rw [← Checked.mul_eq_ok_iff.1 hclock, UInt64.toNat_ofNat_of_lt' hi]

theorem horizonAfter_succ (hi : i < 2 ^ 64)
    (hclock : Checked.mul (UInt64.ofNat i) s.epochSpanMs = .ok clock) :
    horizonAfter s (i + 1) = retentionHorizon clock s.windowSizeMs s.retainedWindows := by
  rw [horizonAfter, Nat.add_sub_cancel, mul_span_eq hi hclock, UInt64.ofNat_toNat]

theorem earlier_clock_le (hi : i < 2 ^ 64)
    (hclock : Checked.mul (UInt64.ofNat i) s.epochSpanMs = .ok clock) :
    UInt64.ofNat ((i - 1) * s.epochSpanMs.toNat) ≤ clock := by
  have hle : (i - 1) * s.epochSpanMs.toNat ≤ clock.toNat := by
    rw [← mul_span_eq hi hclock]
    exact Nat.mul_le_mul_right _ (Nat.sub_le i 1)
  rw [UInt64.le_iff_toNat_le, UInt64.toNat_ofNat_of_lt' (hle.trans_lt clock.toNat_lt)]
  exact hle

/-- **No view comes late**: none is before the horizon that earlier epochs have reached. -/
theorem horizonAfter_le_of_mem (hi : i < 2 ^ 64)
    (hviews : epochViews s replay (UInt64.ofNat i) = .ok views) {v : PageView} (hv : v ∈ views) :
    horizonAfter s i ≤ (Window.ofView v s.windowSizeMs).startMs := by
  obtain ⟨generated, hgenerated, hmem⟩ := epochViews_eq_ok hviews
  obtain ⟨clock, hclock⟩ := Demo.exists_start_of_views hgenerated
  rcases hmem v hv with hv | ⟨hzero, -⟩
  · exact horizon_le_of_mem_views hgenerated hv hclock (earlier_clock_le hi hclock)
  · -- replayed views may have any time, but come when the horizon is zero
    obtain rfl : i = 0 := by
      rw [← UInt64.toNat_ofNat_of_lt' hi, hzero]
      rfl
    rw [horizonAfter_zero]
    exact UInt64.zero_le

/-- An epoch whose views cannot be generated fails, and so do the views of the run. -/
theorem meets_epoch_of_error {P : ArticleState → Prop} {state : ArticleState} {e : Fault}
    (hviews : epochViews s replay (UInt64.ofNat i) = .error e) :
    Meets (articleEpoch s (viewCatalog replay) replay index peers (UInt64.ofNat i) state)
      (∃ views, viewsUntil s replay (i + 1) = .ok views ∧ Countable s views) P := by
  constructor
  · rintro ⟨views, hall, -⟩
    obtain ⟨_, -, more, hmore, -⟩ := viewsUntil_succ_eq_ok.1 hall
    rw [hviews] at hmore
    cases hmore
  · intro state' h
    obtain ⟨more, hmore, -⟩ := bind_eq_ok.1 h
    rw [hviews] at hmore
    cases hmore

theorem meets_epoch (hsize : (viewCatalog replay).size ≤ 2 ^ 63) (hi : i < 2 ^ 64)
    {state : ArticleState} (hbefore : viewsUntil s replay i = .ok before)
    (h : Charted s (viewCatalog replay) index peers (horizonAfter s i) before state) :
    Meets (articleEpoch s (viewCatalog replay) replay index peers (UInt64.ofNat i) state)
      (∃ views, viewsUntil s replay (i + 1) = .ok views ∧ Countable s views)
      fun state => ∃ views, viewsUntil s replay (i + 1) = .ok views ∧
        Charted s (viewCatalog replay) index peers (horizonAfter s (i + 1)) views state := by
  cases hviews : epochViews s replay (UInt64.ofNat i) with
  | error e => exact meets_epoch_of_error hviews
  | ok more =>
    have hall : viewsUntil s replay (i + 1) = .ok (before ++ more) :=
      viewsUntil_succ_eq_ok.2 ⟨before, hbefore, more, hviews, rfl⟩
    obtain ⟨generated, hgenerated, -⟩ := epochViews_eq_ok hviews
    obtain ⟨clock, hclock⟩ := Demo.exists_start_of_views hgenerated
    refine (h.articleEpoch (viewCatalog_sound _) hsize hviews (known_epochViews hviews)
      (fun v hv => horizonAfter_le_of_mem hi hviews hv) hclock
      (retentionHorizon_mono (earlier_clock_le hi hclock) _ _)).imp ?_ ?_
    · rintro ⟨views, hviews', hcountable⟩
      rw [hall] at hviews'
      exact Except.ok.inj hviews' ▸ hcountable
    · intro state' hstate'
      exact ⟨before ++ more, hall, horizonAfter_succ hi hclock ▸ hstate'⟩

end

/-- **A run of a worker** succeeds if its views can be generated and counted, and leaves the views
of all its windows that are not before the last horizon in the charts. -/
theorem meets_run (s : ArticleSettings) (replay : List PageView) (index peers : UInt64)
    (hsize : (viewCatalog replay).size ≤ 2 ^ 63) :
    Meets (runEpochs s.run.epochs (articleEpoch s (viewCatalog replay) replay index peers) {})
      (∃ views, viewsUntil s replay s.run.epochs.toNat = .ok views ∧ Countable s views)
      fun state => ∃ views, viewsUntil s replay s.run.epochs.toNat = .ok views ∧
        Charted s (viewCatalog replay) index peers (horizonAfter s s.run.epochs.toNat) views
          state := by
  refine meets_runEpochs
    (W := fun n => ∃ views, viewsUntil s replay n = .ok views ∧ Countable s views)
    (P := fun n state => ∃ views, viewsUntil s replay n = .ok views ∧
      Charted s (viewCatalog replay) index peers (horizonAfter s n) views state) ?_ ?_ ?_
  · rintro i hi state ⟨before, hbefore, hstate⟩
    exact meets_epoch hsize (hi.trans s.run.epochs.toNat_lt) hbefore hstate
  · rintro i ⟨views, hviews, hcountable⟩
    obtain ⟨before, hbefore, more, -, rfl⟩ := viewsUntil_succ_eq_ok.1 hviews
    exact ⟨before, hbefore, hcountable.sublist (List.sublist_append_left _ _)⟩
  · exact ⟨[], rfl, charted_start s _ index peers _⟩

end TopCharts.Run
