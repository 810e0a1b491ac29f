import Mathlib.Tactic.IntervalCases
import TopCharts.Proofs.Articles.Horizon
import TopCharts.Proofs.Pipeline.Basic
import TopCharts.Run.Articles

/-!
# Generated views are never late

* `Spares horizonMs w` : dropping the windows before a horizon leaves the chart and the counts of
  the window `w` as they are; `spares_of_le` : it does if the window is not before the horizon;
* `exists_clock` : the clock of an earlier epoch is a word, and not ahead of the start of this one;
* `views_never_late` : the views of an epoch are there if the numbers they are computed from are
  words, in the order of their times, and within their epoch; and no window that one of them belongs
  to is dropped when an earlier epoch, or their own, ends.
-/

namespace TopCharts.Run

open Attempt

/-! ## Windows that are not dropped -/

/-- Dropping the windows before a horizon touches neither the chart nor the counts of `w`. -/
structure Spares (horizonMs : UInt64) (w : Window) : Prop where
  chart : ∀ state, (expire horizonMs state).charts.get? w = state.charts.get? w
  counts : ∀ (state : ArticleState) (record : Tally Window) (value : Window × Entry),
    value.1 = w → ((expire horizonMs state).tracker.held[record]? = some value ↔
      state.tracker.held[record]? = some value)

theorem spares_of_le {horizonMs : UInt64} {w : Window} (h : horizonMs ≤ w.startMs) :
    Spares horizonMs w where
  chart state := by
    rw [expire]
    dsimp only
    rw [Store.get?_retain, if_pos (decide_eq_true h)]
  counts state record value hvalue := by
    rw [expire]
    dsimp only
    rw [Tracker.getElem?_forget, Option.filter_eq_some_iff, hvalue]
    exact and_iff_left (decide_eq_true h)

/-! ## Clocks -/

variable {spanMs : UInt64}

/-- The clock of an earlier epoch is a word if the start of a later one is. -/
theorem exists_clock {epoch start earlier : UInt64} (hstart : Checked.mul epoch spanMs = .ok start)
    (hle : earlier ≤ epoch) : ∃ clock, Checked.mul earlier spanMs = .ok clock ∧ clock ≤ start := by
  have hclock : earlier.toNat * spanMs.toNat ≤ start.toNat := by
    rw [← Checked.mul_eq_ok_iff.1 hstart]
    exact Nat.mul_le_mul_right _ (UInt64.le_iff_toNat_le.1 hle)
  obtain ⟨clock, hmul, hvalue⟩ := Checked.exists_mul_eq_ok (a := earlier) (b := spanMs)
    (Nat.lt_of_le_of_lt hclock start.toNat_lt)
  refine ⟨clock, hmul, ?_⟩
  rw [UInt64.le_iff_toNat_le, hvalue]
  exact hclock

/-- **Generated views are never late.** An epoch has its views if the numbers they are computed from
are words. Their times do not decrease and lie within the epoch, unless it takes no time. When the
epoch ends, or any before it, the window of each view is not before the horizon, whatever the size of
the windows and the number of those that are kept, so it is not dropped. -/
theorem views_never_late (s : ArticleSettings) (epoch : UInt64) :
    let count := max s.viewsPerEpoch.toNat 1
    let span := s.epochSpanMs.toNat
    ((∃ vs, Demo.views epoch s.viewsPerEpoch s.epochSpanMs = .ok vs) ↔
      ∀ i < count, Demo.InRange epoch.toNat count span i) ∧
    ∀ vs, Demo.views epoch s.viewsPerEpoch s.epochSpanMs = .ok vs →
      vs.length = count ∧ vs.Pairwise (fun v w => v.timeMs ≤ w.timeMs) ∧
      ∀ v ∈ vs, epoch.toNat * span ≤ v.timeMs.toNat ∧
        (0 < s.epochSpanMs → v.timeMs.toNat < (epoch.toNat + 1) * span) ∧
        ∀ earlier ≤ epoch, ∃ clock, Checked.mul earlier s.epochSpanMs = .ok clock ∧
          ∀ sizeMs retained,
            retentionHorizon clock sizeMs retained ≤ (Window.ofView v sizeMs).startMs ∧
            Spares (retentionHorizon clock sizeMs retained) (Window.ofView v sizeMs) := by
  intro count span
  have hcount : (max s.viewsPerEpoch 1).toNat = count := toNat_max_one s.viewsPerEpoch
  refine ⟨hcount ▸ Demo.exists_views_iff, fun vs hvs => ?_⟩
  refine ⟨hcount ▸ (Demo.views_eq_ok hvs).1, Demo.pairwise_views hvs, fun v hv => ?_⟩
  obtain ⟨hstart, hend⟩ := Demo.timeMs_of_mem_views hvs hv
  refine ⟨hstart, hend, fun earlier hearlier => ?_⟩
  obtain ⟨start, hmul⟩ := Demo.exists_start_of_views hvs
  obtain ⟨clock, hclock, hle⟩ := exists_clock hmul hearlier
  refine ⟨clock, hclock, fun sizeMs retained => ?_⟩
  have hkept : retentionHorizon clock sizeMs retained ≤ (Window.ofView v sizeMs).startMs :=
    horizon_le_of_mem_views hvs hv hmul hle
  exact ⟨hkept, spares_of_le hkept⟩

/-- The last epoch whose users are words, with fewer milliseconds than views: two of them have the
same time. Of windows of two milliseconds only the current one is kept, which starts before the
epoch. -/
theorem views_never_late_last_epoch :
    let s : ArticleSettings := { viewsPerEpoch := 4, epochSpanMs := 3 }
    ∃ vs, Demo.views 2635249153387078801 s.viewsPerEpoch s.epochSpanMs = .ok vs ∧ vs.length = 4 ∧
      vs.Pairwise (fun v w => v.timeMs ≤ w.timeMs) ∧
      ∀ v ∈ vs, 7905747460161236403 ≤ v.timeMs.toNat ∧ v.timeMs.toNat < 7905747460161236406 ∧
        7905747460161236402 ≤ (Window.ofView v 2).startMs ∧
        Spares 7905747460161236402 (Window.ofView v 2) := by
  intro s
  obtain ⟨hexists, hviews⟩ := views_never_late s 2635249153387078801
  have hrange : ∀ i < 4, Demo.InRange 2635249153387078801 4 3 i := by
    intro i hi
    interval_cases i <;> exact ⟨by decide, by decide, by decide, by decide, by decide⟩
  obtain ⟨vs, hvs⟩ := hexists.2 hrange
  obtain ⟨hlength, hsorted, htimes⟩ := hviews vs hvs
  refine ⟨vs, hvs, hlength, hsorted, fun v hv => ?_⟩
  obtain ⟨hstart, hend, hclock⟩ := htimes v hv
  obtain ⟨clock, hmul, hkept⟩ := hclock 2635249153387078801 (UInt64.le_refl _)
  obtain rfl : clock = 7905747460161236403 := by
    rw [← UInt64.toNat_inj, ← Checked.mul_eq_ok_iff.1 hmul]
    rfl
  have hhorizon : retentionHorizon 7905747460161236403 2 0 = 7905747460161236402 := by decide
  have hwindow := hkept 2 0
  rw [hhorizon] at hwindow
  exact ⟨hstart, hend (by decide), hwindow⟩

end TopCharts.Run
