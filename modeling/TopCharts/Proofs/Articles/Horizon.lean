import TopCharts.Proofs.Demo.Views

/-!
# The horizon never overtakes the views

* `retentionHorizon_mono`, `retentionHorizon_le` : the horizon moves forward with the clock, and is
  not ahead of the window that the clock is in;
* `horizon_le_of_mem_views` : no generated view belongs to a window that was dropped when an earlier
  epoch, or its own, ended, since none is before the start of its epoch.
-/

namespace TopCharts

/-! ## Windows and horizons -/

theorem toNat_windowStart (timeMs sizeMs : UInt64) :
    (windowStart timeMs sizeMs).toNat =
      (max sizeMs 1).toNat * (timeMs.toNat / (max sizeMs 1).toNat) := by
  have hmod : timeMs % max sizeMs 1 ≤ timeMs := by
    rw [UInt64.le_iff_toNat_le, UInt64.toNat_mod]
    exact Nat.mod_le _ _
  have hdiv := Nat.div_add_mod timeMs.toNat (max sizeMs 1).toNat
  rw [windowStart, UInt64.toNat_sub_of_le _ _ hmod, UInt64.toNat_mod]
  omega

theorem windowStart_mono {a b : UInt64} (h : a ≤ b) (sizeMs : UInt64) :
    windowStart a sizeMs ≤ windowStart b sizeMs := by
  rw [UInt64.le_iff_toNat_le] at h ⊢
  rw [toNat_windowStart, toNat_windowStart]
  exact Nat.mul_le_mul_left _ (Nat.div_le_div_right h)

theorem retentionHorizon_mono {a b : UInt64} (h : a ≤ b) (sizeMs retained : UInt64) :
    retentionHorizon a sizeMs retained ≤ retentionHorizon b sizeMs retained := by
  have hstart := windowStart_mono h sizeMs
  rw [UInt64.le_iff_toNat_le] at hstart ⊢
  rw [retentionHorizon, retentionHorizon, Saturating.toNat_sub, Saturating.toNat_sub]
  exact Nat.sub_le_sub_right hstart _

theorem retentionHorizon_le (clockMs sizeMs retained : UInt64) :
    retentionHorizon clockMs sizeMs retained ≤ windowStart clockMs sizeMs := by
  rw [UInt64.le_iff_toNat_le, retentionHorizon, Saturating.toNat_sub]
  exact Nat.sub_le _ _

theorem retentionHorizon_zero (sizeMs retained : UInt64) :
    retentionHorizon 0 sizeMs retained = 0 := by
  have h := retentionHorizon_le 0 sizeMs retained
  rw [UInt64.le_iff_toNat_le, toNat_windowStart, UInt64.toNat_zero, Nat.zero_div, Nat.mul_zero] at h
  exact UInt64.toNat_inj.1 (Nat.le_zero.1 h)

/-! ## Generated views -/

/-- **No view belongs to a dropped window.** A generated view is not before the horizon of a clock
that shows at most the start of its epoch. -/
theorem horizon_le_of_mem_views {epoch viewsPerEpoch spanMs start clock sizeMs retained : UInt64}
    {vs : List PageView} (h : Demo.views epoch viewsPerEpoch spanMs = .ok vs) {v : PageView}
    (hv : v ∈ vs) (hstart : Checked.mul epoch spanMs = .ok start) (hclock : clock ≤ start) :
    retentionHorizon clock sizeMs retained ≤ (Window.ofView v sizeMs).startMs := by
  have hle : start ≤ v.timeMs := by
    rw [UInt64.le_iff_toNat_le, ← Checked.mul_eq_ok_iff.1 hstart]
    exact (Demo.timeMs_of_mem_views h hv).1
  calc retentionHorizon clock sizeMs retained
      ≤ retentionHorizon start sizeMs retained := retentionHorizon_mono hclock _ _
    _ ≤ windowStart start sizeMs := retentionHorizon_le _ _ _
    _ ≤ windowStart v.timeMs sizeMs := windowStart_mono hle sizeMs

end TopCharts
