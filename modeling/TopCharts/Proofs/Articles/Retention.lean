import TopCharts.Proofs.Articles.Horizon

/-!
# Windows and retention are exact

Times, sizes and numbers of windows are words, and the horizon is computed in steps that stop at the
ends of their range. The windows that are kept show nothing of this.

* `eq_windowStart_iff` : the start of the window that holds a time is the only multiple of the size
  from which the time is less than a size away;
* `toNat_retentionHorizon` : the horizon lies whole windows before the current one, or at time zero.
  The product of windows and size need not be a word, but then it reaches back before time zero in
  any case;
* `retentionHorizon_le_iff` : a window is kept if the current one is at most the retained number of
  windows ahead of it;
* `Checked.windowStart`, `Checked.horizon` : the same in steps that can fail. None of them does;
* `retention_exact` : all this, for every size and number of windows.
-/

namespace TopCharts

/-! ## Windows -/

theorem eq_windowStart_iff (timeMs sizeMs : UInt64) (w : Nat) :
    w = (windowStart timeMs sizeMs).toNat ↔
      (max sizeMs 1).toNat ∣ w ∧ w ≤ timeMs.toNat ∧ timeMs.toNat < w + (max sizeMs 1).toNat := by
  rw [toNat_windowStart]
  constructor
  · rintro rfl
    exact ⟨Nat.dvd_mul_right _ _, Nat.mul_div_le _ _,
      Nat.lt_mul_div_succ _ (toNat_max_one_pos sizeMs)⟩
  · rintro ⟨⟨q, rfl⟩, hle, hlt⟩
    congr 1
    refine (Nat.div_eq_of_lt_le ?_ ?_).symm
    · rwa [Nat.mul_comm]
    · rwa [Nat.succ_mul, Nat.mul_comm]

/-! ## Horizons -/

/-- The horizon lies whole windows before the current one, or at time zero. -/
theorem toNat_retentionHorizon (clockMs sizeMs retained : UInt64) :
    (retentionHorizon clockMs sizeMs retained).toNat =
      (max sizeMs 1).toNat * (clockMs.toNat / (max sizeMs 1).toNat - retained.toNat) := by
  have hword := (windowStart clockMs sizeMs).toNat_lt
  rw [retentionHorizon, Saturating.toNat_sub, Saturating.toNat_mul, Nat.mul_sub,
    ← toNat_windowStart, Nat.mul_comm retained.toNat]
  -- a product that is not a word exceeds every time
  unfold UInt64.size
  omega

theorem retentionHorizon_le_iff (clockMs sizeMs retained : UInt64) {w : Nat}
    (hw : (max sizeMs 1).toNat ∣ w) :
    (retentionHorizon clockMs sizeMs retained).toNat ≤ w ↔
      clockMs.toNat / (max sizeMs 1).toNat ≤ w / (max sizeMs 1).toNat + retained.toNat := by
  obtain ⟨p, rfl⟩ := hw
  have hpos := toNat_max_one_pos sizeMs
  rw [toNat_retentionHorizon, Nat.mul_le_mul_left_iff hpos, Nat.mul_div_cancel_left p hpos,
    Nat.sub_le_iff_le_add]

/-! ## In steps that can fail -/

namespace Checked

/-- The start of a window. A remainder needs a divisor, and a difference must not be negative. -/
def windowStart (timeMs sizeMs : UInt64) : Option UInt64 := do
  let past ← (rem timeMs (max sizeMs 1)).toOption
  if past ≤ timeMs then some (timeMs - past) else none

/-- The horizon. Products and differences that stop at the ends of the range cannot fail. -/
def horizon (clockMs sizeMs retained : UInt64) : Option UInt64 := do
  let start ← windowStart clockMs sizeMs
  return Saturating.sub start (Saturating.mul retained (max sizeMs 1))

theorem windowStart_eq_some (timeMs sizeMs : UInt64) :
    windowStart timeMs sizeMs = some (TopCharts.windowStart timeMs sizeMs) := by
  have hdivisor : max sizeMs 1 ≠ 0 := fun h => by
    have hpos := toNat_max_one_pos sizeMs
    rw [h] at hpos
    exact absurd hpos (by decide)
  have hle : timeMs % max sizeMs 1 ≤ timeMs := by
    rw [UInt64.le_iff_toNat_le, UInt64.toNat_mod]
    exact Nat.mod_le _ _
  have hrem : rem timeMs (max sizeMs 1) = .ok (timeMs % max sizeMs 1) := if_neg hdivisor
  rw [windowStart, hrem]
  exact if_pos hle

theorem horizon_eq_some (clockMs sizeMs retained : UInt64) :
    horizon clockMs sizeMs retained = some (retentionHorizon clockMs sizeMs retained) := by
  rw [horizon, windowStart_eq_some]
  rfl

end Checked

/-- **Windows and retention are exact.** Later times do not lie in earlier windows, and the horizon
never moves back; it is computed without a fault. With windows of `s` milliseconds, every time lies
in one window, which starts at a multiple of `s`. The horizon is the start of the window that lies
`retained` windows before the current one, or zero if there is none. The windows that start at it or
later are those from which the current one is at most `retained` windows ahead. -/
theorem retention_exact (sizeMs retained : UInt64) :
    (∀ a b, a ≤ b → windowStart a sizeMs ≤ windowStart b sizeMs ∧
      retentionHorizon a sizeMs retained ≤ retentionHorizon b sizeMs retained) ∧
    (∀ clockMs, Checked.horizon clockMs sizeMs retained =
      some (retentionHorizon clockMs sizeMs retained)) ∧
    let s : Nat := max sizeMs.toNat 1
    (∀ (timeMs : UInt64) (w : Nat), w = (windowStart timeMs sizeMs).toNat ↔
      s ∣ w ∧ w ≤ timeMs.toNat ∧ timeMs.toNat < w + s) ∧
    (∀ clockMs, ((retentionHorizon clockMs sizeMs retained).toNat : Int) =
      s * max 0 ((clockMs.toNat / s : Nat) - (retained.toNat : Int))) ∧
    ∀ (clockMs : UInt64) (w : Nat), s ∣ w →
      ((retentionHorizon clockMs sizeMs retained).toNat ≤ w ↔
        clockMs.toNat / s ≤ w / s + retained.toNat) := by
  refine ⟨fun a b h => ⟨windowStart_mono h sizeMs, retentionHorizon_mono h sizeMs retained⟩,
    fun clockMs => Checked.horizon_eq_some clockMs sizeMs retained, ?_⟩
  intro s
  have hs : (max sizeMs 1).toNat = s := toNat_max_one sizeMs
  refine ⟨fun timeMs w => ?_, fun clockMs => ?_, fun clockMs w hw => ?_⟩
  · rw [← hs]
    exact eq_windowStart_iff timeMs sizeMs w
  · rw [toNat_retentionHorizon, hs, Int.natCast_mul]
    congr 1
    omega
  · rw [← hs] at hw ⊢
    exact retentionHorizon_le_iff clockMs sizeMs retained hw

/-- More windows of an hour than fit into a word, and windows of size zero, up to the last time. -/
theorem retention_exact_ends :
    let last : UInt64 := 0xffffffffffffffff
    (retentionHorizon last 3600000 last).toNat = 0 ∧
      (5 ≤ last ∧ windowStart 5 0 ≤ windowStart last 0 ∧
        retentionHorizon 5 0 3 ≤ retentionHorizon last 0 3) ∧
      max (0 : UInt64).toNat 1 ∣ 18446744073709551612 ∧
        (retentionHorizon last 0 3).toNat ≤ 18446744073709551612 := by
  intro last
  obtain ⟨-, -, -, hhours, -⟩ := retention_exact 3600000 last
  obtain ⟨hmono, -, -, -, hkept⟩ := retention_exact 0 3
  have hle : 5 ≤ last := by decide
  refine ⟨?_, ⟨hle, hmono 5 last hle⟩, by decide, ?_⟩
  · exact Int.ofNat.inj ((hhours last).trans (by decide))
  · exact (hkept last _ (by decide)).2 (by decide)

end TopCharts
