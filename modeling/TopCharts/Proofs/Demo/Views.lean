import Mathlib.Logic.Basic
import TopCharts.Demo.Articles
import TopCharts.Proofs.Arithmetic
import TopCharts.Proofs.Demo.Generator

/-!
# Generated page views

* `InRange epoch count spanMs i` : the numbers that view number `i` is computed from are words;
* `exists_view_iff`, `view_eq_ok` : then, and only then, there is such a view. It is of a known page,
  and its time lies as far into the epoch as `i` into the `count` views;
* `exists_views_iff`, `views_eq_ok` : the views of an epoch, one for each number;
* `pairwise_views`, `timeMs_of_mem_views` : they are in the order of their times, which lie within
  the epoch.
-/

namespace TopCharts.Demo

open Attempt

/-! ## One view -/

/-- The numbers that a view is computed from are words. -/
structure InRange (epoch count spanMs i : Nat) : Prop where
  user : epoch * 7 + i < UInt64.size
  page : i * i + epoch < UInt64.size
  industry : i * 3 + epoch < UInt64.size
  offset : i * spanMs < UInt64.size
  time : epoch * spanMs + i * spanMs / count < UInt64.size

variable {epoch count spanMs i : UInt64}

/-- A view is of a known page, and its time is a share of the epoch's span after its start. -/
theorem view_eq_ok {v : PageView} (h : view epoch count spanMs i = .ok v) :
    InRange epoch.toNat count.toNat spanMs.toNat i.toNat ∧ v.page ∈ pages ∧
      v.timeMs.toNat = epoch.toNat * spanMs.toNat + i.toNat * spanMs.toNat / count.toNat := by
  obtain ⟨sevenfold, hsevenfold, h⟩ := bind_eq_ok.1 h
  obtain ⟨user, huser, h⟩ := bind_eq_ok.1 h
  obtain ⟨square, hsquare, h⟩ := bind_eq_ok.1 h
  obtain ⟨page, hpage, h⟩ := bind_eq_ok.1 h
  obtain ⟨threefold, hthreefold, h⟩ := bind_eq_ok.1 h
  obtain ⟨industry, hindustry, h⟩ := bind_eq_ok.1 h
  obtain ⟨start, hstart, h⟩ := bind_eq_ok.1 h
  obtain ⟨offset, hoffset, h⟩ := bind_eq_ok.1 h
  obtain ⟨time, htime, h⟩ := bind_eq_ok.1 h
  cases pure_eq_ok.1 h
  simp only [Checked.mul_eq_ok_iff, Checked.add_eq_ok_iff, UInt64.toNat_div] at *
  refine ⟨⟨?_, ?_, ?_, ?_, ?_⟩, pick_mem (List.cons_ne_nil _ _) _, ?_⟩
  · exact hsevenfold ▸ huser ▸ user.toNat_lt
  · exact hsquare ▸ hpage ▸ page.toNat_lt
  · exact hthreefold ▸ hindustry ▸ industry.toNat_lt
  · exact hoffset ▸ offset.toNat_lt
  · rw [hstart, hoffset, htime]
    exact time.toNat_lt
  · rw [hstart, hoffset, htime]

theorem exists_view_iff : (∃ v, view epoch count spanMs i = .ok v) ↔
    InRange epoch.toNat count.toNat spanMs.toNat i.toNat := by
  constructor
  · rintro ⟨v, hv⟩
    exact (view_eq_ok hv).1
  · intro h
    have hseven : (7 : UInt64).toNat = 7 := rfl
    have hthree : (3 : UInt64).toNat = 3 := rfl
    have part {m n k : Nat} (h : m + n < k) : m < k := Nat.lt_of_le_of_lt (Nat.le_add_right m n) h
    obtain ⟨sevenfold, hsevenfold, hsevenfold'⟩ :=
      Checked.exists_mul_eq_ok (a := epoch) (b := 7) (part h.user)
    obtain ⟨user, huser, -⟩ :=
      Checked.exists_add_eq_ok (a := sevenfold) (b := i) (hsevenfold' ▸ h.user)
    obtain ⟨square, hsquare, hsquare'⟩ :=
      Checked.exists_mul_eq_ok (a := i) (b := i) (part h.page)
    obtain ⟨page, hpage, -⟩ :=
      Checked.exists_add_eq_ok (a := square) (b := epoch) (hsquare' ▸ h.page)
    obtain ⟨threefold, hthreefold, hthreefold'⟩ :=
      Checked.exists_mul_eq_ok (a := i) (b := 3) (part h.industry)
    obtain ⟨industry, hindustry, -⟩ :=
      Checked.exists_add_eq_ok (a := threefold) (b := epoch) (hthreefold' ▸ h.industry)
    obtain ⟨start, hstart, hstart'⟩ :=
      Checked.exists_mul_eq_ok (a := epoch) (b := spanMs) (part h.time)
    obtain ⟨offset, hoffset, hoffset'⟩ := Checked.exists_mul_eq_ok (a := i) (b := spanMs) h.offset
    obtain ⟨time, htime, -⟩ := Checked.exists_add_eq_ok (a := start) (b := offset / count)
      (by rw [UInt64.toNat_div, hstart', hoffset']; exact h.time)
    rw [view, hsevenfold, hsquare, hthreefold, hstart, hoffset]
    simp only [bind, Except.bind, huser, hpage, hindustry, htime]
    exact ⟨_, rfl⟩

/-! ## The views of an epoch -/

variable {viewsPerEpoch : UInt64} {vs : List PageView}

theorem toNat_count (viewsPerEpoch : UInt64) :
    (min (max viewsPerEpoch 1) (max viewsPerEpoch 1)).toNat = (max viewsPerEpoch 1).toNat :=
  congrArg UInt64.toNat (ite_self _)

theorem views_eq_ok (h : views epoch viewsPerEpoch spanMs = .ok vs) :
    vs.length = (max viewsPerEpoch 1).toNat ∧
      ∀ (i : Nat) (v : PageView), vs[i]? = some v → i < (max viewsPerEpoch 1).toNat ∧
        view epoch (max viewsPerEpoch 1) spanMs (UInt64.ofNat i) = .ok v := by
  rw [views, someViews] at h
  simpa only [toNat_count] using generate_eq_ok h

theorem exists_views_iff : (∃ vs, views epoch viewsPerEpoch spanMs = .ok vs) ↔
    ∀ i < (max viewsPerEpoch 1).toNat,
      InRange epoch.toNat (max viewsPerEpoch 1).toNat spanMs.toNat i := by
  rw [views, someViews, exists_generate_iff, toNat_count]
  refine forall₂_congr fun i hi => ?_
  rw [exists_view_iff, UInt64.toNat_ofNat_of_lt' (Nat.lt_trans hi (max viewsPerEpoch 1).toNat_lt)]

/-! ## Their times -/

theorem pairwise_views (h : views epoch viewsPerEpoch spanMs = .ok vs) :
    vs.Pairwise fun v w => v.timeMs ≤ w.timeMs := by
  obtain ⟨-, hget⟩ := views_eq_ok h
  have htime {i : Nat} (hi : i < vs.length) : vs[i].timeMs.toNat =
      epoch.toNat * spanMs.toNat + i * spanMs.toNat / (max viewsPerEpoch 1).toNat := by
    obtain ⟨hlt, hview⟩ := hget i vs[i] (List.getElem?_eq_getElem hi)
    rw [(view_eq_ok hview).2.2,
      UInt64.toNat_ofNat_of_lt' (Nat.lt_trans hlt (max viewsPerEpoch 1).toNat_lt)]
  rw [List.pairwise_iff_getElem]
  intro i j hi hj hij
  rw [UInt64.le_iff_toNat_le, htime hi, htime hj]
  refine Nat.add_le_add_left (Nat.div_le_div_right ?_) _
  exact Nat.mul_le_mul_right _ (Nat.le_of_lt hij)

theorem timeMs_of_mem_views (h : views epoch viewsPerEpoch spanMs = .ok vs) {v : PageView}
    (hv : v ∈ vs) : epoch.toNat * spanMs.toNat ≤ v.timeMs.toNat ∧
      (0 < spanMs → v.timeMs.toNat < (epoch.toNat + 1) * spanMs.toNat) := by
  obtain ⟨i, hi⟩ := List.mem_iff_getElem?.1 hv
  obtain ⟨hlt, hview⟩ := (views_eq_ok h).2 i v hi
  rw [(view_eq_ok hview).2.2,
    UInt64.toNat_ofNat_of_lt' (Nat.lt_trans hlt (max viewsPerEpoch 1).toNat_lt)]
  refine ⟨Nat.le_add_right _ _, fun hspan => ?_⟩
  have hpos : 0 < spanMs.toNat := UInt64.lt_iff_toNat_lt.1 hspan
  have hoffset : i * spanMs.toNat / (max viewsPerEpoch 1).toNat < spanMs.toNat :=
    Nat.div_lt_of_lt_mul (Nat.mul_lt_mul_of_pos_right hlt hpos)
  rw [Nat.succ_mul]
  exact Nat.add_lt_add_left hoffset _

theorem mem_views (h : views epoch viewsPerEpoch spanMs = .ok vs) {v : PageView} (hv : v ∈ vs) :
    v.page ∈ pages := by
  obtain ⟨i, hi⟩ := List.mem_iff_getElem?.1 hv
  exact (view_eq_ok ((views_eq_ok h).2 i v hi).2).2.1

theorem exists_start_of_views (h : views epoch viewsPerEpoch spanMs = .ok vs) :
    ∃ start, Checked.mul epoch spanMs = .ok start := by
  have hfirst := exists_views_iff.1 ⟨vs, h⟩ 0 (toNat_max_one_pos viewsPerEpoch)
  obtain ⟨start, hstart, -⟩ := Checked.exists_mul_eq_ok (a := epoch) (b := spanMs)
    (Nat.lt_of_le_of_lt (Nat.le_add_right _ _) hfirst.time)
  exact ⟨start, hstart⟩

end TopCharts.Demo
