import Mathlib.Data.List.Dedup
import TopCharts.Proofs.ChangeLog.Drain
import TopCharts.Proofs.Rank.Order

/-!
# A drain, time by time

* `total changes key e` : the sum of the weights recorded for an entry under a key, at any time;
* `Delivers us weight` : the updates take back what has a negative weight and deliver what has a
  positive one, in the order of updates;
* `times batch` : the times of a batch, in order;
* `updates_eq_flatMap` : a drain delivers the net weights of the first time of a batch, then those
  of the second, and so on. `delivers_of_one_time` : a batch with only one time;
* `upTo time batch` : what a batch records up to a time. From one time of a batch to the next the
  totals change by the net weights of that time (`total_filter_append`).
-/

namespace TopCharts

open Std (TransOrd LawfulEqOrd)

variable {κ τ : Type}

/-! ## Totals -/

section

variable [DecidableEq κ]

/-- The sum of the weights recorded for an entry under a key. -/
def total (changes : List (Weighted κ τ)) (key : κ) (e : Entry) : Int :=
  (⟨changes.map fun r => (⟨r.key, r.entry⟩, r.diff.toInt)⟩ :
    Collection (Keyed κ)).multiplicity ⟨key, e⟩

theorem total_cons (r : Weighted κ τ) (rs : List (Weighted κ τ)) (key : κ) (e : Entry) :
    total (r :: rs) key e =
      (if r.key = key ∧ r.entry = e then r.diff.toInt else 0) + total rs key e := by
  rw [total, List.map_cons, Collection.multiplicity_cons]
  exact congrArg (· + _) (if_congr Keyed.ext_iff rfl rfl)

theorem total_append (rs rs' : List (Weighted κ τ)) (key : κ) (e : Entry) :
    total (rs ++ rs') key e = total rs key e + total rs' key e := by
  rw [total, List.map_append]
  exact Collection.multiplicity_append _ _ _

theorem total_eq_zero {rs : List (Weighted κ τ)} {key : κ} {e : Entry}
    (h : ∀ r ∈ rs, r.key = key → r.entry ≠ e) : total rs key e = 0 := by
  apply Collection.multiplicity_eq_zero
  intro hx
  rw [List.map_map, List.mem_map] at hx
  obtain ⟨r, hr, hkeyed⟩ := hx
  obtain ⟨hkey, hentry⟩ := Keyed.mk.inj hkeyed
  exact h r hr hkey hentry

theorem total_induction {rs : List (Weighted κ τ)} {p : Int → Prop} (hzero : p 0)
    (h : ∀ r ∈ rs, p (total rs r.key r.entry)) (key : κ) (e : Entry) : p (total rs key e) := by
  by_cases hr : ∃ r ∈ rs, r.key = key ∧ r.entry = e
  · obtain ⟨r, hr, rfl, rfl⟩ := hr
    exact h r hr
  · rw [total_eq_zero fun r hmem hkey hentry => hr ⟨r, hmem, hkey, hentry⟩]
    exact hzero

theorem total_filter_append [DecidableEq τ] {done : List τ} {t : τ} (ht : t ∉ done)
    (batch : List (Weighted κ τ)) (key : κ) (e : Entry) :
    total (batch.filter (·.time ∈ done ++ [t])) key e =
      total (batch.filter (·.time ∈ done)) key e + net batch (t, key, e) := by
  induction batch with
  | nil => rfl
  | cons r batch ih =>
    have hplace : r.place = (t, key, e) ↔ r.time = t ∧ r.key = key ∧ r.entry = e := by
      rw [Weighted.place, Prod.mk.injEq, Prod.mk.injEq]
    rw [net_cons, List.filter_cons, List.filter_cons]
    by_cases hr : r.time = t
    · subst hr
      simp only [List.mem_append, List.mem_singleton, or_true, decide_true, if_true, ht,
        decide_false, Bool.false_eq_true, if_false, total_cons, hplace, true_and] at ih ⊢
      rw [ih]
      exact Int.add_left_comm _ _ _
    · by_cases hdone : r.time ∈ done
      · simp only [List.mem_append, List.mem_singleton, hr, or_false, hdone, decide_true, if_true,
          total_cons, hplace, false_and, if_false, Int.zero_add] at ih ⊢
        rw [ih, Int.add_assoc]
      · simp only [List.mem_append, List.mem_singleton, hr, or_false, hdone, decide_false,
          Bool.false_eq_true, if_false, hplace, false_and, Int.zero_add] at ih ⊢
        exact ih

end

/-! ## Updates that deliver weights -/

/-- The updates take back what has a negative weight and deliver what has a positive one. -/
structure Delivers [Ord κ] (us : List (Update κ)) (weight : κ → Entry → Int) : Prop where
  removed : ∀ key e, ⟨key, .remove, e⟩ ∈ us ↔ weight key e < 0
  added : ∀ key e, ⟨key, .add, e⟩ ∈ us ↔ 0 < weight key e
  order : us.Pairwise fun u v => compare u v = .lt

namespace ChangeLog

variable [Ord κ] [TransOrd κ] [LawfulEqOrd κ] [DecidableEq κ] [Ord τ] [TransOrd τ] [LawfulEqOrd τ]
  [DecidableEq τ]

omit [TransOrd κ] [LawfulEqOrd κ] [TransOrd τ] in
/-- Of the updates in the order of a drain, those of one time deliver its net weights. -/
theorem delivers_filter {batch : List (Weighted κ τ)} {timed : List (τ × Update κ)}
    (hsorted : timed.Pairwise fun a b => drainOrder a b = .lt)
    (hmem : ∀ t u, (t, u) ∈ timed ↔
      u.change = .remove ∧ net batch (t, u.key, u.entry) < 0 ∨
      u.change = .add ∧ 0 < net batch (t, u.key, u.entry)) (t : τ) :
    Delivers ((timed.filter (·.1 = t)).map Prod.snd) fun key e => net batch (t, key, e) := by
  have hus (u : Update κ) : u ∈ (timed.filter (·.1 = t)).map Prod.snd ↔ (t, u) ∈ timed := by
    rw [List.mem_map]
    constructor
    · rintro ⟨x, hx, rfl⟩
      obtain ⟨hx, ht⟩ := List.mem_filter.1 hx
      rw [← of_decide_eq_true ht]
      exact hx
    · intro hu
      exact ⟨_, List.mem_filter.2 ⟨hu, decide_eq_true rfl⟩, rfl⟩
  refine ⟨fun key e => ?_, fun key e => ?_, List.pairwise_map.2 ?_⟩
  · rw [hus, hmem]
    simp
  · rw [hus, hmem]
    simp
  · refine (hsorted.filter _).imp_of_mem fun ha hb hab => ?_
    have ha := of_decide_eq_true (List.mem_filter.1 ha).2
    have hb := of_decide_eq_true (List.mem_filter.1 hb).2
    refine ((drainOrder_eq_lt.1 hab).resolve_left fun hlt => ?_).2
    rw [ha, hb, Std.ReflOrd.compare_self] at hlt
    cases hlt

theorem delivers_of_one_time (time : τ) {batch : List (Weighted κ τ)}
    (htime : ∀ t key e, t ≠ time → net batch (t, key, e) = 0) {us : List (Update κ)}
    (h : updates batch = .ok us) : Delivers us fun key e => net batch (time, key, e) := by
  obtain ⟨timed, rfl, hsorted, hmem⟩ := updates_eq_ok h
  have hfilter : timed.filter (·.1 = time) = timed := by
    refine List.filter_eq_self.2 fun x hx => decide_eq_true (Classical.not_not.1 fun hne => ?_)
    have hsign := (hmem x.1 x.2).1 hx
    rw [htime _ _ _ hne] at hsign
    simp at hsign
  have hdelivers := delivers_filter hsorted hmem time
  rw [hfilter] at hdelivers
  exact hdelivers

def times (batch : List (Weighted κ τ)) : List τ :=
  ((batch.map Weighted.time).mergeSort fun a b => (compare a b).isLE).dedup

omit [Ord κ] [TransOrd κ] [LawfulEqOrd κ] [DecidableEq κ] [TransOrd τ] [LawfulEqOrd τ] in
theorem mem_times {batch : List (Weighted κ τ)} {t : τ} :
    t ∈ times batch ↔ ∃ r ∈ batch, r.time = t := by
  rw [times, List.mem_dedup, List.mem_mergeSort, List.mem_map]

omit [Ord κ] [TransOrd κ] [LawfulEqOrd κ] [DecidableEq κ] in
theorem pairwise_times (batch : List (Weighted κ τ)) :
    (times batch).Pairwise fun a b => compare a b = .lt := by
  have hsorted := (pairwise_mergeSort_isLE compare (batch.map Weighted.time)).sublist
    (List.dedup_sublist _)
  refine (hsorted.and (List.nodup_dedup _)).imp fun hab => ?_
  refine (Ordering.isLE_iff_eq_lt_or_eq_eq.1 hab.1).resolve_right fun heq => hab.2 ?_
  exact LawfulEqOrd.eq_of_compare heq

/-- **A drain goes through the times of its batch**, and delivers the net weights of each. -/
theorem updates_eq_flatMap {batch : List (Weighted κ τ)} {us : List (Update κ)}
    (h : updates batch = .ok us) :
    ∃ part : τ → List (Update κ), us = (times batch).flatMap part ∧
      ∀ t, Delivers (part t) fun key e => net batch (t, key, e) := by
  obtain ⟨timed, rfl, hsorted, hmem⟩ := updates_eq_ok h
  refine ⟨fun t => (timed.filter (·.1 = t)).map Prod.snd, ?_, delivers_filter hsorted hmem⟩
  rw [← List.map_flatMap]
  refine congrArg _ (eq_of_pairwise_compare_lt hsorted (List.pairwise_flatMap.2 ⟨?_, ?_⟩) ?_)
  · exact fun t _ => hsorted.filter _
  · refine (pairwise_times batch).imp fun hlt a ha b hb => drainOrder_eq_lt.2 (.inl ?_)
    rw [of_decide_eq_true (List.mem_filter.1 ha).2, of_decide_eq_true (List.mem_filter.1 hb).2]
    exact hlt
  · intro x
    rw [List.mem_flatMap]
    constructor
    · intro hx
      exact ⟨x.1, mem_times.2 (exists_time_eq ((hmem x.1 x.2).1 hx)),
        List.mem_filter.2 ⟨hx, decide_eq_true rfl⟩⟩
    · rintro ⟨t, -, hx⟩
      exact (List.mem_filter.1 hx).1

/-! ## Records up to a time -/

def upTo (time : τ) (batch : List (Weighted κ τ)) : List (Weighted κ τ) :=
  batch.filter fun r => (compare r.time time).isLE

omit [Ord κ] [TransOrd κ] [LawfulEqOrd κ] [DecidableEq κ] in
/-- The times up to one of the times of a batch. -/
theorem filter_eq_upTo {batch : List (Weighted κ τ)} {done rest : List τ} {t : τ}
    (h : times batch = done ++ t :: rest) :
    batch.filter (·.time ∈ done ++ [t]) = upTo t batch := by
  have hsorted := pairwise_times batch
  rw [h] at hsorted
  obtain ⟨-, hrest, hbefore⟩ := List.pairwise_append.1 hsorted
  refine List.filter_congr fun r hr => ?_
  have hmem : r.time ∈ done ++ t :: rest := h ▸ mem_times.2 ⟨r, hr, rfl⟩
  rw [Bool.eq_iff_iff, decide_eq_true_iff, List.mem_append, List.mem_singleton]
  constructor
  · rintro (hdone | htime)
    · rw [hbefore _ hdone t List.mem_cons_self]
      rfl
    · rw [htime]
      exact Std.ReflCmp.isLE_rfl
  · intro hle
    rcases List.mem_append.1 hmem with hdone | hmem
    · exact .inl hdone
    · rcases List.mem_cons.1 hmem with htime | hlater
      · exact .inr htime
      · have hgt := Std.OrientedCmp.gt_of_lt ((List.pairwise_cons.1 hrest).1 _ hlater)
        rw [hgt] at hle
        cases hle

end ChangeLog

end TopCharts
