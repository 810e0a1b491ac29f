import Mathlib.Algebra.BigOperators.Pi
import TopCharts.Metrics
import TopCharts.Proofs.Store.Report

/-!
# What counters add up to

* `Metrics.Totals m t` : the counters show the numbers `t`, as far as words can. The peak number of
  charts is no total;
* `Totals.count`, `Totals.merge` : what counting and merging do to the numbers, and
  `Totals.foldl_merge` for the parts of a run;
* `reported log` : the numbers that updates with their outcomes count; `Totals.foldl_recordApply`;
* `Store.reported_report` : for the report of a store they are its additions and retractions, its
  `evictions` and its `stales`.
-/

namespace TopCharts

open Std (TransOrd)

namespace Metrics

/-- The counters show the numbers, but wrap. -/
def Totals (m : Metrics) (t : Counter → Nat) : Prop :=
  ∀ c, c ≠ .chartsPeak → m.get c = UInt64.ofNat (t c)

variable {m m' : Metrics} {t t' : Counter → Nat} {c : Counter}

theorem get_count (hc : c ≠ .chartsPeak) (m : Metrics) (counter : Counter) (n : UInt64) :
    (m.count counter n).get c = m.get c + if c = counter then n else 0 := by
  cases counter <;> cases c <;> first | contradiction | exact rfl | exact (UInt64.add_zero _).symm

theorem get_merge (hc : c ≠ .chartsPeak) (m n : Metrics) :
    (m.merge n).get c = m.get c + n.get c := by
  cases c <;> first | contradiction | rfl

namespace Totals

theorem start : ({} : Metrics).Totals 0 := by
  intro c _
  cases c <;> rfl

theorem count (h : m.Totals t) (counter : Counter) (n : Nat) :
    (m.count counter (.ofNat n)).Totals (t + Pi.single counter n) := by
  intro c hc
  rw [get_count hc, h c hc, Pi.add_apply, Pi.single_apply, UInt64.ofNat_add]
  split <;> rfl

theorem peak (h : m.Totals t) (n : UInt64) : (m.count .chartsPeak n).Totals t := by
  intro c hc
  rw [get_count hc, if_neg hc, UInt64.add_zero]
  exact h c hc

theorem countIf (h : m.Totals t) (p : Bool) (counter : Counter) :
    (m.countIf p counter).Totals (t + Pi.single counter p.toNat) := by
  cases p with
  | true => exact h.count counter 1
  | false =>
    rw [Bool.toNat_false, Pi.single_zero, add_zero]
    exact h

theorem merge (h : m.Totals t) (h' : m'.Totals t') : (m.merge m').Totals (t + t') := by
  intro c hc
  rw [get_merge hc, h c hc, h' c hc, Pi.add_apply, UInt64.ofNat_add]

theorem foldl_merge {ι : Type} {l : List ι} {part : ι → Metrics} {totals : ι → Counter → Nat}
    (h : m.Totals t) (hparts : ∀ i ∈ l, (part i).Totals (totals i)) :
    ((l.map part).foldl Metrics.merge m).Totals (t + (l.map totals).sum) := by
  induction l generalizing m t with
  | nil =>
    rw [List.map_nil, List.map_nil, List.sum_nil, add_zero]
    exact h
  | cons i l ih =>
    rw [List.map_cons, List.foldl_cons, List.map_cons, List.sum_cons, ← add_assoc]
    exact ih (h.merge (hparts i List.mem_cons_self)) fun j hj =>
      hparts j (List.mem_cons_of_mem i hj)

end Totals

end Metrics

/-! ## Updates with their outcomes -/

section

variable {κ : Type}

def Change.counter : Change → Counter
  | .add => .chartAdds
  | .remove => .chartRemoves

/-- The numbers that updates with their outcomes count. -/
def reported (log : List (Update κ × Outcome)) : Counter → Nat
  | .chartAdds => log.countP fun r => r.1.change = .add
  | .chartRemoves => log.countP fun r => r.1.change = .remove
  | .staleRetractions => log.countP fun r => r.2.stale
  | .evictions => log.countP fun r => r.2.evicted.isSome
  | _ => 0

theorem reported_cons (r : Update κ × Outcome) (log : List (Update κ × Outcome)) :
    reported (r :: log) = reported [r] + reported log := by
  have hcount (p : Update κ × Outcome → Bool) :
      (r :: log).countP p = [r].countP p + log.countP p := by
    rw [← List.singleton_append, List.countP_append]
  funext c
  cases c <;> first | exact hcount _ | rfl

theorem Metrics.Totals.recordApply {m : Metrics} {t : Counter → Nat} (h : m.Totals t)
    (u : Update κ) (o : Outcome) : (m.recordApply u.change o).Totals (t + reported [(u, o)]) := by
  have hone : reported [(u, o)] = Pi.single u.change.counter 1 +
      Pi.single .staleRetractions o.stale.toNat +
        Pi.single .evictions o.evicted.isSome.toNat := by
    funext c
    cases hchange : u.change <;> cases hstale : o.stale <;> cases hevicted : o.evicted.isSome <;>
      cases c <;> simp [reported, Change.counter, hchange, hstale, hevicted]
  rw [hone, ← add_assoc, ← add_assoc]
  refine .countIf (.countIf ?_ _ _) _ _
  cases u.change <;> exact h.count _ 1

theorem Metrics.Totals.foldl_recordApply {m : Metrics} {t : Counter → Nat} (h : m.Totals t)
    (log : List (Update κ × Outcome)) :
    (log.foldl (fun m (u, o) => m.recordApply u.change o) m).Totals (t + reported log) := by
  induction log generalizing m t with
  | nil =>
    have hnone : reported ([] : List (Update κ × Outcome)) = 0 := by
      funext c
      cases c <;> rfl
    rw [hnone, add_zero]
    exact h
  | cons r log ih =>
    rw [List.foldl_cons, reported_cons, ← add_assoc]
    exact ih (h.recordApply r.1 r.2)

/-! ## Reports of a store -/

namespace Store

variable [Ord κ] [TransOrd κ] {k : Nat}

/-- Only retractions are stale, and only additions push an entry out. -/
theorem change_of_mem_report {s : Store κ k} {us : List (Update κ)} {r : Update κ × Outcome}
    (hr : r ∈ s.report us) :
    (r.2.stale → r.1.change = .remove) ∧ (r.2.evicted.isSome → r.1.change = .add) := by
  induction us generalizing s with
  | nil => cases hr
  | cons u us ih =>
    rw [report_cons] at hr
    rcases List.mem_cons.1 hr with rfl | hr
    · obtain ⟨key, change, e⟩ := u
      cases change with
      | add => exact ⟨nofun, fun _ => rfl⟩
      | remove => exact ⟨fun _ => rfl, nofun⟩
    · exact ih hr

theorem map_fst_report (s : Store κ k) (us : List (Update κ)) :
    (s.report us).map Prod.fst = us := by
  induction us generalizing s with
  | nil => rfl
  | cons u us ih => rw [report_cons, List.map_cons, ih]

theorem reported_report (s : Store κ k) (us : List (Update κ)) :
    reported (s.report us) .chartAdds = us.countP (·.change = .add) ∧
      reported (s.report us) .chartRemoves = us.countP (·.change = .remove) ∧
      reported (s.report us) .staleRetractions = stales (s.report us) ∧
      reported (s.report us) .evictions = evictions (s.report us) := by
  have hchange (change : Change) : (s.report us).countP (fun r => r.1.change = change) =
      us.countP (·.change = change) := by
    conv_rhs => rw [← map_fst_report s us, List.countP_map]
    rfl
  refine ⟨hchange .add, hchange .remove, List.countP_congr fun r hr => ?_,
    List.countP_congr fun r hr => ?_⟩
  · simpa using (change_of_mem_report hr).1
  · simpa using (change_of_mem_report hr).2

end Store

end

end TopCharts
