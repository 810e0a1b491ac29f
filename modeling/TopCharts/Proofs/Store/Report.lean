import Mathlib.Algebra.BigOperators.Ring.Finset
import Mathlib.Data.Finset.Insert
import TopCharts.Proofs.Store.View

/-!
# What a store reports of its updates

* `Store.report s us` : the updates, each with the outcome it has in its turn;
* `evictions`, `stales` : the additions of a report that pushed an entry out, and its retractions
  that found nothing, counted;
* `Store.ranked s` : the number of entries that all charts rank together;
* `Store.Novel s us` : every addition brings an identity that its chart does not rank in its turn;
* `ranked_report` : then each addition makes room for itself or for one entry more, and the counts
  balance;
* `mem_or_evicted` : a ranked entry that the updates spare stays ranked, or its eviction is
  reported.
-/

namespace TopCharts

open Std (TransOrd LawfulEqOrd)

variable {κ : Type} {k : Nat}

/-! ## One chart -/

namespace Chart.Sound

variable {c : Chart k} {e a : Entry}

theorem mem_or_evicted_add (h : c.Sound) (ha : a = e ∨ a ∈ c.toList ∧ a.identity ≠ e.identity) :
    a ∈ (c.add e).2.toList ∨ (c.add e).1 = some a := by
  have hmem : a ∈ e.insertRanked (e.others c.toList) := by
    rwa [Entry.mem_insertRanked, Entry.mem_others]
  rw [← List.take_append_drop k (e.insertRanked (e.others c.toList)), List.mem_append,
    ← h.toList_add, ← h.evicted_add, Option.mem_toList] at hmem
  exact hmem

/-- A new identity takes a place, or the place of the entry that falls out. -/
theorem size_add (h : c.Sound) (hnew : ∀ a ∈ c.toList, a.identity ≠ e.identity) :
    (c.add e).2.size + (if (c.add e).1.isSome then 1 else 0) = c.size + 1 := by
  have hothers : e.others c.toList = c.toList :=
    List.filter_eq_self.2 fun a ha => decide_eq_true (hnew a ha)
  have hlength := Entry.length_insertRanked fun he => hnew e he rfl
  rw [← List.take_append_drop k (e.insertRanked c.toList), List.length_append] at hlength
  have hadd := congrArg List.length (h.toList_add e)
  have hevicted := congrArg List.length (h.evicted_add e)
  rw [hothers] at hadd hevicted
  have hcount : (c.add e).1.toList.length = if (c.add e).1.isSome then 1 else 0 := by
    cases (c.add e).1 <;> rfl
  change (c.add e).2.toList.length + _ = c.toList.length + 1
  omega

end Chart.Sound

theorem Chart.size_remove (c : Chart k) (e : Entry) :
    (c.remove e).2.size + 1 = c.size + (if (c.remove e).1 then 0 else 1) := by
  change (c.ranking.erase e).length + 1 = c.ranking.length + if c.ranking.contains e then 0 else 1
  by_cases he : e ∈ c.ranking
  · have := List.length_pos_of_mem he
    rw [List.length_erase_of_mem he, if_pos (List.contains_iff_mem.2 he)]
    omega
  · rw [List.erase_of_not_mem he, if_neg (mt List.contains_iff_mem.1 he)]

/-! ## Reports -/

/-- The additions of a report that pushed an entry out. -/
def evictions (log : List (Update κ × Outcome)) : Nat :=
  log.countP fun (u, outcome) => u.change = .add ∧ outcome.evicted.isSome

/-- The retractions of a report that found nothing to take back. -/
def stales (log : List (Update κ × Outcome)) : Nat :=
  log.countP fun (u, outcome) => u.change = .remove ∧ outcome.stale

theorem evictions_cons (u : Update κ) (outcome : Outcome) (log : List (Update κ × Outcome)) :
    evictions ((u, outcome) :: log) =
      evictions log + if u.change = .add ∧ outcome.evicted.isSome then 1 else 0 := by
  rw [evictions, List.countP_cons]
  simp only [decide_eq_true_iff]
  rfl

theorem stales_cons (u : Update κ) (outcome : Outcome) (log : List (Update κ × Outcome)) :
    stales ((u, outcome) :: log) =
      stales log + if u.change = .remove ∧ outcome.stale then 1 else 0 := by
  rw [stales, List.countP_cons]
  simp only [decide_eq_true_iff]
  rfl

theorem evictions_append (log later : List (Update κ × Outcome)) :
    evictions (log ++ later) = evictions log + evictions later :=
  List.countP_append

theorem stales_append (log later : List (Update κ × Outcome)) :
    stales (log ++ later) = stales log + stales later :=
  List.countP_append

namespace Store

variable [Ord κ] [TransOrd κ] {s : Store κ k} {us : List (Update κ)}

def report (s : Store κ k) (us : List (Update κ)) : List (Update κ × Outcome) :=
  us.zip (s.applyEach us).1

theorem report_cons (s : Store κ k) (u : Update κ) (us : List (Update κ)) :
    s.report (u :: us) = (u, (s.applyUpdate u).1) :: (s.applyUpdate u).2.report us :=
  rfl

theorem report_append (s : Store κ k) (us vs : List (Update κ)) :
    s.report (us ++ vs) = s.report us ++ (s.applyEach us).2.report vs := by
  induction us generalizing s with
  | nil => rfl
  | cons u us ih => rw [List.cons_append, report_cons, ih, report_cons, applyEach_cons, List.cons_append]

theorem mem_of_mem_report {r : Update κ × Outcome} (hr : r ∈ s.report us) : r.1 ∈ us :=
  (List.of_mem_zip hr).1

theorem evicted_apply_add (s : Store κ k) (key : κ) (e : Entry) :
    (s.apply key .add e).1.evicted = ((s.chart key).add e).1 := by
  rw [← getD_charts]
  rfl

theorem stale_apply_remove (s : Store κ k) (key : κ) (e : Entry) :
    (s.apply key .remove e).1.stale = !((s.chart key).remove e).1 := by
  rw [← getD_charts]
  rfl

/-! ## Counting what is ranked -/

def ranked (s : Store κ k) : Nat :=
  (s.keys.map fun key => (s.chart key).size).sum

theorem ranked_empty : (empty : Store κ k).ranked = 0 := by
  have hkeys : (empty : Store κ k).keys = [] := by
    apply List.eq_nil_of_length_eq_zero
    exact Std.ExtTreeMap.length_keys.trans Std.ExtTreeMap.size_empty
  rw [ranked, hkeys]
  rfl

variable [LawfulEqOrd κ] [DecidableEq κ]

theorem ranked_eq_sum {keys : Finset κ} (h : ∀ key ∈ s.keys, key ∈ keys) :
    s.ranked = ∑ key ∈ keys, (s.chart key).size := by
  have hnodup : s.keys.Nodup := Std.ExtTreeMap.nodup_keys
  rw [ranked, ← List.sum_toFinset _ hnodup]
  apply Finset.sum_subset
  · intro key hkey
    exact h key (List.mem_toFinset.1 hkey)
  · intro key _ hkey
    rw [List.mem_toFinset, mem_keys, Option.not_isSome_iff_eq_none] at hkey
    rw [chart, hkey]
    rfl

theorem ranked_applyUpdate (s : Store κ k) (u : Update κ) :
    (s.applyUpdate u).2.ranked + (s.chart u.key).size =
      s.ranked + ((s.chart u.key).update u.change u.entry).size := by
  have hold : s.ranked = ∑ key ∈ insert u.key s.keys.toFinset, (s.chart key).size :=
    ranked_eq_sum fun key hkey => Finset.mem_insert_of_mem (List.mem_toFinset.2 hkey)
  have hnew : (s.applyUpdate u).2.ranked =
      ∑ key ∈ insert u.key s.keys.toFinset, ((s.applyUpdate u).2.chart key).size := by
    apply ranked_eq_sum
    intro key hkey
    rw [mem_keys, applyUpdate, get?_apply] at hkey
    rw [Finset.mem_insert, List.mem_toFinset, mem_keys]
    split at hkey
    · rename_i heq
      exact .inl heq.symm
    · exact .inr hkey
  have hothers : ∀ key ∈ (insert u.key s.keys.toFinset).erase u.key,
      ((s.applyUpdate u).2.chart key).size = (s.chart key).size := by
    intro key hkey
    rw [chart_applyUpdate, if_neg (Finset.ne_of_mem_erase hkey).symm]
  rw [hold, hnew, ← Finset.add_sum_erase _ _ (Finset.mem_insert_self u.key _),
    ← Finset.add_sum_erase _ _ (Finset.mem_insert_self u.key _), Finset.sum_congr rfl hothers,
    chart_applyUpdate, if_pos rfl]
  omega

/-- Every addition brings an identity that its chart does not rank in its turn. -/
def Novel (s : Store κ k) : List (Update κ) → Prop
  | [] => True
  | u :: us =>
    (u.change = .add → ∀ a ∈ (s.chart u.key).toList, a.identity ≠ u.entry.identity) ∧
      (s.applyUpdate u).2.Novel us

omit [LawfulEqOrd κ] [DecidableEq κ] in
theorem Novel.append {vs : List (Update κ)} (hus : s.Novel us) (hvs : (s.applyEach us).2.Novel vs) :
    s.Novel (us ++ vs) := by
  induction us generalizing s with
  | nil => exact hvs
  | cons u us ih => exact ⟨hus.1, ih hus.2 hvs⟩

theorem ranked_apply_add {key : κ} {e : Entry} (hs : (s.chart key).Sound)
    (hnew : ∀ a ∈ (s.chart key).toList, a.identity ≠ e.identity) :
    (s.apply key .add e).2.ranked + (if (s.apply key .add e).1.evicted.isSome then 1 else 0) =
      s.ranked + 1 := by
  have hranked := ranked_applyUpdate s ⟨key, .add, e⟩
  have hsize := hs.size_add hnew
  rw [evicted_apply_add]
  change (s.apply key .add e).2.ranked + (s.chart key).size =
    s.ranked + ((s.chart key).add e).2.size at hranked
  omega

theorem ranked_apply_remove (s : Store κ k) (key : κ) (e : Entry) :
    (s.apply key .remove e).2.ranked + 1 =
      s.ranked + (if (s.apply key .remove e).1.stale then 1 else 0) := by
  have hranked := ranked_applyUpdate s ⟨key, .remove, e⟩
  have hsize := Chart.size_remove (s.chart key) e
  rw [stale_apply_remove]
  change (s.apply key .remove e).2.ranked + (s.chart key).size =
    s.ranked + ((s.chart key).remove e).2.size at hranked
  cases h : ((s.chart key).remove e).1 <;> simp [h] at hsize ⊢ <;> omega

/-- **Evictions and stale retractions balance** what the updates add and take back against what the
charts rank. -/
theorem ranked_report (hs : s.Sound) (hnovel : s.Novel us) :
    (s.applyEach us).2.ranked + evictions (s.report us) + us.countP (·.change = .remove) =
      s.ranked + stales (s.report us) + us.countP (·.change = .add) := by
  induction us generalizing s with
  | nil => rfl
  | cons u us ih =>
    have hrest := ih (hs.applyEach [u]) hnovel.2
    change (((s.applyUpdate u).2.applyEach us).2.ranked + evictions ((s.applyUpdate u).2.report us) +
      _ = (s.applyUpdate u).2.ranked + stales ((s.applyUpdate u).2.report us) + _) at hrest
    rw [applyEach_cons, report_cons, evictions_cons, stales_cons, List.countP_cons, List.countP_cons]
    obtain ⟨key, change, e⟩ := u
    cases change with
    | add =>
      have hadd := ranked_apply_add (hs key) (hnovel.1 rfl)
      simp only [applyUpdate, reduceCtorEq, decide_true, decide_false, true_and, false_and, if_true,
        if_false] at hrest hadd ⊢
      omega
    | remove =>
      have hremove := ranked_apply_remove s key e
      simp only [applyUpdate, reduceCtorEq, decide_true, decide_false, true_and, false_and, if_true,
        if_false] at hrest hremove ⊢
      omega

/-! ## Entries that updates spare -/

end Store

/-- The update neither takes back the entry nor replaces it. -/
def Update.Spares (u : Update κ) (key : κ) (a : Entry) : Prop :=
  u.key = key → (u.change = .remove → u.entry ≠ a) ∧
    (u.change = .add → u.entry.identity ≠ a.identity)

namespace Store

variable [Ord κ] [TransOrd κ] [LawfulEqOrd κ] [DecidableEq κ] {s : Store κ k} {us : List (Update κ)}

theorem mem_or_evicted_add (hs : s.Sound) (key : κ) (e : Entry) :
    e ∈ ((s.apply key .add e).2.chart key).toList ∨ (s.apply key .add e).1.evicted = some e := by
  rw [chart_apply_self, evicted_apply_add]
  exact (hs key).mem_or_evicted_add (.inl rfl)

/-- A ranked entry that the updates spare stays ranked, unless one of them pushes it out. -/
theorem mem_or_evicted (hs : s.Sound) {key : κ} {a : Entry} (ha : a ∈ (s.chart key).toList)
    (hus : ∀ u ∈ us, u.Spares key a) :
    a ∈ ((s.applyEach us).2.chart key).toList ∨
      ∃ r ∈ s.report us, r.1.key = key ∧ r.2.evicted = some a := by
  induction us generalizing s with
  | nil => exact .inl ha
  | cons u us ih =>
    have hspares := hus u List.mem_cons_self
    have hrest := ih (hs.applyEach [u])
    rw [report_cons, applyEach_cons]
    have hfirst : a ∈ ((s.applyUpdate u).2.chart key).toList ∨
        u.key = key ∧ (s.applyUpdate u).1.evicted = some a := by
      rw [chart_applyUpdate]
      by_cases hkey : u.key = key
      · obtain ⟨hremove, hadd⟩ := hspares hkey
        rw [if_pos hkey]
        subst hkey
        obtain ⟨key, change, e⟩ := u
        cases change with
        | add =>
          rw [applyUpdate, evicted_apply_add]
          exact ((hs key).mem_or_evicted_add (.inr ⟨ha, (hadd rfl).symm⟩)).imp_right fun h => ⟨rfl, h⟩
        | remove => exact .inl ((hs key).mem_remove.2 ⟨(hremove rfl).symm, ha⟩)
      · rw [if_neg hkey]
        exact .inl ha
    rcases hfirst with hmem | hevicted
    · rcases hrest hmem fun v hv => hus v (List.mem_cons_of_mem u hv) with hmem | ⟨r, hr, hevicted⟩
      · exact .inl hmem
      · exact .inr ⟨r, List.mem_cons_of_mem _ hr, hevicted⟩
    · exact .inr ⟨_, List.mem_cons_self, hevicted⟩

end Store

end TopCharts
