import TopCharts.Charting
import TopCharts.Proofs.ChangeLog.Feeding
import TopCharts.Proofs.ChangeLog.Turning
import TopCharts.Proofs.Counts.Listed

/-!
# A worker and the changes it owns

* `net_changes_at`, `total_changes` : changes that a worker records weigh, at their time and all in
  all, what the changes do;
* `ChartWorker.Shows w sets` : the log of the worker is empty, and its charts show the best of
  `sets`;
* `delivers_drain` : a worker with an empty log drains what it records, and it can
  (`exists_drain_eq_ok`);
* `Shows.drain` : so a worker that records what turns one family of sets into another and drains its
  log shows the new one, if scores only rise.
-/

namespace TopCharts

open Attempt

theorem net_changes_at {changes : Collection (Keyed String)}
    (hword : ∀ row ∈ changes.rows, IsWord row.2) (time t : UInt64) (key : String) (e : Entry) :
    net (changes.rows.map fun row =>
        (⟨time, row.1.key, row.1.entry, Int64.ofInt row.2⟩ : Weighted String UInt64)) (t, key, e) =
      if t = time then changes.multiplicity ⟨key, e⟩ else 0 := by
  obtain ⟨rows⟩ := changes
  induction rows with
  | nil => exact (ite_self 0).symm
  | cons row rows ih =>
    have hrow : (Int64.ofInt row.2).toInt = row.2 := (hword row List.mem_cons_self).toInt_ofInt
    rw [List.map_cons, net_cons, ih fun row hrow => hword row (List.mem_cons_of_mem _ hrow),
      Collection.multiplicity_cons, hrow]
    have hplace : (time, row.1.key, row.1.entry) = (t, key, e) ↔ t = time ∧ row.1 = ⟨key, e⟩ := by
      rw [Prod.mk.injEq, Prod.mk.injEq, Keyed.ext_iff, eq_comm (a := time)]
    show (if (time, row.1.key, row.1.entry) = (t, key, e) then _ else _) + _ = _
    rw [if_congr hplace rfl rfl]
    by_cases ht : t = time
    · simp only [ht, true_and, if_true]
    · simp only [ht, false_and, if_false, add_zero]

/-- Recorded changes add up to what they do, whatever their time. -/
theorem total_changes {changes : Collection (Keyed String)}
    (hword : ∀ row ∈ changes.rows, IsWord row.2) (time : UInt64) (key : String) (e : Entry) :
    total (changes.rows.map fun row =>
        (⟨time, row.1.key, row.1.entry, Int64.ofInt row.2⟩ : Weighted String UInt64)) key e =
      changes.multiplicity ⟨key, e⟩ := by
  have hrows : (changes.rows.map fun row => (row.1, (Int64.ofInt row.2).toInt)) = changes.rows := by
    refine (List.map_congr_left fun row hrow => ?_).trans (List.map_id changes.rows)
    rw [(hword row hrow).toInt_ofInt]
    rfl
  rw [total, List.map_map]
  exact congrArg (fun rows => Collection.multiplicity ⟨rows⟩ (⟨key, e⟩ : Keyed String)) hrows

namespace ChartWorker

variable {w w' : ChartWorker} {old new : String → Finset Entry}

/-- The log is empty, and the charts show the best of every key's set. -/
structure Shows (w : ChartWorker) (sets : String → Finset Entry) : Prop where
  log : w.log = .empty
  charts : w.charts.Exact sets

theorem shows_start : ({} : ChartWorker).Shows fun _ => ∅ where
  log := rfl
  charts := Store.exact_empty

theorem changes_record (w : ChartWorker) (time : UInt64) (changes : Collection (Keyed String)) :
    (w.record time changes).log.changes.toList = w.log.changes.toList ++ changes.rows.map
      fun row => ⟨time, row.1.key, row.1.entry, Int64.ofInt row.2⟩ := by
  rw [← Feeding.toList_foldl_record, List.foldl_map]
  rfl

section

variable {time : UInt64} {changes : Collection (Keyed String)} {drained : Drained}

theorem changes_record_of_empty (h : w.log = .empty) :
    (w.record time changes).log.changes.toList =
      changes.rows.map fun row => ⟨time, row.1.key, row.1.entry, Int64.ofInt row.2⟩ := by
  rw [changes_record, h]
  exact List.nil_append _

/-- **A worker with an empty log drains what it records.** -/
theorem delivers_drain (h : w.log = .empty) (hword : ∀ row ∈ changes.rows, IsWord row.2)
    (hdrain : (w.record time changes).drain = .ok (drained, w')) :
    Delivers drained.updates (fun key e => changes.multiplicity ⟨key, e⟩) ∧ w'.log = .empty ∧
      w'.charts = (w.charts.applyEach drained.updates).2 := by
  obtain ⟨us, hus, hdrain⟩ := bind_eq_ok.1 hdrain
  cases pure_eq_ok.1 hdrain
  have hus : ChangeLog.updates (w.record time changes).log.changes.toList = .ok us := hus
  rw [changes_record_of_empty h] at hus
  refine ⟨?_, rfl, rfl⟩
  have hdelivers := ChangeLog.delivers_of_one_time time
    (fun t key e ht => (net_changes_at hword time t key e).trans (if_neg ht)) hus
  simp only [net_changes_at hword, if_true] at hdelivers
  exact hdelivers

theorem exists_drain_eq_ok (h : w.log = .empty) (hnodup : (changes.rows.map Prod.fst).Nodup)
    (hdiff : ∀ row ∈ changes.rows, Int64.ofInt row.2 ≠ Int64.minValue) :
    ∃ result, (w.record time changes).drain = .ok result := by
  have hplaces : ((w.record time changes).log.changes.toList.map Weighted.place).Nodup := by
    rw [changes_record_of_empty h, List.map_map]
    refine List.pairwise_map.2 ((List.pairwise_map.1 hnodup).imp fun {a b} hne heq => hne ?_)
    obtain ⟨hkey, hentry⟩ := Prod.mk.inj (Prod.mk.inj heq).2
    exact Keyed.ext hkey hentry
  obtain ⟨us, hus⟩ := ChangeLog.exists_updates_eq_ok hplaces fun r hr => by
    rw [changes_record_of_empty h] at hr
    obtain ⟨row, hrow, rfl⟩ := List.mem_map.1 hr
    exact hdiff row hrow
  exact ⟨_, bind_eq_ok.2 ⟨us, hus, rfl⟩⟩

/-- **A worker that drains what it owns** shows the new sets. -/
theorem Shows.drain (h : w.Shows old) (hraises : ∀ key, Raises (old key) (new key))
    (hword : ∀ row ∈ changes.rows, IsWord row.2)
    (hchanges : ∀ key e, changes.multiplicity ⟨key, e⟩ =
      (if e ∈ new key then 1 else 0) - if e ∈ old key then 1 else 0)
    (hdrain : (w.record time changes).drain = .ok (drained, w')) : w'.Shows new := by
  obtain ⟨hdelivers, hlog, hcharts⟩ := delivers_drain h.log hword hdrain
  exact ⟨hlog, hcharts ▸ h.charts.applyEach hraises (hdelivers.turns hchanges)⟩

end

end ChartWorker

end TopCharts
