import TopCharts.Proofs.Charting.Epoch
import TopCharts.Proofs.Metrics.Growth

/-!
# What workers report of an epoch

* `Drained.reported` : the numbers that a drain counts;
* `ChartWorker.Shows.grown` : a worker that drains its log reports how its sets have grown;
* `reportedBy reports` : the numbers that all workers report of an epoch;
* `Charting.Holds.grown` : they say how the counts have grown, whatever the number of workers, since
  each of them says it for its own keys (`Charting.Holds.grown_worker`).
-/

namespace TopCharts

open Attempt

def Drained.reported (d : Drained) : Counter → Nat :=
  TopCharts.reported (d.updates.zip d.outcomes)

/-- **A worker that drains what it owns** reports how its sets have grown. -/
theorem ChartWorker.Shows.grown {w w' : ChartWorker} {old new : String → Finset Entry}
    {time : UInt64} {changes : Collection (Keyed String)} {drained : Drained} (h : w.Shows old)
    (hraises : ∀ key, Raises (old key) (new key)) (hword : ∀ row ∈ changes.rows, IsWord row.2)
    (hchanges : ∀ key e, changes.multiplicity ⟨key, e⟩ =
      (if e ∈ new key then 1 else 0) - if e ∈ old key then 1 else 0)
    (hdrain : (w.record time changes).drain = .ok (drained, w')) :
    Grown chartSize drained.reported (fun key => (new key \ old key).card)
      (fun key => (old key).card) fun key => (new key).card := by
  obtain ⟨hdelivers, -, hcharts⟩ := delivers_drain h.log hword hdrain
  have hexact := (h.drain hraises hword hchanges hdrain).charts
  rw [hcharts] at hexact
  have hreport : drained.updates.zip drained.outcomes = w.charts.report drained.updates := by
    obtain ⟨us, -, hdrain⟩ := bind_eq_ok.1 hdrain
    cases pure_eq_ok.1 hdrain
    rfl
  rw [Drained.reported, hreport]
  refine h.charts.grown hexact (fun key => (hraises key).oneEach_new) (hdelivers.turns hchanges) ?_
  refine hdelivers.order.imp fun hlt heq => ?_
  rw [heq, Std.ReflOrd.compare_self] at hlt
  cases hlt

namespace Charting

def reportedBy (reports : List (Option Drained)) : Counter → Nat :=
  (reports.map fun report => (report.map Drained.reported).getD 0).sum

variable {c c' : Charting} {workers minDurationMs : UInt64} {plays more : List Play}
  {songs newSongs : List Song}

theorem owned_sdiff (i : Nat) (key : String) (old new : Finset Entry) :
    (if (shardOf key workers).toNat = i then new else ∅) \
        (if (shardOf key workers).toNat = i then old else ∅) =
      if (shardOf key workers).toNat = i then new \ old else ∅ := by
  split
  · rfl
  · exact Finset.sdiff_empty

theorem card_owned (sets : String → Finset Entry) (i : Nat) (key : String) :
    (if (shardOf key workers).toNat = i then sets key else ∅).card =
      sizesOf (fun key => (shardOf key workers).toNat) [i] (fun key => (sets key).card) key := by
  rw [sizesOf, apply_ite Finset.card, Finset.card_empty]
  exact if_congr List.mem_singleton.symm rfl rfl

theorem reportedBy_eq_sum (reports : List (Option Drained)) :
    reportedBy reports = ((List.range reports.length).map fun i =>
      (reports[i]?.join.map Drained.reported).getD 0).sum := by
  rw [reportedBy]
  congr 1
  refine List.ext_getElem (by simp) fun i hi hi' => ?_
  rw [List.length_map] at hi
  rw [List.getElem_map, List.getElem_map, List.getElem_range, List.getElem?_eq_getElem hi,
    Option.join_some]

theorem Holds.grown_worker (h : c.Holds workers minDurationMs plays songs)
    {reports : List (Option Drained)}
    (hadvance : c.advance { songs := .ofList newSongs, plays := .ofList more } =
      .ok (reports, c')) {i : Nat} (hi : i < reports.length) :
    Grown chartSize ((reports[i]?.join.map Drained.reported).getD 0)
      (sizesOf (fun key => (shardOf key workers).toNat) [i]
        fun key => (c'.counts.listed key \ c.counts.listed key).card)
      (sizesOf (fun key => (shardOf key workers).toNat) [i]
        fun key => (c.counts.listed key).card)
      (sizesOf (fun key => (shardOf key workers).toNat) [i]
        fun key => (c'.counts.listed key).card) := by
  have hraises := h.raises (h.advance hadvance).toCounts
  obtain ⟨w, report, w', hw, hreport, -, hserve⟩ :=
    exists_serve_eq_ok hadvance (length_of_advance hadvance ▸ hi)
  obtain ⟨drained, rfl, hdrain⟩ := drain_of_serve rfl hserve
  have hown := (h.shows i w hw).grown (raises_owned hraises i)
    (fun row => h.isWord_of_mem_owned) (h.multiplicity_owned_changesIn hadvance i) hdrain
  simp only [owned_sdiff, card_owned fun key => c'.counts.listed key \ c.counts.listed key,
    card_owned c.counts.listed, card_owned c'.counts.listed] at hown
  rw [hreport]
  exact hown

/-- **The reports of an epoch** say how the counts have grown. -/
theorem Holds.grown (h : c.Holds workers minDurationMs plays songs)
    {reports : List (Option Drained)}
    (hadvance : c.advance { songs := .ofList newSongs, plays := .ofList more } =
      .ok (reports, c')) :
    Grown chartSize (reportedBy reports)
      (fun key => (c'.counts.listed key \ c.counts.listed key).card)
      (fun key => (c.counts.listed key).card) fun key => (c'.counts.listed key).card := by
  have hall (key : String) : (shardOf key workers).toNat ∈ List.range reports.length := by
    rw [length_of_advance hadvance, h.length]
    exact List.mem_range.2 (shardOf_lt key workers)
  have hgrown := Grown.sum List.nodup_range fun i hi =>
    h.grown_worker hadvance (List.mem_range.1 hi)
  rw [sizesOf_of_forall hall, sizesOf_of_forall hall, sizesOf_of_forall hall] at hgrown
  rw [reportedBy_eq_sum]
  exact hgrown

end Charting

end TopCharts
