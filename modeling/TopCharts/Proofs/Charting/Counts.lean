import Mathlib.Algebra.Order.BigOperators.Group.List
import TopCharts.Proofs.Charting.Dealing
import TopCharts.Proofs.Charting.Worker
import TopCharts.Proofs.Counts.Ledgers
import TopCharts.Proofs.Run.Basic

/-!
# What charting counts after its epochs

* `Charting.Counts c workers minDurationMs plays songs` : the plays, songs, counts and ledgers are
  those of two collections;
* `advance_eq_ok_iff` : what an epoch does. It enters the plays and songs that come in through the
  workers in the ledgers, and every worker serves the changes that it owns;
* `sum_playsIn`, `sum_songsIn` : whichever worker they come in through, they are those of the batch;
* `Counts.advance` : so an epoch that succeeds adds its plays and songs. The ledgers let no tally
  pass that is not a word.
-/

namespace TopCharts

open Attempt

theorem sum_zipIdx_ite {α : Type} (l : List α) {i : Nat} (hi : i < l.length) (n : Int) :
    (l.zipIdx.map fun x => if x.2 = i then n else 0).sum = n := by
  have hrange : (l.zipIdx.map fun x => if x.2 = i then n else 0) =
      (List.range l.length).map fun j => if j = i then n else 0 := by
    rw [List.range_eq_range', ← List.zipIdx_map_snd 0 l, List.map_map]
    rfl
  have hcount := List.count_eq_one_of_mem List.nodup_range (List.mem_range.2 hi)
  rw [hrange, List.sum_map_ite_eq, hcount, one_nsmul, sub_zero, List.sum_eq_zero (by simp),
    add_zero]

theorem sum_chartablePlays (plays : Collection Play) (minDurationMs : UInt64) (f : Int64 → Int) :
    (chartablePlays plays minDurationMs).sum f =
      plays.sum fun p => if p.isChartable minDurationMs then f p.songId else 0 := by
  rw [chartablePlays, Collection.sum_map, Collection.sum_filter]

namespace Charting

variable {c c' : Charting} {workers minDurationMs : UInt64} {plays : Collection Play}
  {songs : Collection Song} {b : Batch}

theorem length_pos (workers : UInt64) : 0 < (max workers 1).toNat :=
  Nat.zero_lt_of_lt (shardOf_lt "" workers)

/-! ## The invariant -/

/-- The plays, songs, counts and ledgers are those of the collections. -/
structure Counts (c : Charting) (workers minDurationMs : UInt64) (plays : Collection Play)
    (songs : Collection Song) : Prop where
  duration : c.minDurationMs = minDurationMs
  length : c.workers.length = (max workers 1).toNat
  plays : ∀ f, c.plays.sum f = (chartablePlays plays minDurationMs).sum f
  songs : ∀ f, c.songs.sum f = songs.sum f
  counts : c.counts = playCounts c.plays c.songs
  ledgers : c.ledgers.Holds (max workers 1).toNat c.plays c.songs

theorem counts_start (workers minDurationMs : UInt64) :
    (start workers minDurationMs).Counts workers minDurationMs .empty .empty where
  duration := rfl
  length := List.length_replicate
  plays _ := rfl
  songs _ := rfl
  counts := rfl
  ledgers := Ledgers.holds_start _

theorem mem_of_mem_owned {changes : Collection (Keyed String)} {index : Nat}
    {row : Keyed String × Int} (h : row ∈ (c.owned index changes).rows) : row ∈ changes.rows :=
  (List.mem_filter.1 h).1

theorem nodup_owned (c : Charting) {changes : Collection (Keyed String)}
    (h : (changes.rows.map Prod.fst).Nodup) (index : Nat) :
    ((c.owned index changes).rows.map Prod.fst).Nodup :=
  h.sublist (List.filter_sublist.map Prod.fst)

theorem Counts.multiplicity_owned (h : c.Counts workers minDurationMs plays songs) (index : Nat)
    (changes : Collection (Keyed String)) (key : String) (e : Entry) :
    (c.owned index changes).multiplicity ⟨key, e⟩ =
      if (shardOf key workers).toNat = index then changes.multiplicity ⟨key, e⟩ else 0 := by
  rw [owned, Collection.multiplicity_filter, h.length, UInt64.ofNat_toNat, shardOf_max]
  simp only [decide_eq_true_eq]

/-! ## An epoch -/

/-- The plays that count, as they come in through each worker. -/
def playsIn (c : Charting) (b : Batch) : List (Collection Int64) :=
  (List.range c.workers.length).map (c.entering b)

def songsIn (c : Charting) (b : Batch) : List (Collection Song) :=
  (List.range c.workers.length).map fun index => ⟨share c.workers.length index b.songs.rows⟩

def playsAfter (c : Charting) (b : Batch) : Collection Int64 :=
  (c.plays ++ Ledgers.arrived (c.playsIn b)).consolidate

def songsAfter (c : Charting) (b : Batch) : Collection Song :=
  (c.songs ++ Ledgers.arrived (c.songsIn b)).consolidate

def changesIn (c : Charting) (b : Batch) : Collection (Keyed String) :=
  countChanges c.counts (playCounts (c.playsAfter b) (c.songsAfter b))

theorem nodup_changesIn (c : Charting) (b : Batch) :
    ((c.changesIn b).rows.map Prod.fst).Nodup :=
  Collection.nodup_consolidate _

def postIn (c : Charting) (b : Batch) : Except Fault Ledgers :=
  c.ledgers.post c.epoch (c.playsIn b) (c.songsIn b)

/-- A worker records the changes that it owns, and drains its log if the epoch says so. -/
def serve (c : Charting) (b : Batch) (w : ChartWorker) (index : Nat) :
    Except Fault (Option Drained × ChartWorker) := do
  let w := w.record c.epoch (c.owned index (c.changesIn b))
  if b.drains then
    let (drained, w) ← w.drain
    return (some drained, w)
  else return (none, w)

theorem drain_of_serve (hb : b.drains) {w w' : ChartWorker} {i : Nat}
    {report : Option Drained} (hserve : c.serve b w i = .ok (report, w')) :
    ∃ drained, report = some drained ∧
      (w.record c.epoch (c.owned i (c.changesIn b))).drain = .ok (drained, w') := by
  rw [serve, if_pos hb] at hserve
  obtain ⟨⟨drained, _⟩, hdrain, hserve⟩ := bind_eq_ok.1 hserve
  cases pure_eq_ok.1 hserve
  exact ⟨drained, rfl, hdrain⟩

def next (c : Charting) (b : Batch) (ledgers : Ledgers) (workers : List ChartWorker) : Charting :=
  { c with
    epoch := c.epoch + 1, plays := c.playsAfter b, songs := c.songsAfter b,
    counts := playCounts (c.playsAfter b) (c.songsAfter b), ledgers, workers }

/-- **What an epoch does.** -/
theorem advance_eq_ok_iff {reports : List (Option Drained)} :
    c.advance b = .ok (reports, c') ↔ ∃ ledgers results, c.postIn b = .ok ledgers ∧
      (c.workers.zipIdx.mapM fun x => c.serve b x.1 x.2) = .ok results ∧
      results.map Prod.fst = reports ∧ c.next b ledgers (results.map Prod.snd) = c' := by
  have hadvance : c.advance b = c.postIn b >>= fun ledgers =>
      (c.workers.zipIdx.mapM fun x => c.serve b x.1 x.2) >>= fun results =>
        pure (results.map Prod.fst, c.next b ledgers (results.map Prod.snd)) := by
    rw [advance, step, Batch.deal, List.map_map, List.map_map]
    rfl
  rw [hadvance, bind_eq_ok]
  simp only [bind_eq_ok, pure_eq_ok, Prod.mk.injEq]
  constructor
  · rintro ⟨ledgers, hledgers, results, hresults, hreports, hnext⟩
    exact ⟨ledgers, results, hledgers, hresults, hreports, hnext⟩
  · rintro ⟨ledgers, results, hledgers, hresults, hreports, hnext⟩
    exact ⟨ledgers, hledgers, results, hresults, hreports, hnext⟩

theorem exists_serve_eq_ok {reports : List (Option Drained)}
    (h : c.advance b = .ok (reports, c')) {i : Nat} (hi : i < c.workers.length) :
    ∃ w report w', c.workers[i]? = some w ∧ reports[i]? = some report ∧
      c'.workers[i]? = some w' ∧ c.serve b w i = .ok (report, w') := by
  obtain ⟨_, results, -, hresults, rfl, rfl⟩ := advance_eq_ok_iff.1 h
  obtain ⟨hlength, hserves⟩ := getElem?_of_mapM_eq_ok hresults
  rw [List.length_zipIdx] at hlength
  have hresult : results[i]? = some results[i] := List.getElem?_eq_getElem _
  obtain ⟨x, hx, hserve⟩ := hserves i _ hresult
  rw [List.getElem?_zipIdx, Nat.zero_add, Option.map_eq_some_iff] at hx
  obtain ⟨w, hw, rfl⟩ := hx
  refine ⟨w, results[i].1, results[i].2, hw, ?_, ?_, hserve⟩
  · rw [List.getElem?_map, hresult]
    rfl
  · show (results.map Prod.snd)[i]? = _
    rw [List.getElem?_map, hresult]
    rfl

theorem length_of_advance {reports : List (Option Drained)} (h : c.advance b = .ok (reports, c')) :
    reports.length = c.workers.length := by
  obtain ⟨_, results, -, hresults, rfl, -⟩ := advance_eq_ok_iff.1 h
  rw [List.length_map, (getElem?_of_mapM_eq_ok hresults).1, List.length_zipIdx]

theorem counts_of_advance {reports : List (Option Drained)}
    (h : c.advance b = .ok (reports, c')) :
    c'.counts = playCounts (c.playsAfter b) (c.songsAfter b) := by
  obtain ⟨_, _, -, -, -, rfl⟩ := advance_eq_ok_iff.1 h
  rfl

theorem sum_playsIn (hpos : 0 < c.workers.length) (b : Batch) (f : Int64 → Int) :
    (Ledgers.arrived (c.playsIn b)).sum f = (chartablePlays b.plays c.minDurationMs).sum f := by
  rw [sum_chartablePlays, ← sum_share hpos b.plays, Ledgers.sum_arrived, Ledgers.sum_arrived,
    playsIn, List.map_map, List.map_map]
  exact congrArg List.sum (List.map_congr_left fun index _ => sum_chartablePlays _ _ f)

theorem sum_songsIn (hpos : 0 < c.workers.length) (b : Batch) (f : Song → Int) :
    (Ledgers.arrived (c.songsIn b)).sum f = b.songs.sum f :=
  sum_share hpos b.songs f

section

variable (h : c.Counts workers minDurationMs plays songs)

include h

theorem Counts.workers_pos : 0 < c.workers.length :=
  h.length ▸ length_pos workers

theorem Counts.sum_playsAfter (f : Int64 → Int) :
    (c.playsAfter b).sum f = (chartablePlays (plays ++ b.plays) minDurationMs).sum f := by
  simp only [playsAfter, Collection.sum_consolidate, Collection.sum_append, h.plays,
    sum_playsIn h.workers_pos, h.duration, sum_chartablePlays]

theorem Counts.sum_songsAfter (f : Song → Int) :
    (c.songsAfter b).sum f = (songs ++ b.songs).sum f := by
  rw [songsAfter, Collection.sum_consolidate, Collection.sum_append, h.songs,
    sum_songsIn h.workers_pos, Collection.sum_append]

/-- The changes of an epoch lead from the counts before it to those after it. -/
theorem Counts.multiplicity_changesIn {reports : List (Option Drained)}
    (hadvance : c.advance b = .ok (reports, c')) (key : String) (e : Entry) :
    (c.changesIn b).multiplicity ⟨key, e⟩ =
      (if e ∈ c'.counts.listed key then 1 else 0) - if e ∈ c.counts.listed key then 1 else 0 := by
  rw [changesIn, h.counts, counts_of_advance hadvance, multiplicity_countChanges]

theorem Counts.weight_of_mem_owned {index : Nat} {row : Keyed String × Int}
    (hrow : row ∈ (c.owned index (c.changesIn b)).rows) : row.2 = 1 ∨ row.2 = -1 := by
  have hrow := mem_of_mem_owned hrow
  rw [changesIn, h.counts] at hrow
  exact weight_of_mem_countChanges hrow

theorem Counts.isWord_of_mem_owned {index : Nat} {row : Keyed String × Int}
    (hrow : row ∈ (c.owned index (c.changesIn b)).rows) : IsWord row.2 := by
  rcases h.weight_of_mem_owned hrow with hw | hw <;> rw [hw] <;> decide

/-- **An epoch that succeeds** adds its plays and songs. -/
theorem Counts.advance {reports : List (Option Drained)}
    (hadvance : c.advance b = .ok (reports, c')) :
    c'.Counts workers minDurationMs (plays ++ b.plays) (songs ++ b.songs) := by
  obtain ⟨ledgers, results, hledgers, hresults, -, rfl⟩ := advance_eq_ok_iff.1 hadvance
  refine ⟨h.duration, ?_, h.sum_playsAfter, h.sum_songsAfter, rfl, ?_⟩
  · show (results.map Prod.snd).length = _
    rw [List.length_map, (getElem?_of_mapM_eq_ok hresults).1, List.length_zipIdx, h.length]
  · refine (h.ledgers.post (length_pos workers) (max workers 1).toNat_lt hledgers).congr ?_ ?_
    · exact fun f => (Collection.sum_consolidate _ f).symm
    · exact fun f => (Collection.sum_consolidate _ f).symm

end

end Charting

end TopCharts
