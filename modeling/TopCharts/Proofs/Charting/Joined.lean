import TopCharts.Proofs.Charting.Counts

/-!
# Joined counts

Plays and songs may come and go, in any order. What is counted at the end of a run of epochs is what
the join of all plays and songs counts.

* `joinedCount plays songs minDurationMs key id` : the net number of ways to pick a play that
  counts, a song with its number, and an occurrence of the key among the chart keys of that song;
* `countedEntry n id` : the entry of a song that is counted `n` times. The counts list exactly these
  (`Counts.mem_listed_iff`);
* `Charting.run c drains batches` : the epochs of some batches. The workers drain their logs after
  each of them, or after none;
* `CountsAll c workers minDurationMs batches` : charting counts what came in with the batches.
-/

namespace TopCharts

open Attempt

/-! ## Joined counts -/

/-- The net number of ways to pick a play that counts, a song with its number, and an occurrence of
the key among the chart keys of that song. -/
def joinedCount (plays : Collection Play) (songs : Collection Song) (minDurationMs : UInt64)
    (key : String) (id : Int64) : Int :=
  plays.sum fun p => songs.sum fun s =>
    if p.isChartable minDurationMs ∧ p.songId = id ∧ s.id = id then s.chartKeys.count key else 0

theorem joinedCount_eq (plays : Collection Play) (songs : Collection Song) (minDurationMs : UInt64)
    (key : String) (id : Int64) : joinedCount plays songs minDurationMs key id =
      (chartablePlays plays minDurationMs).multiplicity id * songs.keyed ⟨key, id⟩ := by
  rw [Collection.multiplicity_eq_sum, sum_chartablePlays, ← Collection.sum_mul, joinedCount]
  refine Collection.sum_congr fun row _ => ?_
  by_cases hp : row.1.isChartable minDurationMs ∧ row.1.songId = id
  · rw [if_pos hp.1, if_pos hp.2, one_mul, Collection.keyed]
    refine Collection.sum_congr fun _ _ => ?_
    simp only [hp.1, hp.2, true_and]
  · have hnone (s : Song) : ¬ (row.1.isChartable minDurationMs ∧ row.1.songId = id ∧ s.id = id) :=
      fun h => hp ⟨h.1, h.2.1⟩
    simp only [hnone, if_false, Collection.sum_zero]
    rw [← ite_and, if_neg hp, zero_mul]

def countedEntry (n : Int) (id : Int64) : Option Entry :=
  if n = 0 then none else some ⟨id, .ofInt n⟩

theorem countedEntry_eq_some {n : Int} {id : Int64} {e : Entry} :
    countedEntry n id = some e ↔ n ≠ 0 ∧ e.identity = id ∧ e.score = .ofInt n := by
  rw [countedEntry]
  split
  · rename_i h
    exact iff_of_false (Option.some_ne_none e).symm fun hne => hne.1 h
  · rename_i h
    rw [Option.some.injEq, and_iff_right h, eq_comm, Entry.ext_iff]

namespace Charting

variable {c c' d : Charting} {workers minDurationMs : UInt64} {plays : Collection Play}
  {songs : Collection Song} {b : Batch} {reports : List (Option Drained)}

theorem Counts.isWord_joinedCount (h : c.Counts workers minDurationMs plays songs) (key : String)
    (id : Int64) : IsWord (joinedCount plays songs minDurationMs key id) := by
  rw [joinedCount_eq, ← Collection.multiplicity_congr h.plays, ← Collection.keyed_congr h.songs]
  exact h.ledgers.words ⟨key, id⟩

theorem Counts.mem_listed_iff (h : c.Counts workers minDurationMs plays songs) {key : String}
    {e : Entry} : e ∈ c.counts.listed key ↔
      countedEntry (joinedCount plays songs minDurationMs key e.identity) e.identity = some e := by
  rw [countedEntry_eq_some, joinedCount_eq, h.counts, mem_listed_playCounts,
    Collection.multiplicity_congr h.plays, Collection.keyed_congr h.songs]
  simp only [true_and]

/-! ## Runs -/

/-- The epochs of some batches, with what each worker reports of each. The workers drain their logs
after every epoch, or after none. -/
def run (c : Charting) (drains : Bool) (batches : List Batch) :
    Except Fault (List (List (Option Drained)) × Charting) :=
  batches.foldlM (fun (reports, c) b => do
    let (report, c) ← c.advance { b with drains }
    return (reports ++ [report], c)) ([], c)

theorem run_append_singleton {drains : Bool} {batches : List Batch}
    {all : List (List (Option Drained))} :
    c.run drains (batches ++ [b]) = .ok (all, d) ↔
      ∃ before c' last, c.run drains batches = .ok (before, c') ∧
        c'.advance { b with drains } = .ok (last, d) ∧ before ++ [last] = all := by
  rw [run, List.foldlM_append, bind_eq_ok]
  constructor
  · rintro ⟨⟨before, c'⟩, hbefore, h⟩
    rw [List.foldlM_cons] at h
    obtain ⟨x, hx, h⟩ := bind_eq_ok.1 h
    obtain ⟨⟨last, d'⟩, hlast, hx⟩ := bind_eq_ok.1 hx
    cases pure_eq_ok.1 hx
    cases pure_eq_ok.1 h
    exact ⟨before, c', last, hbefore, hlast, rfl⟩
  · rintro ⟨before, c', last, hbefore, hlast, rfl⟩
    refine ⟨(before, c'), hbefore, ?_⟩
    rw [List.foldlM_cons]
    exact bind_eq_ok.2 ⟨_, bind_eq_ok.2 ⟨(last, d), hlast, rfl⟩, rfl⟩

def countAfter (batches : List Batch) (minDurationMs : UInt64) (key : String) (id : Int64) : Int :=
  joinedCount (Ledgers.arrived (batches.map Batch.plays))
    (Ledgers.arrived (batches.map Batch.songs)) minDurationMs key id

def CountsAll (c : Charting) (workers minDurationMs : UInt64) (batches : List Batch) : Prop :=
  c.Counts workers minDurationMs (Ledgers.arrived (batches.map Batch.plays))
    (Ledgers.arrived (batches.map Batch.songs))

theorem CountsAll.advance {batches : List Batch} {drains : Bool}
    (h : c.CountsAll workers minDurationMs batches)
    (hadvance : c.advance { b with drains } = .ok (reports, c')) :
    c'.CountsAll workers minDurationMs (batches ++ [b]) := by
  have harrived {α : Type} (parts : List (Collection α)) (part : Collection α) :
      Ledgers.arrived (parts ++ [part]) = Ledgers.arrived parts ++ part := by
    rw [Ledgers.arrived, List.flatMap_append, List.flatMap_singleton]
    rfl
  rw [CountsAll, List.map_append, List.map_append]
  show c'.Counts workers minDurationMs (Ledgers.arrived (_ ++ [b.plays]))
    (Ledgers.arrived (_ ++ [b.songs]))
  have hcounts := Counts.advance h hadvance
  rw [harrived, harrived]
  exact hcounts

end Charting

end TopCharts
