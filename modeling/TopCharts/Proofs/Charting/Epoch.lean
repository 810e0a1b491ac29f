import TopCharts.Proofs.Charting.Counts

/-!
# What charting shows after its epochs

* `Charting.Holds c workers minDurationMs plays songs` : charting counts the plays and songs of two
  lists, and each worker shows the counts of the keys it owns;
* `Holds.advance` : an epoch that succeeds keeps this, with the plays and songs that arrived in it.
  Scores only rise, since weights are positive, and the ledgers let no tally pass that is not a
  word;
* `raises_owned`, `Holds.multiplicity_owned_changesIn` : what a worker owns rises, and the changes
  it is sent are what its sets change by;
* `Holds.exists_router` : so the router shows the best of what all plays and songs count, whatever
  the number of workers.
-/

namespace TopCharts

open Attempt

theorem timesPlayed_append (plays more : List Play) (minDurationMs : UInt64) (id : Int64) :
    timesPlayed (plays ++ more) minDurationMs id =
      timesPlayed plays minDurationMs id + timesPlayed more minDurationMs id :=
  List.countP_append

theorem keyed_ofList_nonneg (songs : List Song) (t : Tally String) :
    0 ≤ (Collection.ofList songs).keyed t := by
  rw [Collection.keyed, Collection.sum_ofList]
  refine List.sum_nonneg fun n hn => ?_
  obtain ⟨s, -, rfl⟩ := List.mem_map.1 hn
  split
  · exact Int.natCast_nonneg _
  · exact le_rfl

theorem Collection.ofList_append {α : Type} (records more : List α) :
    ofList (records ++ more) = ofList records ++ ofList more := by
  rw [ofList, List.map_append]
  rfl

namespace Charting

variable {c c' : Charting} {workers minDurationMs : UInt64} {plays more : List Play}
  {songs newSongs : List Song}

/-! ## The invariant -/

def countsOf (plays : List Play) (songs : List Song) (minDurationMs : UInt64) :
    Collection (Keyed String) :=
  playCounts (chartablePlays (.ofList plays) minDurationMs) (.ofList songs)

/-- Charting counts the plays and songs of the lists, and each worker shows the counts that it
owns. -/
structure Holds (c : Charting) (workers minDurationMs : UInt64) (plays : List Play)
    (songs : List Song) : Prop
    extends Counts c workers minDurationMs (.ofList plays) (.ofList songs) where
  shows : ∀ (i : Nat) (w : ChartWorker), c.workers[i]? = some w → w.Shows fun key =>
    if (shardOf key workers).toNat = i then c.counts.listed key else ∅

theorem holds_start (workers minDurationMs : UInt64) :
    (start workers minDurationMs).Holds workers minDurationMs [] [] where
  toCounts := counts_start workers minDurationMs
  shows i w hw := by
    obtain rfl : w = {} := by
      obtain ⟨_, hget⟩ := List.getElem?_eq_some_iff.1 hw
      rw [← hget]
      exact List.getElem_replicate _
    have hnone : (fun key => if (shardOf key workers).toNat = i then
        Collection.empty.listed key else ∅) = fun _ => ∅ := by
      funext key
      exact ite_self _
    exact hnone ▸ ChartWorker.shows_start

theorem tally_eq {played : Collection Int64} {catalog : Collection Song}
    (hplays : ∀ f, played.sum f = (chartablePlays (.ofList plays) minDurationMs).sum f)
    (hsongs : ∀ f, catalog.sum f = (Collection.ofList songs).sum f) (t : Tally String) :
    played.multiplicity t.identity * catalog.keyed t =
      timesPlayed plays minDurationMs t.identity * (Collection.ofList songs).keyed t := by
  rw [Collection.multiplicity_congr hplays, multiplicity_chartablePlays,
    Collection.keyed_congr hsongs]

theorem Holds.listed_eq (h : c.Holds workers minDurationMs plays songs) (key : String) :
    c.counts.listed key = (countsOf plays songs minDurationMs).listed key := by
  ext e
  rw [h.counts, mem_listed_playCounts, countsOf, mem_listed_playCounts, multiplicity_chartablePlays,
    tally_eq h.plays h.songs ⟨key, e.identity⟩]

/-- No tally passes the ledgers that is not a word. -/
theorem Holds.words (h : c.Holds workers minDurationMs plays songs) (t : Tally String) :
    IsWord (timesPlayed plays minDurationMs t.identity * (Collection.ofList songs).keyed t) := by
  rw [← tally_eq h.plays h.songs]
  exact h.ledgers.words t

/-! ## An epoch -/

section

variable (h : c.Holds workers minDurationMs plays songs)

include h

/-- Scores only rise in an epoch without removals. -/
theorem Holds.raises
    (h' : c'.Counts workers minDurationMs (.ofList (plays ++ more)) (.ofList (songs ++ newSongs)))
    (key : String) : Raises (c.counts.listed key) (c'.counts.listed key) := by
  rw [h.counts, h'.counts]
  refine raises_listed (fun t => ?_) (fun t => ?_) h'.ledgers.words key
  · rw [tally_eq h.plays h.songs]
    exact Int.mul_nonneg (Int.natCast_nonneg _) (keyed_ofList_nonneg songs t)
  · rw [tally_eq h.plays h.songs, tally_eq h'.plays h'.songs, timesPlayed_append,
      Collection.ofList_append, Collection.keyed_append]
    refine Int.mul_le_mul (Int.ofNat_le.2 (Nat.le_add_right _ _)) ?_
      (keyed_ofList_nonneg songs t) (Int.natCast_nonneg _)
    exact le_add_of_nonneg_right (keyed_ofList_nonneg newSongs t)

theorem Holds.multiplicity_owned_changesIn {b : Batch} {reports : List (Option Drained)}
    (hadvance : c.advance b = .ok (reports, c')) (i : Nat) (key : String) (e : Entry) :
    (c.owned i (c.changesIn b)).multiplicity ⟨key, e⟩ =
      (if e ∈ if (shardOf key workers).toNat = i then c'.counts.listed key else ∅ then 1 else 0) -
        if e ∈ if (shardOf key workers).toNat = i then c.counts.listed key else ∅ then 1 else 0 := by
  rw [h.multiplicity_owned, h.multiplicity_changesIn hadvance]
  by_cases hkey : (shardOf key workers).toNat = i
  · simp only [hkey, if_true]
  · simp only [hkey, if_false, Finset.notMem_empty, sub_zero]

omit h in
theorem raises_owned {old new : String → Finset Entry} (hraises : ∀ key, Raises (old key) (new key))
    (i : Nat) (key : String) :
    Raises (if (shardOf key workers).toNat = i then old key else ∅)
      (if (shardOf key workers).toNat = i then new key else ∅) := by
  split
  · exact hraises key
  · exact .refl fun a ha => absurd ha (Finset.notMem_empty a)

theorem Holds.shows_serve {b : Batch} (hb : b.drains) {reports : List (Option Drained)}
    (hadvance : c.advance b = .ok (reports, c'))
    (hraises : ∀ key, Raises (c.counts.listed key) (c'.counts.listed key)) {i : Nat}
    {w w' : ChartWorker} (hw : c.workers[i]? = some w) {report : Option Drained}
    (hserve : c.serve b w i = .ok (report, w')) :
    w'.Shows fun key => if (shardOf key workers).toNat = i then c'.counts.listed key else ∅ := by
  obtain ⟨drained, -, hdrain⟩ := drain_of_serve hb hserve
  exact (h.shows i w hw).drain (raises_owned hraises i) (fun row => h.isWord_of_mem_owned)
    (h.multiplicity_owned_changesIn hadvance i) hdrain

/-- **An epoch that succeeds** adds its plays and songs. -/
theorem Holds.advance {reports : List (Option Drained)}
    (hadvance : c.advance { songs := .ofList newSongs, plays := .ofList more } =
      .ok (reports, c')) :
    c'.Holds workers minDurationMs (plays ++ more) (songs ++ newSongs) := by
  have hcounts := h.toCounts.advance hadvance
  rw [← Collection.ofList_append, ← Collection.ofList_append] at hcounts
  refine ⟨hcounts, fun i w' hw' => ?_⟩
  have hi : i < c.workers.length := by
    rw [h.length, ← hcounts.length]
    exact (List.getElem?_eq_some_iff.1 hw').1
  obtain ⟨w, report, _, hw, -, hw'', hserve⟩ := exists_serve_eq_ok hadvance hi
  cases hw'.symm.trans hw''
  exact h.shows_serve rfl hadvance (h.raises hcounts) hw hserve

end

/-! ## The router -/

def store (c : Charting) (i : UInt64) : Store String chartSize :=
  (c.workers[i.toNat]?.map ChartWorker.charts).getD .empty

theorem Holds.exact_store (h : c.Holds workers minDurationMs plays songs) {i : UInt64}
    (hi : i ∈ shardList workers) : (c.store i).Exact fun key =>
      if shardOf key workers = i then (countsOf plays songs minDurationMs).listed key else ∅ := by
  rw [mem_shardList, UInt64.lt_iff_toNat_lt, ← h.length] at hi
  have hw := List.getElem?_eq_getElem hi
  have hshows := (h.shows _ _ hw).charts
  rw [store, hw]
  simp only [UInt64.toNat_inj, h.listed_eq] at hshows
  exact hshows

theorem Holds.sharded (h : c.Holds workers minDurationMs plays songs) :
    Sharded workers c.store := by
  have hnone {i : UInt64} (hi : i ∉ shardList workers) : c.store i = .empty := by
    rw [mem_shardList, UInt64.lt_iff_toNat_lt, ← h.length] at hi
    rw [store, List.getElem?_eq_none (Nat.not_lt.1 hi)]
    rfl
  constructor
  · intro i
    by_cases hi : i ∈ shardList workers
    · exact fun key => ((h.exact_store hi).chart key).sound
    · rw [hnone hi]
      exact Store.sound_empty
  · intro i key hkey
    by_cases hi : i ∈ shardList workers
    · have hlisted := ((h.exact_store hi).known key).1 hkey
      by_contra hshard
      rw [if_neg hshard] at hlisted
      exact Finset.not_nonempty_empty hlisted
    · rw [hnone hi, Store.get?_empty] at hkey
      cases hkey

/-- **The router shows what all plays and songs count**, with the shard of every key. -/
theorem Holds.exists_router (h : c.Holds workers minDurationMs plays songs) :
    ∃ r, c.router = .ok r ∧ ∀ key, r.topK key = .ok
        (if ((countsOf plays songs minDurationMs).listed key).Nonempty then
          some (best chartSize ((countsOf plays songs minDurationMs).listed key)) else none) ∧
      r.ownerOf key = if ((countsOf plays songs minDurationMs).listed key).Nonempty then
        some (shardOf key workers) else none := by
  obtain ⟨r, hr, hanswers⟩ := h.sharded.exists_router (List.Perm.refl _)
  have hsnapshots : (c.workers.zipIdx.map fun x =>
      Snapshot.capture (UInt64.ofNat x.2) x.1.charts) =
      (shardList workers).map fun i => Snapshot.capture i (c.store i) := by
    refine List.ext_getElem ?_ fun i hi hi' => ?_
    · rw [List.length_map, List.length_zipIdx, h.length, shardList, List.length_map,
        List.length_map, List.length_range]
    · rw [List.length_map, List.length_zipIdx] at hi
      have hword : (UInt64.ofNat i).toNat = i := by
        rw [h.length] at hi
        exact UInt64.toNat_ofNat_of_lt' (hi.trans (max workers 1).toNat_lt)
      have hstore : c.store (UInt64.ofNat i) = c.workers[i].charts := by
        rw [store, hword, List.getElem?_eq_getElem hi]
        rfl
      simp only [List.getElem_map, List.getElem_zipIdx, Nat.zero_add, shardList,
        List.getElem_range, hstore]
  refine ⟨r, (congrArg Router.ofSnapshots hsnapshots).trans hr, fun key => ?_⟩
  have htop := (h.exact_store (shardOf_mem key workers)).topK_eq key
  rw [if_pos rfl] at htop
  obtain ⟨hkey, howner⟩ := hanswers key
  rw [hkey, howner, htop]
  refine ⟨rfl, ?_⟩
  split <;> rfl

end Charting

end TopCharts
