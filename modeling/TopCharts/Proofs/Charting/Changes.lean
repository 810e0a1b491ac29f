import Mathlib
import TopCharts.Proofs.ChangeLog.Turnover
import TopCharts.Proofs.Charting.Joined

/-!
# The changes that charting feeds to its charts

However plays and songs come and go, the changes of the counts are those of a table with one entry
for each chart key and song.

* `Charting.buffered c` : what the workers have recorded and not drained. The epochs of a run that
  drains nothing add up to the entries of the joined counts (`Buffers.advance`);
* `Charting.drainedBy i epochs` : what worker `i` has drained. It leaves the entries of the joined
  counts standing (`Drains.advance`);
* `exists_run` : a run that drains nothing succeeds together with the one that drains after every
  epoch;
* `run_feeds_table` : so each drain takes the old entry of a song back, if it changes, and delivers
  the new one.
-/

namespace TopCharts

open Attempt

namespace Charting

variable {c c' d : Charting} {workers minDurationMs : UInt64} {b : Batch}
  {reports : List (Option Drained)}

/-! ## What is recorded -/

/-- What the workers have recorded and not drained. -/
def buffered (c : Charting) : List (Weighted String UInt64) :=
  c.workers.flatMap fun w => w.log.changes.toList

theorem total_flatMap {α : Type} (l : List α) (f : α → List (Weighted String UInt64))
    (key : String) (e : Entry) :
    total (l.flatMap f) key e = (l.map fun a => total (f a) key e).sum := by
  induction l with
  | nil => rfl
  | cons a l ih => rw [List.flatMap_cons, total_append, ih, List.map_cons, List.sum_cons]

/-- The logs hold the entries of the joined counts, if nothing has been drained. -/
structure Buffers (c : Charting) (workers minDurationMs : UInt64) (batches : List Batch) :
    Prop where
  counts : c.CountsAll workers minDurationMs batches
  totals : ∀ key e, total c.buffered key e = if e ∈ c.counts.listed key then 1 else 0

theorem buffers_start (workers minDurationMs : UInt64) :
    (start workers minDurationMs).Buffers workers minDurationMs [] where
  counts := counts_start workers minDurationMs
  totals key e := by
    have hnone : (start workers minDurationMs).buffered = [] := by
      refine List.flatMap_eq_nil_iff.2 fun w hw => ?_
      rw [List.eq_of_mem_replicate hw]
      rfl
    rw [hnone]
    rfl

/-- **An epoch without drains** buffers its changes, each with one worker. -/
theorem Buffers.advance {batches : List Batch} (h : c.Buffers workers minDurationMs batches)
    (hadvance : c.advance { b with drains := false } = .ok (reports, c')) :
    c'.Buffers workers minDurationMs (batches ++ [b]) := by
  refine ⟨h.counts.advance hadvance, fun key e => ?_⟩
  have hchanges := h.counts.multiplicity_changesIn hadvance key e
  obtain ⟨ledgers, results, -, hresults, -, rfl⟩ := advance_eq_ok_iff.1 hadvance
  have hserve : ∀ x ∈ c.workers.zipIdx, c.serve { b with drains := false } x.1 x.2 =
      .ok (none, x.1.record c.epoch (c.owned x.2 (c.changesIn { b with drains := false }))) :=
    fun _ _ => rfl
  rw [mapM_eq_ok hserve] at hresults
  cases hresults
  have hrecord (x : ChartWorker × Nat) :
      total (x.1.record c.epoch
          (c.owned x.2 (c.changesIn { b with drains := false }))).log.changes.toList key e =
        total x.1.log.changes.toList key e + if x.2 = (shardOf key workers).toNat then
          (c.changesIn { b with drains := false }).multiplicity ⟨key, e⟩ else 0 := by
    rw [ChartWorker.changes_record, total_append,
      total_changes fun row => h.counts.isWord_of_mem_owned,
      h.counts.multiplicity_owned, if_congr eq_comm rfl rfl]
  have hlogs : (c.workers.zipIdx.map fun x => total x.1.log.changes.toList key e).sum =
      total c.buffered key e := by
    rw [buffered, total_flatMap]
    conv_rhs => rw [← List.zipIdx_map_fst 0 c.workers, List.map_map]
    rfl
  have hshard : (shardOf key workers).toNat < c.workers.length :=
    h.counts.length ▸ shardOf_lt key workers
  rw [buffered, next, List.map_map, List.flatMap_map, total_flatMap]
  simp only [Function.comp_def, hrecord]
  rw [List.sum_map_add, hlogs, sum_zipIdx_ite _ hshard, h.totals, hchanges]
  exact add_sub_cancel _ _

theorem Buffers.total_eq {batches : List Batch} (h : c.Buffers workers minDurationMs batches)
    (key : String) (id score : Int64) : total c.buffered key ⟨id, score⟩ =
      if countAfter batches minDurationMs key id ≠ 0 ∧
        score.toInt = countAfter batches minDurationMs key id then 1 else 0 := by
  rw [h.totals]
  refine if_congr ?_ rfl rfl
  rw [h.counts.mem_listed_iff, countedEntry_eq_some]
  refine and_congr_right fun _ => (and_iff_right rfl).trans ?_
  exact (h.counts.isWord_joinedCount key id).eq_ofInt_iff

/-! ## What is drained -/

/-- What worker `i` has drained in some epochs. -/
def drainedBy (i : Nat) (epochs : List (List (Option Drained))) : List (Update String) :=
  epochs.flatMap fun reports => match reports[i]? with
    | some (some drained) => drained.updates
    | _ => []

/-- The entry of a song that is counted `n` times, if worker `i` owns the key. -/
def ownedEntry (workers : UInt64) (i : Nat) (key : String) (n : Int) (id : Int64) : Option Entry :=
  if (shardOf key workers).toNat = i then countedEntry n id else none

theorem identity_of_mem_ownedEntry {i : Nat} {key : String} {n : Int} {id : Int64} {e : Entry}
    (h : e ∈ ownedEntry workers i key n id) : e.identity = id := by
  rw [ownedEntry] at h
  split at h
  · exact (countedEntry_eq_some.1 h).2.1
  · cases h

/-- The logs are empty, and what each worker drained leaves the entries of the joined counts
standing that it owns. -/
structure Drains (c : Charting) (workers minDurationMs : UInt64) (batches : List Batch)
    (epochs : List (List (Option Drained))) : Prop where
  counts : c.CountsAll workers minDurationMs batches
  logs : ∀ w ∈ c.workers, w.log = .empty
  standing : ∀ i < c.workers.length, ∀ key id, standing key id (drainedBy i epochs) =
    ownedEntry workers i key (countAfter batches minDurationMs key id) id

theorem drains_start (workers minDurationMs : UInt64) :
    (start workers minDurationMs).Drains workers minDurationMs [] [] where
  counts := counts_start workers minDurationMs
  logs w hw := by
    rw [List.eq_of_mem_replicate hw]
  standing i _ key id := (ite_self none).symm

theorem CountsAll.owned_eq {batches : List Batch}
    (h : c.CountsAll workers minDurationMs batches) (i : Nat) {key : String} {e : Entry} :
    (if (shardOf key workers).toNat = i then (if e ∈ c.counts.listed key then (1 : Int) else 0)
      else 0) = if ownedEntry workers i key (countAfter batches minDurationMs key e.identity)
        e.identity = some e then 1 else 0 := by
  rw [ownedEntry]
  split
  · exact if_congr (Counts.mem_listed_iff h) rfl rfl
  · rfl

section

variable {batches : List Batch} {epochs : List (List (Option Drained))}

theorem Drains.about_serve (h : c.Drains workers minDurationMs batches epochs)
    (hadvance : c.advance { b with drains := true } = .ok (reports, c')) {i : Nat}
    {w w' : ChartWorker} (hw : c.workers[i]? = some w) {report : Option Drained}
    (hserve : c.serve { b with drains := true } w i = .ok (report, w')) :
    w'.log = .empty ∧ ∃ drained, report = some drained ∧ ∀ key id,
      about key id drained.updates =
        turnover key (ownedEntry workers i key (countAfter batches minDurationMs key id) id)
          (ownedEntry workers i key (countAfter (batches ++ [b]) minDurationMs key id) id) := by
  obtain ⟨drained, rfl, hdrain⟩ := drain_of_serve rfl hserve
  obtain ⟨hdelivers, hlog, -⟩ := ChartWorker.delivers_drain (h.logs w (List.mem_of_getElem? hw))
    (fun row => h.counts.isWord_of_mem_owned) hdrain
  refine ⟨hlog, drained, rfl, fun key id => hdelivers.about_eq
    (fun e => identity_of_mem_ownedEntry) (fun e => identity_of_mem_ownedEntry) ?_⟩
  rintro e rfl
  rw [h.counts.multiplicity_owned, h.counts.multiplicity_changesIn hadvance,
    ← (h.counts.advance hadvance).owned_eq, ← h.counts.owned_eq]
  split <;> rfl

/-- **An epoch with drains** leaves the new entries standing. -/
theorem Drains.advance (h : c.Drains workers minDurationMs batches epochs)
    (hadvance : c.advance { b with drains := true } = .ok (reports, c')) :
    c'.Drains workers minDurationMs (batches ++ [b]) (epochs ++ [reports]) := by
  have hcounts := h.counts.advance hadvance
  have hlength : c'.workers.length = c.workers.length := hcounts.length.trans h.counts.length.symm
  refine ⟨hcounts, fun w' hw' => ?_, fun i hi key id => ?_⟩
  · obtain ⟨i, hi, hw'⟩ := List.getElem_of_mem hw'
    obtain ⟨w, report, w'', hw, -, hw'', hserve⟩ := exists_serve_eq_ok hadvance (hlength ▸ hi)
    rw [List.getElem?_eq_getElem hi, hw'] at hw''
    cases hw''
    exact (h.about_serve hadvance hw hserve).1
  · rw [hlength] at hi
    obtain ⟨w, report, w', hw, hreport, -, hserve⟩ := exists_serve_eq_ok hadvance hi
    obtain ⟨-, drained, rfl, habout⟩ := h.about_serve hadvance hw hserve
    have hdrained : drainedBy i (epochs ++ [reports]) = drainedBy i epochs ++ drained.updates := by
      rw [drainedBy, List.flatMap_append, List.flatMap_singleton, hreport]
      rfl
    rw [hdrained]
    apply standing_append
    rw [h.standing i hi key id]
    exact habout key id

/-- The changes of an epoch are different entries, each with a weight of one, so that a worker can
drain them. -/
theorem Drains.exists_serve_eq_ok (h : c.Drains workers minDurationMs batches epochs)
    (b : Batch) {w : ChartWorker} (hw : w ∈ c.workers) (index : Nat) :
    ∃ result, c.serve { b with drains := true } w index = .ok result := by
  have hdiff : ∀ row ∈ (c.owned index (c.changesIn b)).rows,
      Int64.ofInt row.2 ≠ Int64.minValue := by
    intro row hrow
    rcases h.counts.weight_of_mem_owned hrow with hw | hw <;> rw [hw] <;> decide
  obtain ⟨result, hdrain⟩ : ∃ result, (w.record c.epoch
      (c.owned index (c.changesIn { b with drains := true }))).drain = .ok result :=
    ChartWorker.exists_drain_eq_ok (h.logs w hw) (nodup_owned c (nodup_changesIn c _) index) hdiff
  exact ⟨(some result.1, result.2), bind_eq_ok.2 ⟨result, hdrain, rfl⟩⟩

end

/-! ## With and without drains -/

/-- Two states differ in the logs and charts of their workers only. -/
def Alike (c d : Charting) : Prop :=
  ∃ workers, workers.length = c.workers.length ∧ { c with workers } = d

/-- **Drains cannot fail** where the counts can be taken. -/
theorem Drains.exists_advance {batches : List Batch} {epochs : List (List (Option Drained))}
    (h : d.Drains workers minDurationMs batches epochs) (halike : c.Alike d)
    (hadvance : c.advance { b with drains := false } = .ok (reports, c')) :
    ∃ last d', d.advance { b with drains := true } = .ok (last, d') ∧ c'.Alike d' := by
  obtain ⟨ledgers, results, hledgers, hresults, -, rfl⟩ := advance_eq_ok_iff.1 hadvance
  obtain ⟨ws, hlength, rfl⟩ := halike
  -- the deal asks for the number of workers only
  have hentering : entering { c with workers := ws } { b with drains := true } =
      c.entering { b with drains := false } := by
    funext index
    rw [entering, hlength]
    rfl
  have hplays : playsIn { c with workers := ws } { b with drains := true } =
      c.playsIn { b with drains := false } := by
    rw [playsIn, hlength, hentering]
    rfl
  have hsongs : songsIn { c with workers := ws } { b with drains := true } =
      c.songsIn { b with drains := false } := by
    rw [songsIn, hlength]
    rfl
  have hpost : postIn { c with workers := ws } { b with drains := true } = .ok ledgers := by
    rw [← hledgers, postIn, hplays, hsongs]
    rfl
  have hserve : ∀ x ∈ ws.zipIdx, ∃ result,
      serve { c with workers := ws } { b with drains := true } x.1 x.2 = .ok result :=
    fun x hx => h.exists_serve_eq_ok b (List.fst_mem_of_mem_zipIdx hx) x.2
  obtain ⟨results', hresults'⟩ := exists_mapM_eq_ok hserve
  refine ⟨_, _, advance_eq_ok_iff.2 ⟨ledgers, results', hpost, hresults', rfl, rfl⟩,
    results'.map Prod.snd, ?_, ?_⟩
  · show _ = (results.map Prod.snd).length
    rw [List.length_map, List.length_map, (getElem?_of_mapM_eq_ok hresults).1,
      (getElem?_of_mapM_eq_ok hresults').1, List.length_zipIdx, List.length_zipIdx, hlength]
  · simp only [next, playsAfter, songsAfter, hplays, hsongs]

/-- A run that drains nothing, and the run that drains after every epoch. -/
theorem exists_run {batches : List Batch} {epochs : List (List (Option Drained))}
    (h : (start workers minDurationMs).run false batches = .ok (epochs, c)) :
    c.Buffers workers minDurationMs batches ∧
      ∃ drained d, (start workers minDurationMs).run true batches = .ok (drained, d) ∧
        c.Alike d ∧ d.Drains workers minDurationMs batches drained := by
  induction batches using List.reverseRecOn generalizing epochs c with
  | nil =>
    cases pure_eq_ok.1 h
    exact ⟨buffers_start _ _, [], _, rfl, ⟨_, rfl, rfl⟩, drains_start _ _⟩
  | append_singleton batches b ih =>
    obtain ⟨before, c', last, hbefore, hlast, rfl⟩ := run_append_singleton.1 h
    obtain ⟨hbuffers, drained, d, hrun, halike, hdrains⟩ := ih hbefore
    obtain ⟨last', d', hlast', halike'⟩ := hdrains.exists_advance halike hlast
    exact ⟨hbuffers.advance hlast, drained ++ [last'], d',
      run_append_singleton.2 ⟨drained, d, last', hrun, hlast', rfl⟩, halike',
      hdrains.advance hlast'⟩

/-- **Charting feeds its charts the changes of a table.** If the epochs of some batches succeed,
what the workers record adds up to one entry for each chart key and song whose joined count is not
zero, with the count as its score. The drain of the last epoch holds for each of them what puts the
new entry in the place of the one that earlier drains left standing, at the worker that owns the
key. -/
theorem run_feeds_table {batches : List Batch} {epochs : List (List (Option Drained))}
    (h : (start workers minDurationMs).run false (batches ++ [b]) = .ok (epochs, c)) :
    (∀ key id, IsWord (countAfter (batches ++ [b]) minDurationMs key id)) ∧
    (∀ key id score, total c.buffered key ⟨id, score⟩ =
      if countAfter (batches ++ [b]) minDurationMs key id ≠ 0 ∧
        score.toInt = countAfter (batches ++ [b]) minDurationMs key id then 1 else 0) ∧
    ∃ drained d last d', (start workers minDurationMs).run true batches = .ok (drained, d) ∧
      d.advance { b with drains := true } = .ok (last, d') ∧
      last.length = (max workers 1).toNat ∧
      ∀ i report, last[i]? = some report → ∃ drain, report = some drain ∧ ∀ key id,
        let before := countAfter batches minDurationMs key id
        let after := countAfter (batches ++ [b]) minDurationMs key id
        standing key id (drainedBy i drained) = ownedEntry workers i key before id ∧
        about key id drain.updates = turnover key (standing key id (drainedBy i drained))
          (ownedEntry workers i key after id) := by
  have hbuffers := (exists_run h).1
  refine ⟨hbuffers.counts.isWord_joinedCount, hbuffers.total_eq, ?_⟩
  obtain ⟨_, c', _, hbatches, hlast, -⟩ := run_append_singleton.1 h
  obtain ⟨-, drained, d, hrun, halike, hdrains⟩ := exists_run hbatches
  obtain ⟨last, d', hadvance, -⟩ := hdrains.exists_advance halike hlast
  have hlength := length_of_advance hadvance
  refine ⟨drained, d, last, d', hrun, hadvance, hlength.trans hdrains.counts.length, ?_⟩
  intro i report hreport
  have hi : i < d.workers.length := hlength ▸ (List.getElem?_eq_some_iff.1 hreport).1
  obtain ⟨w, _, w', hw, hreport', -, hserve⟩ := exists_serve_eq_ok hadvance hi
  cases hreport.symm.trans hreport'
  obtain ⟨-, drain, rfl, habout⟩ := hdrains.about_serve hadvance hw hserve
  refine ⟨drain, rfl, fun key id => ⟨hdrains.standing i hi key id, ?_⟩⟩
  rw [hdrains.standing i hi key id]
  exact habout key id

/-- Songs come after their plays, and two of them with one number; then the genre of a song changes,
and the plays of the others are taken back. -/
theorem run_feeds_table_new_genre :
    let song (genre : String) : Song := ⟨1, "Album", "Artist", "Name", genre⟩
    let batches : List Batch := [
      { plays := ⟨[(⟨1, 40000, "uk"⟩, 3), (⟨1, 29999, "uk"⟩, 1), (⟨2, 30000, ""⟩, 1)]⟩ },
      { songs := .ofList [song "Rock", ⟨2, "A", "B", "C", "Folk"⟩, ⟨2, "A", "B", "D", "Rock"⟩] }]
    let b : Batch := {
      songs := ⟨[(song "Rock", -1), (song "Folk", 1)]⟩
      plays := ⟨[(⟨1, 50000, "us"⟩, -1), (⟨2, 30000, ""⟩, -1)]⟩ }
    let before := countAfter batches 30000
    let after := countAfter (batches ++ [b]) 30000
    (before "rock" 1 = 3 ∧ before "folk" 1 = 0 ∧ before "all" 2 = 2) ∧
      (after "rock" 1 = 0 ∧ after "folk" 1 = 2 ∧ after "all" 2 = 0) ∧
      ∃ epochs c, (start 2 30000).run false (batches ++ [b]) = .ok (epochs, c) ∧
        (∀ key id score, total c.buffered key ⟨id, score⟩ =
          if after key id ≠ 0 ∧ score.toInt = after key id then 1 else 0) ∧
        ∃ drained d last d', (start 2 30000).run true batches = .ok (drained, d) ∧
          d.advance { b with drains := true } = .ok (last, d') ∧ last.length = 2 ∧
          ∀ i report, last[i]? = some report → ∃ drain, report = some drain ∧ ∀ key id,
            standing key id (drainedBy i drained) = ownedEntry 2 i key (before key id) id ∧
            about key id drain.updates = turnover key (standing key id (drainedBy i drained))
              (ownedEntry 2 i key (after key id) id) := by
  intro song batches b before after
  have hrun : ((start 2 30000).run false (batches ++ [b])).toOption.isSome := by cbv
  refine ⟨by decide +kernel, by decide +kernel, ?_⟩
  cases h : (start 2 30000).run false (batches ++ [b]) with
  | error fault =>
    rw [h] at hrun
    cases hrun
  | ok result =>
    obtain ⟨epochs, c⟩ := result
    obtain ⟨-, htotals, hdrains⟩ := run_feeds_table h
    exact ⟨epochs, c, rfl, htotals, hdrains⟩

end Charting

end TopCharts
