import TopCharts.Proofs.Charting.Growth
import TopCharts.Proofs.Metrics.Accounts
import TopCharts.Proofs.Music.Lines

/-!
# What the counters of the music charts say

* `songEvents` : the chart keys and songs of the plays that count, at most two for each play
  (`length_songEvents_le`);
* `PlaysMetered` : the counters of a run account for its plays;
* `PlaysMetered.musicEpoch` : an epoch keeps this. Each play is counted by one worker, and what all
  workers report says how the counts have grown;
* `meets_metered_run` : so a run does;
* `MusicAccounts` : the counters that a run prints account for all plays (`exists_musicAccounts`).
-/

namespace TopCharts.Run

open Attempt

variable {s : MusicSettings} {plays more : List Play} {key : String} {m : Metrics}
  {t : Counter → Nat}

/-! ## Events -/

/-- The chart keys and songs of the plays that count. -/
def songEvents (s : MusicSettings) (plays : List Play) : List (String × Song) :=
  (plays.filter (·.isChartable s.minDurationMs)).flatMap fun p =>
    ((Demo.catalog s.songs).filter (·.id = p.songId)).flatMap fun song =>
      song.chartKeys.map fun key => (key, song)

theorem valuesAt_chartKeys {song : Song} (h : song ∈ Demo.catalog s.songs) :
    valuesAt (song.chartKeys.map fun key => (key, song)) key =
      if key ∈ song.chartKeys then [song] else [] := by
  have hne := Demo.genreKey_ne h
  rw [valuesAt, Song.chartKeys]
  by_cases hgenre : song.genreKey = key
  · subst hgenre
    simp [hne.symm]
  · by_cases hall : allSongsKey = key
    · subst hall
      simp [hne]
    · simp [hgenre, hall, Ne.symm]

theorem valuesAt_flatMap {κ ι α : Type} [DecidableEq κ] (l : List α) (f : α → List (κ × ι))
    (key : κ) : valuesAt (l.flatMap f) key = l.flatMap fun a => valuesAt (f a) key := by
  rw [valuesAt, List.filter_flatMap, List.map_flatMap]
  rfl

theorem valuesAt_songEvents (s : MusicSettings) (plays : List Play) (key : String) :
    valuesAt (songEvents s plays) key = chartedPlays s plays key := by
  rw [songEvents, valuesAt_flatMap, chartedPlays]
  refine List.flatMap_congr fun p _ => ?_
  rw [valuesAt_flatMap]
  have hvalues : ∀ song ∈ (Demo.catalog s.songs).filter (·.id = p.songId),
      valuesAt (song.chartKeys.map fun key => (key, song)) key =
        if key ∈ song.chartKeys then [song] else [] := fun song hsong =>
    valuesAt_chartKeys (List.mem_of_mem_filter hsong)
  rw [List.flatMap_congr hvalues, flatMap_ite, List.map_id', List.filter_filter]
  refine List.filter_congr fun song _ => ?_
  rw [Bool.decide_and]
  exact Bool.and_comm _ _

/-- A play counts under at most two keys: no other song has the number of its song. -/
theorem length_songEvents_le (s : MusicSettings) (plays : List Play) :
    (songEvents s plays).length ≤ 2 * plays.length := by
  have hplay (p : Play) : (((Demo.catalog s.songs).filter (·.id = p.songId)).flatMap fun song =>
      song.chartKeys.map fun key => (key, song)).length ≤ 2 := by
    have hone : ((Demo.catalog s.songs).filter (·.id = p.songId)).length ≤ 1 := by
      have hcount := List.nodup_iff_count_le_one.1 (Demo.nodup_catalog s.songs) p.songId
      rw [List.count, List.countP_map, List.countP_eq_length_filter] at hcount
      exact hcount
    rw [List.length_flatMap]
    refine (List.sum_le_card_nsmul _ 2 fun n hn => ?_).trans ?_
    · obtain ⟨song, -, rfl⟩ := List.mem_map.1 hn
      exact le_rfl
    · rw [List.length_map]
      exact Nat.mul_le_mul_right 2 hone
  rw [songEvents, List.length_flatMap]
  refine (List.sum_le_card_nsmul _ 2 fun n hn => ?_).trans ?_
  · obtain ⟨p, -, rfl⟩ := List.mem_map.1 hn
    exact hplay p
  · rw [List.length_map, Nat.mul_comm]
    exact Nat.mul_le_mul_right 2 (List.length_filter_le _ _)

/-! ## Counting -/

theorem totals_foldl_ingestPlay (h : m.Totals t) (plays : List Play) :
    (plays.foldl (ingestPlay s) m).Totals (t + Pi.single .eventsIngested plays.length +
      Pi.single .eventsFiltered (plays.countP fun p => !p.isChartable s.minDurationMs)) := by
  induction plays generalizing m t with
  | nil =>
    rw [List.length_nil, List.countP_nil, Pi.single_zero, Pi.single_zero, add_zero, add_zero]
    exact h
  | cons p plays ih =>
    have hone : (ingestPlay s m p).Totals (t + Pi.single .eventsIngested 1 +
        Pi.single .eventsFiltered (!p.isChartable s.minDurationMs).toNat) :=
      (h.count .eventsIngested 1).countIf _ .eventsFiltered
    have hfiltered : (p :: plays).countP (fun p => !p.isChartable s.minDurationMs) =
        (!p.isChartable s.minDurationMs).toNat +
          plays.countP fun p => !p.isChartable s.minDurationMs := by
      rw [List.countP_cons, Nat.add_comm]
      cases p.isChartable s.minDurationMs <;> rfl
    rw [List.foldl_cons, List.length_cons, hfiltered, Pi.single_add, Pi.single_add]
    convert ih hone using 1
    abel

theorem reportedBy_of_event (reports : List (Option Drained)) {c : Counter}
    (hc : c = .eventsIngested ∨ c = .eventsFiltered) : Charting.reportedBy reports c = 0 := by
  rw [Charting.reportedBy, Pi.list_sum_apply, List.map_map]
  refine List.sum_eq_zero fun n hn => ?_
  obtain ⟨report, -, rfl⟩ := List.mem_map.1 hn
  rcases hc with rfl | rfl <;> cases report <;> rfl

theorem totals_foldl_countDrained (h : m.Totals t) (reports : List (Option Drained)) :
    ((reports.filterMap id).foldl countDrained m).Totals (t + Charting.reportedBy reports) := by
  induction reports generalizing m t with
  | nil => exact (add_zero t).symm ▸ h
  | cons report reports ih =>
    rw [Charting.reportedBy, List.map_cons, List.sum_cons, ← add_assoc]
    cases report with
    | none => exact ih ((add_zero t).symm ▸ h)
    | some drained => exact ih ((h.foldl_recordApply _).peak _)

/-! ## A run -/

theorem length_generatedPlays {n : Nat} (h : generatedPlays s n = .ok plays) :
    plays.length = n * s.playsPerEpoch.toNat := by
  induction n generalizing plays with
  | zero =>
    cases h
    exact (Nat.zero_mul _).symm
  | succ n ih =>
    obtain ⟨before, hbefore, h⟩ := bind_eq_ok.1 h
    obtain ⟨next, hnext, h⟩ := bind_eq_ok.1 h
    cases pure_eq_ok.1 h
    have hlength : next.length = s.playsPerEpoch.toNat :=
      (Demo.generate_eq_ok hnext).1.trans (congrArg UInt64.toNat (ite_self _))
    rw [List.length_append, ih hbefore, hlength, Nat.succ_mul]

/-- How many plays a run has: the replayed ones, if there is an epoch, and the generated ones. -/
theorem length_playsUntil {replay : List Play} {n : Nat} (h : playsUntil s replay n = .ok plays) :
    plays.length = (if n = 0 then 0 else replay.length) + n * s.playsPerEpoch.toNat := by
  obtain ⟨generated, hgenerated, h⟩ := bind_eq_ok.1 h
  cases pure_eq_ok.1 h
  rw [List.length_append, length_generatedPlays hgenerated, apply_ite List.length]
  rfl

/-- The counters show the numbers `t`, which account for the plays. -/
structure PlaysMetered (s : MusicSettings) (malformed : Nat) (plays : List Play) (m : Metrics)
    (t : Counter → Nat) : Prop where
  totals : m.Totals t
  ingested : t .eventsIngested = plays.length
  filtered : t .eventsFiltered =
    malformed + plays.countP fun p => !p.isChartable s.minDurationMs
  grown : ∃ raised : String → Nat, (∀ key, raised key ≤ (chartedPlays s plays key).length) ∧
    Grown chartSize t raised 0 fun key => (chartedPlays s plays key).toFinset.card

theorem playsMetered_start (s : MusicSettings) (malformed : Nat) :
    PlaysMetered s malformed [] (Metrics.count {} .eventsFiltered (.ofNat malformed))
      (0 + Pi.single .eventsFiltered malformed) where
  totals := Metrics.Totals.start.count _ _
  ingested := rfl
  filtered := by rw [zero_add, Pi.single_eq_same, List.countP_nil, Nat.add_zero]
  grown := ⟨0, fun _ => Nat.zero_le _, (Grown.refl chartSize 0).count (.inr rfl) malformed⟩

/-- **An epoch** is accounted for. -/
theorem PlaysMetered.musicEpoch {malformed n : Nat} {replay before : List Play}
    {workers : UInt64} {state state' : MusicState} (hn : n < 2 ^ 64)
    (hbefore : playsUntil s replay n = .ok before)
    (hholds : state.charting.Holds workers s.minDurationMs before (songsUntil s n))
    (h : PlaysMetered s malformed before state.metrics t)
    (hmore : epochPlays s replay (UInt64.ofNat n) = .ok more)
    (hepoch : Run.musicEpoch s (Demo.catalog s.songs) replay (UInt64.ofNat n) state = .ok state') :
    ∃ t, PlaysMetered s malformed (before ++ more) state'.metrics t := by
  have hpos := hholds.workers_pos
  obtain ⟨more', reports, hmore', hadvance, hmetrics⟩ := exists_of_musicEpoch hpos hepoch
  cases hmore.symm.trans hmore'
  have hperm := perm_share hpos more
  have hingested := totals_foldl_ingestPlay (s := s) h.totals
    ((List.range state.charting.workers.length).flatMap fun index =>
      share state.charting.workers.length index more)
  rw [hperm.length_eq, hperm.countP_eq] at hingested
  have hgrown := hholds.grown hadvance
  have hafter := songsUntil_succ s hn ▸ hholds.advance hadvance
  have hall := playsUntil_succ hn hbefore hmore
  simp only [hholds.listed_eq, hafter.listed_eq, listed_songsUntil hbefore, listed_songsUntil hall]
    at hgrown
  simp only [card_listed] at hgrown
  obtain ⟨raised, hraised, hcounted⟩ := h.grown
  refine ⟨_, hmetrics ▸ totals_foldl_countDrained hingested reports, ?_, ?_, _,
    fun key => ?_, ((hcounted.count (.inl rfl) _).count (.inr rfl) _).trans hgrown⟩
  · rw [List.length_append, ← h.ingested]
    simp [reportedBy_of_event]
  · rw [List.countP_append, ← Nat.add_assoc, ← h.filtered]
    simp [reportedBy_of_event]
  · rw [chartedPlays_append, List.length_append]
    exact Nat.add_le_add (hraised key) (card_listed_sdiff_le s before more key)

/-- **The epochs of a run** are accounted for. -/
theorem meets_metered_run (s : MusicSettings) (feed : Feed.Contents Play) :
    Meets (runEpochs s.run.epochs (musicEpoch s (Demo.catalog s.songs) feed.records)
        { charting := .start s.run.workers s.minDurationMs
          metrics := Metrics.count {} .eventsFiltered (.ofNat feed.malformed) }) False
      fun state => ∃ plays, playsUntil s feed.records s.run.epochs.toNat = .ok plays ∧
        ∃ t, PlaysMetered s feed.malformed plays state.metrics t := by
  refine (meets_runEpochs (W := fun _ => False) (P := fun n (state : MusicState) => ∃ plays,
      playsUntil s feed.records n = .ok plays ∧
        state.charting.Holds s.run.workers s.minDurationMs plays (songsUntil s n) ∧
        ∃ t, PlaysMetered s feed.malformed plays state.metrics t)
    ?_ (fun _ => False.elim) ⟨[], rfl, Charting.holds_start _ _, _, playsMetered_start s _⟩).imp id
    fun state hstate => ?_
  · rintro n hn state ⟨before, hbefore, hholds, t, hmetered⟩
    have hn : n < 2 ^ 64 := hn.trans s.run.epochs.toNat_lt
    refine ⟨False.elim, fun state' hepoch => ?_⟩
    obtain ⟨more, hmore, hplays, hholds'⟩ := holds_musicEpoch hn hbefore hholds hepoch
    exact ⟨_, hplays, hholds', hmetered.musicEpoch hn hbefore hholds hmore hepoch⟩
  · obtain ⟨plays, hplays, -, hmetered⟩ := hstate
    exact ⟨plays, hplays, hmetered⟩

/-- The counters that a run prints account for its plays: the replayed ones, if there is an epoch,
and the generated ones of all epochs. -/
structure MusicAccounts (s : MusicSettings) (feed : Feed.Contents Play) (lines : List String)
    (plays : List Play) (m : Metrics) : Prop where
  received : playsUntil s feed.records s.run.epochs.toNat = .ok plays
  length : plays.length = (if s.run.epochs = 0 then 0 else feed.records.length) +
    s.run.epochs.toNat * s.playsPerEpoch.toNat
  printed : lines.getLast? = some (m.line "music_charts" none)
  accounts : m.Accounts plays.length
    (feed.malformed + plays.countP fun p => !p.isChartable s.minDurationMs) (songEvents s plays)

/-- **The counters that a run prints** account for all plays. -/
theorem exists_musicAccounts {feed : Feed.Contents Play} {lines : List String}
    (h : musicLines s feed = .ok lines) : ∃ plays m, MusicAccounts s feed lines plays m := by
  rw [musicLines] at h
  split at h
  · cases h
  · rename_i state hrun
    obtain ⟨state', hepochs, hstate⟩ := bind_eq_ok.1 hrun
    obtain ⟨_, -, hstate⟩ := bind_eq_ok.1 hstate
    cases pure_eq_ok.1 hstate
    obtain ⟨plays, hplays, t, hmetered⟩ := (meets_metered_run s feed).result _ hepochs
    obtain ⟨raised, hraised, hgrown⟩ := hmetered.grown
    simp only [← valuesAt_songEvents] at hraised hgrown
    refine ⟨plays, state.metrics, hplays, ?_, ?_, ?_⟩
    · have hzero : s.run.epochs.toNat = 0 ↔ s.run.epochs = 0 := UInt64.toNat_inj (b := 0)
      rw [length_playsUntil hplays, if_congr hzero rfl rfl]
    · split at h
      · cases h
      · cases h
        exact List.getLast?_concat
    · rw [← hmetered.ingested, ← hmetered.filtered]
      refine hmetered.totals.accounts hgrown hraised ?_
      rw [hmetered.ingested]
      exact length_songEvents_le s plays

end TopCharts.Run
