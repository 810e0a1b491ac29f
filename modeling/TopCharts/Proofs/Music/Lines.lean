import Mathlib
import TopCharts.Proofs.Music.Charted

/-!
# What the music charts program prints

* `playsUntil` : the plays of the first epochs of a run;
* `exists_of_musicEpoch` : what the workers put in in an epoch is a batch that is dealt to them;
* `holds_musicEpoch`, `meets_musicEpochs` : after an epoch and after a run that succeeds, charting
  holds these plays, and the catalog once there was an epoch;
* `songCharts_eq` : the charts that a router lists, if it shows what the plays count;
* `SongChart.Shows` : a chart lists the songs that are played most often, with the exact counts;
* `MusicRun` : a run prints one such chart for each key with a play that counts;
* `musicLines_whole_run` : that is what a run prints that completes, and another number of workers
  changes nothing but the shards.
-/

namespace TopCharts.Run

open Attempt
open Std (ExtTreeMap LawfulEqOrd)

/-! ## The epochs of a run -/

def generatedPlays (s : MusicSettings) : Nat → Except Fault (List Play)
  | 0 => .ok []
  | n + 1 => do
    return (← generatedPlays s n) ++ (← Demo.plays (UInt64.ofNat n) s.playsPerEpoch s.songs)

/-- The plays of the first epochs of a run: the replayed ones, once, and the generated ones. -/
def playsUntil (s : MusicSettings) (replay : List Play) (epochs : Nat) :
    Except Fault (List Play) := do
  return (if epochs = 0 then [] else replay) ++ (← generatedPlays s epochs)

/-- The same settings, but for the number of workers. -/
def withWorkers (s : MusicSettings) (workers : UInt64) : MusicSettings :=
  { s with run := { s.run with workers } }

theorem playsUntil_withWorkers (s : MusicSettings) (workers : UInt64) (replay : List Play)
    (n : Nat) : playsUntil (withWorkers s workers) replay n = playsUntil s replay n := by
  have hgenerated : generatedPlays (withWorkers s workers) n = generatedPlays s n := by
    induction n with
    | zero => rfl
    | succ n ih =>
      rw [generatedPlays, ih]
      rfl
  rw [playsUntil, hgenerated, playsUntil]

def songsUntil (s : MusicSettings) (epochs : Nat) : List Song :=
  if epochs = 0 then [] else Demo.catalog s.songs

variable {s : MusicSettings} {replay plays : List Play} {key : String}

theorem playsUntil_succ {before more : List Play} {n : Nat} (hn : n < 2 ^ 64)
    (hbefore : playsUntil s replay n = .ok before)
    (hmore : epochPlays s replay (UInt64.ofNat n) = .ok more) :
    playsUntil s replay (n + 1) = .ok (before ++ more) := by
  obtain ⟨generated, hgenerated, hbefore⟩ := bind_eq_ok.1 hbefore
  obtain ⟨next, hnext, hmore⟩ := bind_eq_ok.1 hmore
  cases pure_eq_ok.1 hbefore
  cases pure_eq_ok.1 hmore
  have hall : generatedPlays s (n + 1) = .ok (generated ++ next) :=
    bind_eq_ok.2 ⟨generated, hgenerated, bind_eq_ok.2 ⟨next, hnext, rfl⟩⟩
  refine bind_eq_ok.2 ⟨_, hall, pure_eq_ok.2 ?_⟩
  rw [if_neg (Nat.succ_ne_zero n), List.append_assoc]
  cases n with
  | zero =>
    cases hgenerated
    rfl
  | succ n =>
    rw [if_neg (Nat.succ_ne_zero n), if_neg fun h => Nat.succ_ne_zero n ((ofNat_eq_zero_iff hn).1 h),
      List.nil_append]

theorem songsUntil_succ (s : MusicSettings) {n : Nat} (hn : n < 2 ^ 64) :
    songsUntil s n ++ (if UInt64.ofNat n = 0 then Demo.catalog s.songs else []) =
      songsUntil s (n + 1) := by
  rw [songsUntil, songsUntil, if_neg (Nat.succ_ne_zero n), if_congr (ofNat_eq_zero_iff hn) rfl rfl]
  split
  · exact List.nil_append _
  · exact List.append_nil _

/-! ## An epoch -/

section

variable {songs : List Song} {epoch : UInt64} {more : List Play} {state state' : MusicState}

theorem workerRecords_eq (hmore : epochPlays s replay epoch = .ok more) {index peers : Nat}
    (hindex : index < peers) : workerRecords s songs replay epoch peers index =
      .ok (share peers index (if epoch = 0 then songs else []), share peers index more) := by
  rw [workerRecords, hmore, stepBy_eq_share hindex]
  split <;> rfl

/-- **What an epoch does.** The workers put in the epoch's plays, and in the first epoch the songs,
as a batch that is dealt among them; and each of them counts its own plays. -/
theorem exists_of_musicEpoch (hpos : 0 < state.charting.workers.length)
    (h : musicEpoch s songs replay epoch state = .ok state') :
    ∃ more reports, epochPlays s replay epoch = .ok more ∧
      state.charting.advance {
        songs := .ofList (if epoch = 0 then songs else [])
        plays := .ofList more } = .ok (reports, state'.charting) ∧
      state'.metrics = (reports.filterMap id).foldl countDrained
        (((List.range state.charting.workers.length).flatMap fun index =>
          share state.charting.workers.length index more).foldl (ingestPlay s) state.metrics) := by
  obtain ⟨records, hrecords, h⟩ := bind_eq_ok.1 h
  obtain ⟨⟨reports, charting⟩, hstep, h⟩ := bind_eq_ok.1 h
  cases pure_eq_ok.1 h
  obtain ⟨_, hfirst⟩ := exists_of_mapM_eq_ok hrecords 0 (List.mem_range.2 hpos)
  obtain ⟨more, hmore, -⟩ := bind_eq_ok.1 hfirst
  rw [mapM_eq_ok fun index hindex => workerRecords_eq hmore (List.mem_range.1 hindex)] at hrecords
  cases hrecords
  refine ⟨more, reports, hmore, ?_, ?_⟩
  · rw [Charting.advance, Batch.deal_ofList]
    rw [List.map_map] at hstep
    exact hstep
  · rw [List.foldl_flatMap, List.foldl_map]

end

theorem holds_musicEpoch {before : List Play} {n : Nat} {workers : UInt64}
    {state state' : MusicState} (hn : n < 2 ^ 64) (hbefore : playsUntil s replay n = .ok before)
    (hstate : state.charting.Holds workers s.minDurationMs before (songsUntil s n))
    (hepoch : musicEpoch s (Demo.catalog s.songs) replay (UInt64.ofNat n) state = .ok state') :
    ∃ more, epochPlays s replay (UInt64.ofNat n) = .ok more ∧
      playsUntil s replay (n + 1) = .ok (before ++ more) ∧
      state'.charting.Holds workers s.minDurationMs (before ++ more) (songsUntil s (n + 1)) := by
  obtain ⟨more, reports, hmore, hadvance, -⟩ := exists_of_musicEpoch hstate.workers_pos hepoch
  exact ⟨more, hmore, playsUntil_succ hn hbefore hmore,
    songsUntil_succ s hn ▸ hstate.advance hadvance⟩

/-- **The epochs of a run** chart the plays of the run. -/
theorem meets_musicEpochs (s : MusicSettings) (replay : List Play) (m : Metrics) :
    Meets (runEpochs s.run.epochs (musicEpoch s (Demo.catalog s.songs) replay)
        { charting := .start s.run.workers s.minDurationMs, metrics := m }) False
      fun state => ∃ plays, playsUntil s replay s.run.epochs.toNat = .ok plays ∧
        state.charting.Holds s.run.workers s.minDurationMs plays
          (songsUntil s s.run.epochs.toNat) := by
  refine meets_runEpochs (W := fun _ => False)
    (P := fun n (state : MusicState) => ∃ plays, playsUntil s replay n = .ok plays ∧
      state.charting.Holds s.run.workers s.minDurationMs plays (songsUntil s n))
    ?_ (fun _ => False.elim) ⟨[], rfl, Charting.holds_start _ _⟩
  rintro i hi state ⟨before, hbefore, hstate⟩
  refine ⟨False.elim, fun state' hepoch => ?_⟩
  obtain ⟨more, -, hplays, hholds⟩ :=
    holds_musicEpoch (hi.trans s.run.epochs.toNat_lt) hbefore hstate hepoch
  exact ⟨before ++ more, hplays, hholds⟩

/-- Without an epoch there is nothing to count, with or without songs. -/
theorem listed_songsUntil {n : Nat} (hplays : playsUntil s replay n = .ok plays) :
    (Charting.countsOf plays (songsUntil s n) s.minDurationMs).listed key =
      (Charting.countsOf plays (Demo.catalog s.songs) s.minDurationMs).listed key := by
  cases n with
  | zero =>
    obtain rfl : [] = plays := Except.ok.inj hplays
    ext e
    simp only [Charting.countsOf, mem_listed_playCounts, multiplicity_chartablePlays, timesPlayed,
      List.countP_nil, Nat.cast_zero, zero_mul]
  | succ n => rfl

theorem isWord_count_chartedPlays {c : Charting} {n : Nat} {workers : UInt64}
    (hplays : playsUntil s replay n = .ok plays)
    (h : c.Holds workers s.minDurationMs plays (songsUntil s n)) {song : Song}
    (hsong : song ∈ chartedPlays s plays key) :
    IsWord ((chartedPlays s plays key).count song) := by
  cases n with
  | zero =>
    cases hplays
    cases hsong
  | succ n =>
    obtain ⟨hsong, hkey, -⟩ := mem_chartedPlays.1 hsong
    have hword := h.words ⟨key, song.id⟩
    rw [songsUntil, if_neg (Nat.succ_ne_zero n), keyed_ofList (Demo.nodup_catalog s.songs) hsong,
      count_chartKeys (Demo.genreKey_ne hsong) hkey, Nat.cast_one, mul_one] at hword
    rw [count_chartedPlays hsong hkey]
    exact hword

/-! ## The charts that are shown -/

def shownSongs (s : MusicSettings) (plays : List Play) (key : String) : SongChart where
  key := key
  shard := some (shardOf key s.run.workers)
  songs := (mostFrequent chartSize Song.id (chartedPlays s plays key)).map
    fun x => .ofSong x.1 (.ofInt x.2)

theorem getElem?_byId {song : Song} {songs : UInt64} (h : song ∈ Demo.catalog songs) :
    (ExtTreeMap.ofList ((Demo.catalog songs).map fun s => (s.id, s)) :
      ExtTreeMap Int64 Song)[song.id]? = some song := by
  refine ExtTreeMap.getElem?_ofList_of_mem Std.ReflCmp.compare_self ?_ (List.mem_map_of_mem h)
  refine List.pairwise_map.2 ((List.pairwise_map.1 (Demo.nodup_catalog songs)).imp ?_)
  intro a b hne heq
  exact hne (LawfulEqOrd.eq_of_compare heq)

theorem songCharts_eq {r : Router String chartSize}
    (hr : ∀ key, r.topK key = .ok (if chartedPlays s plays key ≠ [] then
        some ((mostFrequent chartSize Song.id (chartedPlays s plays key)).map
          fun x => ⟨x.1.id, .ofInt x.2⟩) else none) ∧
      r.ownerOf key = if chartedPlays s plays key ≠ [] then some (shardOf key s.run.workers)
        else none) :
    songCharts (Demo.catalog s.songs) r = .ok (r.keys.map (shownSongs s plays)) := by
  refine mapM_eq_ok fun key hkey => ?_
  have hne : chartedPlays s plays key ≠ [] := (Router.mem_keys_of_ownerOf_eq (hr key).2).1 hkey
  rw [(hr key).1, (hr key).2, if_pos hne, if_pos hne]
  refine congrArg Except.ok (congrArg (SongChart.mk key (some (shardOf key s.run.workers))) ?_)
  rw [Option.getD_some, List.map_map, List.filterMap_map]
  refine (List.filterMap_congr fun x hx => ?_).trans (congrFun List.filterMap_eq_map _)
  have hsong := (mem_chartedPlays.1 (mem_byFrequency.1 (List.mem_of_mem_take hx)).1).1
  exact congrArg (Option.map fun song => ChartedSong.ofSong song (.ofInt x.2)) (getElem?_byId hsong)

/-! ## The whole run -/

variable {feed : Feed.Contents Play} {state : MusicState}

/-- A run that completes has counted its plays, and prints the charts with a play. -/
theorem musicLines_eq (h : musicRun s (Demo.catalog s.songs) feed = .ok state) :
    ∃ (plays : List Play) (keys : List String),
      playsUntil s feed.records s.run.epochs.toNat = .ok plays ∧
      (∀ key, ∀ song ∈ chartedPlays s plays key,
        IsWord ((chartedPlays s plays key).count song)) ∧
      keys.Pairwise (fun a b => compare a b = .lt) ∧
      (∀ key, key ∈ keys ↔ chartedPlays s plays key ≠ []) ∧
      musicLines s feed = .ok ((keys.map (shownSongs s plays)).map SongChart.line ++
        [state.metrics.line "music_charts" none]) := by
  obtain ⟨state', hepochs, hstate⟩ := bind_eq_ok.1 h
  obtain ⟨_, _, hstate⟩ := bind_eq_ok.1 hstate
  cases pure_eq_ok.1 hstate
  obtain ⟨plays, hplays, hholds⟩ := (meets_musicEpochs s feed.records _).result _ hepochs
  have hword (key : String) (song : Song) (hsong : song ∈ chartedPlays s plays key) :
      IsWord ((chartedPlays s plays key).count song) :=
    isWord_count_chartedPlays hplays hholds hsong
  obtain ⟨r, hr, hanswers⟩ := hholds.exists_router
  simp only [listed_songsUntil hplays, listed_nonempty, best_listed _ (hword _)] at hanswers
  have hcharts : state.charting.router >>= songCharts (Demo.catalog s.songs) =
      .ok (r.keys.map (shownSongs s plays)) :=
    bind_eq_ok.2 ⟨r, hr, songCharts_eq hanswers⟩
  refine ⟨plays, r.keys, hplays, hword, r.pairwise_keys, fun key => ?_, ?_⟩
  · exact Router.mem_keys_of_ownerOf_eq (hanswers key).2
  · rw [musicLines]
    simp only [h, hcharts]

/-- A chart lists the five songs that are played most often, with the exact numbers of plays, and
the shard of its key. Equal numbers are ordered by the numbers of the songs. -/
structure SongChart.Shows (s : MusicSettings) (plays : List Play) (c : SongChart) : Prop where
  shard : c.shard = some (shardOf c.key s.run.workers)
  songs : (c.songs.map fun x => (x.artist, x.album, x.name, x.plays.toInt)) =
    (mostFrequent 5 Song.id (chartedPlays s plays c.key)).map
      fun x => (x.1.artist, x.1.album, x.1.name, (x.2 : Int))

/-- What a run of the music charts prints: in the order of the keys, a chart for each key with a
play of a song of the catalog that is long enough to count, and then the metrics. -/
structure MusicRun (s : MusicSettings) (feed : Feed.Contents Play) (plays : List Play)
    (charts : List SongChart) (m : Metrics) : Prop where
  received : playsUntil s feed.records s.run.epochs.toNat = .ok plays
  printed : musicLines s feed =
    .ok (charts.map SongChart.line ++ [m.line "music_charts" none])
  ordered : (charts.map SongChart.key).Pairwise fun a b => compare a b = .lt
  charted : ∀ key, key ∈ charts.map SongChart.key ↔
    ∃ p ∈ plays, p.isChartable s.minDurationMs ∧
      ∃ song ∈ Demo.catalog s.songs, song.id = p.songId ∧
        (key = song.genreKey ∨ key = allSongsKey)
  shows : ∀ c ∈ charts, c.Shows s plays

theorem musicRun_shownSongs {keys : List String} {m : Metrics}
    (hplays : playsUntil s feed.records s.run.epochs.toNat = .ok plays)
    (hword : ∀ key, ∀ song ∈ chartedPlays s plays key,
      IsWord ((chartedPlays s plays key).count song))
    (hsorted : keys.Pairwise fun a b => compare a b = .lt)
    (hmem : ∀ key, key ∈ keys ↔ chartedPlays s plays key ≠ [])
    (hlines : musicLines s feed = .ok ((keys.map (shownSongs s plays)).map SongChart.line ++
      [m.line "music_charts" none])) :
    MusicRun s feed plays (keys.map (shownSongs s plays)) m := by
  have hkeys : (keys.map (shownSongs s plays)).map SongChart.key = keys := by
    rw [List.map_map]
    exact List.map_id _
  refine ⟨hplays, hlines, hkeys.symm ▸ hsorted, fun key => ?_, fun c hc => ?_⟩
  · rw [hkeys, hmem, chartedPlays_ne_nil]
  · obtain ⟨key, -, rfl⟩ := List.mem_map.1 hc
    refine ⟨rfl, ?_⟩
    show ((mostFrequent chartSize Song.id (chartedPlays s plays key)).map _).map _ = _
    rw [List.map_map]
    refine List.map_congr_left fun x hx => ?_
    obtain ⟨hsong, hcount⟩ := mem_byFrequency.1 (List.mem_of_mem_take hx)
    have hx : (Int64.ofInt x.2).toInt = x.2 := by
      rw [hcount]
      exact (hword key x.1 hsong).toInt_ofInt
    exact congrArg (fun n : Int => (x.1.artist, x.1.album, x.1.name, n)) hx

/-- **The music charts of a whole run.** A run that completes prints one chart for each key with a
play that counts, with the five songs that are played most often. A run with another number of
workers, if it completes, prints the same charts, but for the shards. -/
theorem musicLines_whole_run (s : MusicSettings) (feed : Feed.Contents Play)
    (h : musicRun s (Demo.catalog s.songs) feed = .ok state) :
    ∃ plays charts, MusicRun s feed plays charts state.metrics ∧
      ∀ workers state',
        musicRun (withWorkers s workers) (Demo.catalog s.songs) feed = .ok state' →
          MusicRun (withWorkers s workers) feed plays
            (charts.map fun c => { c with shard := some (shardOf c.key workers) })
            state'.metrics := by
  obtain ⟨plays, keys, hplays, hword, hsorted, hmem, hlines⟩ := musicLines_eq h
  refine ⟨plays, keys.map (shownSongs s plays),
    musicRun_shownSongs hplays hword hsorted hmem hlines, fun workers state' h' => ?_⟩
  obtain ⟨plays', keys', hplays', hword', hsorted', hmem', hlines'⟩ :=
    musicLines_eq (s := withWorkers s workers) h'
  have hsame : playsUntil (withWorkers s workers) feed.records s.run.epochs.toNat = .ok plays' :=
    hplays'
  rw [playsUntil_withWorkers, hplays] at hsame
  cases hsame
  have hkeys : keys = keys' :=
    eq_of_pairwise_compare_lt hsorted hsorted' fun key => (hmem key).trans (hmem' key).symm
  subst hkeys
  have hcharts : (keys.map (shownSongs s plays)).map
      (fun c => { c with shard := some (shardOf c.key workers) }) =
        keys.map (shownSongs (withWorkers s workers) plays) := by
    rw [List.map_map]
    rfl
  exact hcharts ▸ musicRun_shownSongs hplays' hword' hsorted' hmem' hlines'

/-- One song, and two generated plays in each of two epochs. -/
def twoEpochs : MusicSettings :=
  { run := ⟨2, 2⟩, minDurationMs := 20000, songs := 1, playsPerEpoch := 2 }

/-- A play that counts, one that is too short, and one of an unknown song. -/
def threePlays : Feed.Contents Play :=
  ⟨[⟨1, 30000, "uk"⟩, ⟨1, 19999, "de"⟩, ⟨9, 50000, "us"⟩], 1⟩

/-- The line of a chart in which the song has four plays. -/
def fourPlays (key : String) : String :=
  "\x7b\"chart\":\"" ++ key ++ "\",\"shard\":1,\"songs\":[" ++
    "\x7b\"artist\":\"Artist 1\",\"album\":\"Album 1\",\"name\":\"Song 1\"," ++
    "\"plays\":4\x7d]\x7d"

/-- Three plays count in the first epoch and one in the second, which takes back the first counts;
the other generated play of the second epoch is of an unknown song. -/
theorem musicLines_whole_run_two_epochs :
    ∃ state, musicRun twoEpochs (Demo.catalog twoEpochs.songs) threePlays = .ok state ∧
      (musicLines twoEpochs threePlays).toOption.map (·.take 2) =
        some [fourPlays "all", fourPlays "jazz"] ∧
      ∃ plays charts, MusicRun twoEpochs threePlays plays charts state.metrics ∧
        ∀ workers state', musicRun (withWorkers twoEpochs workers)
            (Demo.catalog twoEpochs.songs) threePlays = .ok state' →
          MusicRun (withWorkers twoEpochs workers) threePlays plays
            (charts.map fun c => { c with shard := some (shardOf c.key workers) })
            state'.metrics := by
  have hprinted : (musicLines twoEpochs threePlays).toOption.map (·.take 2) =
      some [fourPlays "all", fourPlays "jazz"] := by cbv
  cases h : musicRun twoEpochs (Demo.catalog twoEpochs.songs) threePlays with
  | error fault =>
    rw [musicLines, h] at hprinted
    cases hprinted
  | ok state => exact ⟨state, rfl, hprinted, musicLines_whole_run twoEpochs threePlays h⟩

end TopCharts.Run
