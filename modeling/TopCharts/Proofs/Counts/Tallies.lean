import TopCharts.PlayCounts
import TopCharts.Proofs.Collection.Table

/-!
# What the play counts hold

* `multiplicity_songPlays` : the plays that are joined with songs: those of each number, times the
  songs of that number;
* `multiplicity_tallies` : the plays of a song under a chart key: the plays of its number, times the
  songs of that number with their occurrences of the key;
* `multiplicity_playCounts` : the counts hold each tally once, with its multiplicity as the score;
* `timesPlayed plays minDurationMs id` : how many of the plays are of a song and count;
* `playCounts_once_iff` : in a catalog with distinct numbers, each played song has one entry under
  each of its chart keys. Its score is the number of its plays for each occurrence of the key, so it
  is that number everywhere unless a genre goes by the key of the chart of all songs.
-/

namespace TopCharts

open Std (TransOrd LawfulEqOrd)

/-! ## Tallies -/

/-- The charts that a song number counts towards, as often as the songs name them. -/
def Collection.keyed (songs : Collection Song) (t : Tally String) : Int :=
  songs.sum fun s => if s.id = t.identity then s.chartKeys.count t.group else 0

theorem sum_songPlays (plays : Collection Int64) (songs : Collection Song)
    (f : Tally (List String) → Int) :
    (songPlays plays songs).sum f = plays.sum fun id => songs.sum fun s =>
      if s.id = id then f ⟨s.chartKeys, id⟩ else 0 := by
  rw [songPlays, Collection.sum_map, Collection.sum_join, Collection.sum_map]
  simp only [Collection.sum_map]

/-- The join with the songs keeps a play once for each song of its number. -/
theorem multiplicity_songPlays (plays : Collection Int64) (songs : Collection Song) (id : Int64) :
    ((songPlays plays songs).map Tally.identity).multiplicity id =
      plays.multiplicity id * (songs.map Song.id).multiplicity id := by
  rw [Collection.multiplicity_eq_sum, Collection.sum_map, sum_songPlays,
    Collection.multiplicity_eq_sum, Collection.multiplicity_eq_sum, Collection.sum_map,
    ← Collection.sum_mul]
  refine Collection.sum_congr fun row _ => ?_
  by_cases h : row.1 = id
  · simp [h]
  · simp [h, Collection.sum_zero]

theorem sum_tallies (plays : Collection Int64) (songs : Collection Song)
    (f : Tally String → Int) :
    (tallies (songPlays plays songs)).sum f = plays.sum fun id => songs.sum fun s =>
      if s.id = id then (s.chartKeys.map fun key => f ⟨key, id⟩).sum else 0 := by
  rw [tallies, Collection.sum_flatMap, sum_songPlays]
  simp only [List.map_map, Function.comp_def]

theorem sum_map_tally_eq (keys : List String) (id : Int64) (t : Tally String) :
    (keys.map fun key => if (⟨key, id⟩ : Tally String) = t then (1 : Int) else 0).sum =
      if id = t.identity then (keys.count t.group : Int) else 0 := by
  induction keys with
  | nil => exact (ite_self 0).symm
  | cons key keys ih =>
    rw [List.map_cons, List.sum_cons, ih, List.count_cons]
    by_cases hid : id = t.identity
    · by_cases hkey : key = t.group
      · simp [hid, hkey, add_comm]
      · have ht : (⟨key, id⟩ : Tally String) ≠ t := fun h => hkey (congrArg Tally.group h)
        rw [if_neg ht, zero_add]
        simp [hkey]
    · have ht : (⟨key, id⟩ : Tally String) ≠ t := fun h => hid (congrArg Tally.identity h)
      simp [ht, hid]

theorem multiplicity_tallies (plays : Collection Int64) (songs : Collection Song)
    (t : Tally String) :
    (tallies (songPlays plays songs)).multiplicity t =
      plays.multiplicity t.identity * songs.keyed t := by
  rw [Collection.multiplicity_eq_sum, sum_tallies, Collection.multiplicity_eq_sum,
    ← Collection.sum_mul]
  refine Collection.sum_congr fun row _ => ?_
  simp only [sum_map_tally_eq]
  by_cases h : row.1 = t.identity
  · rw [if_pos h, one_mul, h]
    refine Collection.sum_congr fun _ _ => ?_
    rw [if_pos rfl]
  · rw [if_neg h, zero_mul]
    refine (Collection.sum_congr fun _ _ => ?_).trans (Collection.sum_zero songs)
    rw [if_neg h, ite_self]

/-! ## Play counts -/

def Tally.scored (t : Tally String) (n : Int) : Keyed String :=
  ⟨t.group, ⟨t.identity, .ofInt n⟩⟩

/-- **The play counts** hold each tally once, with its multiplicity as the score. -/
theorem multiplicity_playCounts (plays : Collection Int64) (songs : Collection Song) (key : String)
    (e : Entry) :
    let n := plays.multiplicity e.identity * songs.keyed ⟨key, e.identity⟩
    (playCounts plays songs).multiplicity ⟨key, e⟩ =
      if n ≠ 0 ∧ e.score = .ofInt n then 1 else 0 := by
  intro n
  have hcounts : playCounts plays songs = .ofList
      ((tallies (songPlays plays songs)).table.toList.map fun row => row.1.scored row.2) := by
    rw [playCounts, Collection.count, Collection.ofList, Collection.map, List.map_map,
      Collection.ofList, List.map_map]
    rfl
  have hnodup : ((tallies (songPlays plays songs)).table.toList.map fun row =>
      row.1.scored row.2).Nodup := by
    refine List.Nodup.map_on ?_ (Collection.nodup_consolidate _).of_map
    intro x hx y hy hxy
    have ht : x.1 = y.1 :=
      Tally.ext (congrArg Keyed.key hxy) (congrArg (fun row => row.entry.identity) hxy)
    refine Prod.ext ht ?_
    rw [← (Collection.mem_table.1 hx).1, ht, (Collection.mem_table.1 hy).1]
  rw [hcounts, Collection.multiplicity_ofList_of_nodup hnodup]
  refine if_congr ?_ rfl rfl
  rw [List.mem_map]
  constructor
  · rintro ⟨⟨t, m⟩, hrow, heq⟩
    obtain ⟨hm, hne⟩ := Collection.mem_table.1 hrow
    obtain ⟨rfl, rfl⟩ : t.group = key ∧ ⟨t.identity, .ofInt m⟩ = e := Keyed.mk.inj heq
    rw [multiplicity_tallies] at hm
    exact ⟨fun h => hne (hm ▸ h), congrArg Int64.ofInt hm.symm⟩
  · rintro ⟨hne, hscore⟩
    refine ⟨(⟨key, e.identity⟩, n), Collection.mem_table.2 ⟨?_, hne⟩, ?_⟩
    · rw [multiplicity_tallies]
    · exact Keyed.ext rfl (Entry.ext rfl hscore.symm)

/-! ## Lists of plays and songs -/

/-- How many of the plays are of a song and long enough to count. -/
def timesPlayed (plays : List Play) (minDurationMs : UInt64) (id : Int64) : Nat :=
  plays.countP fun p => p.isChartable minDurationMs && p.songId = id

theorem multiplicity_chartablePlays (plays : List Play) (minDurationMs : UInt64) (id : Int64) :
    (chartablePlays (.ofList plays) minDurationMs).multiplicity id =
      timesPlayed plays minDurationMs id := by
  rw [Collection.multiplicity_eq_sum, chartablePlays, Collection.sum_map, Collection.sum_filter,
    Collection.sum_ofList, timesPlayed]
  induction plays with
  | nil => rfl
  | cons p plays ih =>
    rw [List.map_cons, List.sum_cons, ih, List.countP_cons, Nat.cast_add, add_comm]
    by_cases hp : p.isChartable minDurationMs <;> by_cases hid : p.songId = id <;> simp [hp, hid]

theorem songPlays_keeps_iff {plays : List Play} {songs : List Song}
    (hids : (songs.map Song.id).Nodup) :
    (∀ minDurationMs id, ((songPlays (chartablePlays (.ofList plays) minDurationMs)
        (.ofList songs)).map Tally.identity).multiplicity id =
      (chartablePlays (.ofList plays) minDurationMs).multiplicity id) ↔
      ∀ p ∈ plays, ∃ s ∈ songs, s.id = p.songId := by
  have hsongs : (Collection.ofList songs).map Song.id = .ofList (songs.map Song.id) := by
    simp [Collection.ofList, Collection.map]
  simp only [multiplicity_songPlays, hsongs, Collection.multiplicity_ofList_of_nodup hids,
    multiplicity_chartablePlays, List.mem_map]
  constructor
  · intro h p hp
    by_contra hnot
    have hplayed : 0 < timesPlayed plays 0 p.songId := by
      refine List.countP_pos_iff.2 ⟨p, hp, ?_⟩
      simp [Play.isChartable]
    have hkept := h 0 p.songId
    rw [if_neg hnot] at hkept
    omega
  · intro h minDurationMs id
    split
    · exact mul_one _
    · rename_i hid
      have hunplayed : timesPlayed plays minDurationMs id = 0 := by
        refine List.countP_eq_zero.2 fun p hp hplay => hid ?_
        obtain ⟨s, hs, hsid⟩ := h p hp
        simp only [Bool.and_eq_true, decide_eq_true_eq] at hplay
        exact ⟨s, hs, hsid.trans hplay.2⟩
      rw [hunplayed]
      rfl

theorem keyed_ofList_eq_zero {songs : List Song} {id : Int64} (h : ∀ s ∈ songs, s.id ≠ id)
    (key : String) : (Collection.ofList songs).keyed ⟨key, id⟩ = 0 := by
  refine (Collection.sum_congr fun row hrow => ?_).trans (Collection.sum_zero (.ofList songs))
  obtain ⟨s, hs, rfl⟩ := List.mem_map.1 hrow
  exact if_neg (h s hs)

/-- In a catalog with distinct numbers a song counts as often as it names a chart. -/
theorem keyed_ofList {songs : List Song} (hids : (songs.map Song.id).Nodup) {s : Song}
    (hs : s ∈ songs) (key : String) :
    (Collection.ofList songs).keyed ⟨key, s.id⟩ = s.chartKeys.count key := by
  induction songs with
  | nil => cases hs
  | cons a songs ih =>
    rw [List.map_cons, List.nodup_cons] at hids
    have hcons : (Collection.ofList (a :: songs)).keyed ⟨key, s.id⟩ =
        1 * (if a.id = s.id then (a.chartKeys.count key : Int) else 0) +
          (Collection.ofList songs).keyed ⟨key, s.id⟩ := rfl
    rw [hcons, one_mul]
    rcases List.mem_cons.1 hs with rfl | hs
    · have hrest : ∀ b ∈ songs, b.id ≠ s.id :=
        fun b hb hid => hids.1 (hid ▸ List.mem_map_of_mem hb)
      rw [if_pos rfl, keyed_ofList_eq_zero hrest, add_zero]
    · have hne : a.id ≠ s.id := fun hid => hids.1 (hid ▸ List.mem_map_of_mem hs)
      rw [if_neg hne, ih hids.2 hs, zero_add]

/-! ## One entry for each song and chart -/

section

variable {songs : List Song} (plays : List Play) (minDurationMs : UInt64)

theorem multiplicity_playCounts_ofList (hids : (songs.map Song.id).Nodup) (key : String)
    (e : Entry) :
    (playCounts (chartablePlays (.ofList plays) minDurationMs) (.ofList songs)).multiplicity
        ⟨key, e⟩ =
      if ∃ s ∈ songs, 0 < timesPlayed plays minDurationMs s.id ∧ key ∈ s.chartKeys ∧
          e = ⟨s.id, .ofNat (timesPlayed plays minDurationMs s.id * s.chartKeys.count key)⟩ then 1
      else 0 := by
  rw [multiplicity_playCounts]
  refine if_congr ?_ rfl rfl
  rw [multiplicity_chartablePlays]
  constructor
  · rintro ⟨hne, hscore⟩
    obtain ⟨s, hs, hid⟩ : ∃ s ∈ songs, s.id = e.identity := by
      by_contra hnone
      rw [keyed_ofList_eq_zero fun s hs hid => hnone ⟨s, hs, hid⟩, mul_zero] at hne
      exact hne rfl
    rw [← hid, keyed_ofList hids hs, ← Int.natCast_mul, Int64.ofInt_eq_ofNat] at hscore
    rw [← hid, keyed_ofList hids hs, ← Int.natCast_mul, ne_eq, Int.natCast_eq_zero,
      Nat.mul_eq_zero, not_or] at hne
    exact ⟨s, hs, Nat.pos_of_ne_zero hne.1, List.count_pos_iff.1 (Nat.pos_of_ne_zero hne.2),
      Entry.ext hid.symm hscore⟩
  · rintro ⟨s, hs, hpos, hkey, rfl⟩
    rw [keyed_ofList hids hs, ← Int.natCast_mul, Int64.ofInt_eq_ofNat]
    refine ⟨?_, rfl⟩
    rw [ne_eq, Int.natCast_eq_zero]
    exact (Nat.mul_pos hpos (List.count_pos_iff.2 hkey)).ne'

theorem count_chartKeys {s : Song} (h : s.genreKey ≠ allSongsKey) {key : String}
    (hkey : key ∈ s.chartKeys) : s.chartKeys.count key = 1 :=
  List.count_eq_one_of_mem (List.nodup_cons.2 ⟨by simpa using h, List.nodup_singleton _⟩) hkey

theorem count_chartKeys_all {s : Song} (h : s.genreKey = allSongsKey) :
    s.chartKeys.count allSongsKey = 2 := by
  rw [Song.chartKeys, h]
  rfl

/-- **When a song is counted once in each of its charts.** Each played song has one entry under each
of its chart keys, whose score is the number of its plays times the occurrences of the key. That is
the number of plays everywhere exactly if no played song has a genre with the key of the chart of
all songs. -/
theorem playCounts_once_iff (hids : (songs.map Song.id).Nodup)
    (hwords : IsWord (2 * plays.length)) :
    let times (s : Song) : Nat := timesPlayed plays minDurationMs s.id
    let counts : Collection (Keyed String) :=
      playCounts (chartablePlays (.ofList plays) minDurationMs) (.ofList songs)
    (∀ key e, counts.multiplicity ⟨key, e⟩ =
        if ∃ s ∈ songs, 0 < times s ∧ key ∈ s.chartKeys ∧
          e = ⟨s.id, .ofNat (times s * s.chartKeys.count key)⟩ then 1 else 0) ∧
      ((∀ key e, counts.multiplicity ⟨key, e⟩ =
          if ∃ s ∈ songs, 0 < times s ∧ key ∈ s.chartKeys ∧ e = ⟨s.id, .ofNat (times s)⟩ then 1
          else 0) ↔
        ∀ s ∈ songs, 0 < times s → s.genreKey ≠ allSongsKey) := by
  intro times counts
  have hcounts (key : String) (e : Entry) :
      counts.multiplicity ⟨key, e⟩ =
        if ∃ s ∈ songs, 0 < times s ∧ key ∈ s.chartKeys ∧
          e = ⟨s.id, .ofNat (times s * s.chartKeys.count key)⟩ then 1 else 0 :=
    multiplicity_playCounts_ofList plays minDurationMs hids key e
  refine ⟨hcounts, ?_, ?_⟩
  · intro honce s hs hpos hgenre
    have hmult : counts.multiplicity ⟨allSongsKey, ⟨s.id, .ofNat (times s * 2)⟩⟩ = 1 := by
      rw [hcounts]
      refine if_pos ⟨s, hs, hpos, ?_, ?_⟩
      · exact List.mem_cons_of_mem _ List.mem_cons_self
      · rw [count_chartKeys_all hgenre]
    rw [honce] at hmult
    split at hmult
    · rename_i hex
      obtain ⟨s', -, -, -, heq⟩ := hex
      obtain ⟨hid, hscore⟩ := Entry.mk.inj heq
      have htimes : times s' = times s := congrArg (timesPlayed plays minDurationMs) hid.symm
      have hle : times s ≤ plays.length := List.countP_le_length
      rw [IsWord, Int64.toInt_maxValue] at hwords
      have hword (n : Nat) (hn : n ≤ 2 * plays.length) : (Int64.ofNat n).toInt = n := by
        exact Int64.toInt_ofNat_of_lt (by omega)
      have hscore := congrArg Int64.toInt hscore
      rw [htimes, hword _ (by omega), hword _ (by omega)] at hscore
      omega
    · exact absurd hmult (by decide)
  · intro hgenre key e
    rw [hcounts]
    refine if_congr (exists_congr fun s => and_congr_right fun hs => and_congr_right fun hpos =>
      and_congr_right fun hkey => ?_) rfl rfl
    rw [count_chartKeys (hgenre s hs hpos) hkey, Nat.mul_one]

end

/-- A song whose genre is all songs has one play, and two plays in the chart of all songs. -/
theorem playCounts_genre_all :
    let song : Song := ⟨1, "Album", "Artist", "Name", "All"⟩
    let plays : List Play := [⟨1, 40000, "uk"⟩]
    let counts : Collection (Keyed String) :=
      playCounts (chartablePlays (.ofList plays) 30000) (.ofList [song])
    timesPlayed plays 30000 song.id = 1 ∧ counts.multiplicity ⟨allSongsKey, ⟨1, 1⟩⟩ = 0 ∧
      counts.multiplicity ⟨allSongsKey, ⟨1, 2⟩⟩ = 1 := by
  decide +kernel

/-- Of two played songs, one has a genre with the key of the chart of all songs. -/
theorem playCounts_once_iff_two_genres :
    let songs : List Song := [⟨1, "A", "B", "C", "Punk"⟩, ⟨2, "A", "B", "D", "aLL"⟩,
      ⟨3, "A", "B", "E", "ALL"⟩]
    let plays : List Play := [⟨1, 40000, "uk"⟩, ⟨2, 30000, ""⟩, ⟨2, 29999, "de"⟩, ⟨9, 30000, "us"⟩]
    let times (s : Song) : Nat := timesPlayed plays 30000 s.id
    let counts : Collection (Keyed String) :=
      playCounts (chartablePlays (.ofList plays) 30000) (.ofList songs)
    (songs.map Song.id).Nodup ∧ IsWord (2 * plays.length) ∧
      (∀ key e, counts.multiplicity ⟨key, e⟩ =
        if ∃ s ∈ songs, 0 < times s ∧ key ∈ s.chartKeys ∧
          e = ⟨s.id, .ofNat (times s * s.chartKeys.count key)⟩ then 1 else 0) ∧
      ((∀ key e, counts.multiplicity ⟨key, e⟩ =
          if ∃ s ∈ songs, 0 < times s ∧ key ∈ s.chartKeys ∧ e = ⟨s.id, .ofNat (times s)⟩ then 1
          else 0) ↔
        ∀ s ∈ songs, 0 < times s → s.genreKey ≠ allSongsKey) ∧
      counts.multiplicity ⟨"punk", ⟨1, 1⟩⟩ = 1 ∧ counts.multiplicity ⟨"all", ⟨2, 2⟩⟩ = 1 := by
  intro songs plays times counts
  have hids : (songs.map Song.id).Nodup := by decide
  have h := playCounts_once_iff plays 30000 hids (by decide)
  exact ⟨hids, by decide, h.1, h.2, by decide +kernel, by decide +kernel⟩

end TopCharts
