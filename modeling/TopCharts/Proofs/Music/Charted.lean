import Mathlib.Algebra.Group.Nat.Defs
import TopCharts.Proofs.Charting.Epoch
import TopCharts.Proofs.Demo.Plays
import TopCharts.Proofs.Rank.Frequent
import TopCharts.Run.Music

/-!
# What the music charts count

* `chartedPlays s plays key` : the songs of a chart, once for each play that counts;
* `count_chartedPlays` : a song is there as often as it is played;
* `best_listed` : so the best entries of the counts are the songs that are played most often;
* `card_listed`, `card_listed_sdiff_le` : they are as many as the songs that are played, and more
  plays count at most as many new ones.
-/

namespace TopCharts

namespace Run

variable {s : MusicSettings} {plays : List Play} {key : String} {song : Song}

/-! ## The songs of a chart -/

/-- The songs of a chart, once for each of their plays that are long enough to count. -/
def chartedPlays (s : MusicSettings) (plays : List Play) (key : String) : List Song :=
  (plays.filter (·.isChartable s.minDurationMs)).flatMap fun p =>
    (Demo.catalog s.songs).filter fun song => song.id = p.songId ∧ key ∈ song.chartKeys

theorem mem_chartedPlays :
    song ∈ chartedPlays s plays key ↔ song ∈ Demo.catalog s.songs ∧ key ∈ song.chartKeys ∧
      ∃ p ∈ plays, p.isChartable s.minDurationMs ∧ p.songId = song.id := by
  simp only [chartedPlays, List.mem_flatMap, List.mem_filter, decide_eq_true_eq]
  constructor
  · rintro ⟨p, ⟨hp, hlong⟩, hsong, hid, hkey⟩
    exact ⟨hsong, hkey, p, hp, hlong, hid.symm⟩
  · rintro ⟨hsong, hkey, p, hp, hlong, hid⟩
    exact ⟨p, ⟨hp, hlong⟩, hsong, hid.symm, hkey⟩

theorem chartedPlays_ne_nil :
    chartedPlays s plays key ≠ [] ↔ ∃ p ∈ plays, p.isChartable s.minDurationMs ∧
      ∃ song ∈ Demo.catalog s.songs, song.id = p.songId ∧
        (key = song.genreKey ∨ key = allSongsKey) := by
  constructor
  · intro hne
    obtain ⟨song, hsong⟩ := List.exists_mem_of_ne_nil _ hne
    obtain ⟨hsong, hkey, p, hp, hlong, hid⟩ := mem_chartedPlays.1 hsong
    exact ⟨p, hp, hlong, song, hsong, hid.symm, List.mem_pair.1 hkey⟩
  · rintro ⟨p, hp, hlong, song, hsong, hid, hkey⟩
    exact List.ne_nil_of_mem
      (mem_chartedPlays.2 ⟨hsong, List.mem_pair.2 hkey, p, hp, hlong, hid.symm⟩)

theorem count_chartedPlays (hsong : song ∈ Demo.catalog s.songs) (hkey : key ∈ song.chartKeys) :
    (chartedPlays s plays key).count song = timesPlayed plays s.minDurationMs song.id := by
  have hplay (p : Play) : ((Demo.catalog s.songs).filter fun song =>
      song.id = p.songId ∧ key ∈ song.chartKeys).count song =
        if p.songId = song.id then 1 else 0 := by
    split
    · rename_i hid
      refine (List.count_filter ?_).trans ?_
      · exact decide_eq_true ⟨hid.symm, hkey⟩
      · exact List.count_eq_one_of_mem (Demo.nodup_catalog s.songs).of_map hsong
    · rename_i hid
      refine List.count_eq_zero.2 fun hmem => hid ?_
      exact (of_decide_eq_true (List.mem_filter.1 hmem).2).1.symm
  rw [timesPlayed, chartedPlays]
  induction plays with
  | nil => rfl
  | cons p plays ih =>
    rw [List.filter_cons, List.countP_cons, ← ih]
    by_cases hlong : p.isChartable s.minDurationMs
    · rw [if_pos hlong, List.flatMap_cons, List.count_append, hplay, Nat.add_comm, hlong]
      simp only [Bool.true_and, decide_eq_true_eq]
    · rw [if_neg hlong, Bool.eq_false_of_not_eq_true hlong]
      rfl

theorem mem_listed_iff {e : Entry} :
    e ∈ (Charting.countsOf plays (Demo.catalog s.songs) s.minDurationMs).listed key ↔
      ∃ song ∈ chartedPlays s plays key,
        (⟨song.id, .ofInt ((chartedPlays s plays key).count song)⟩ : Entry) = e := by
  rw [Collection.mem_listed, Charting.countsOf,
    multiplicity_playCounts_ofList plays s.minDurationMs (Demo.nodup_catalog s.songs),
    ite_ne_right_iff, and_iff_left one_ne_zero]
  refine exists_congr fun song => ?_
  rw [mem_chartedPlays, and_assoc]
  refine and_congr_right fun hsong => ?_
  have hplayed : 0 < timesPlayed plays s.minDurationMs song.id ↔
      ∃ p ∈ plays, p.isChartable s.minDurationMs ∧ p.songId = song.id := by
    simp only [timesPlayed, List.countP_pos_iff, Bool.and_eq_true, decide_eq_true_eq]
  rw [hplayed, and_left_comm, and_assoc]
  refine and_congr_right fun hkey => and_congr_right fun _ => ?_
  rw [count_chartedPlays hsong hkey, count_chartKeys (Demo.genreKey_ne hsong) hkey, Nat.mul_one,
    Int64.ofInt_eq_ofNat, eq_comm]

/-- **The best entries of the counts** are the songs that are played most often, if their numbers of
plays are words. -/
theorem best_listed (k : Nat)
    (hword : ∀ song ∈ chartedPlays s plays key, IsWord ((chartedPlays s plays key).count song)) :
    best k ((Charting.countsOf plays (Demo.catalog s.songs) s.minDurationMs).listed key) =
      (mostFrequent k Song.id (chartedPlays s plays key)).map fun x => ⟨x.1.id, .ofInt x.2⟩ := by
  refine best_eq_mostFrequent k (fun a ha b hb hid => ?_) hword fun e => mem_listed_iff
  exact List.inj_on_of_nodup_map (Demo.nodup_catalog s.songs) (mem_chartedPlays.1 ha).1
    (mem_chartedPlays.1 hb).1 hid

theorem card_listed : ((Charting.countsOf plays (Demo.catalog s.songs) s.minDurationMs).listed
    key).card = (chartedPlays s plays key).toFinset.card := by
  have hinj : ∀ a ∈ chartedPlays s plays key, ∀ b ∈ chartedPlays s plays key,
      a.id = b.id → a = b := fun a ha b hb =>
    List.inj_on_of_nodup_map (Demo.nodup_catalog s.songs) (mem_chartedPlays.1 ha).1
      (mem_chartedPlays.1 hb).1
  exact card_eq_of_mem_iff hinj fun e => mem_listed_iff

theorem chartedPlays_append (s : MusicSettings) (plays more : List Play) (key : String) :
    chartedPlays s (plays ++ more) key = chartedPlays s plays key ++ chartedPlays s more key := by
  rw [chartedPlays, List.filter_append, List.flatMap_append]
  rfl

/-- Only the entries of songs that are played again are new. -/
theorem card_listed_sdiff_le (s : MusicSettings) (plays more : List Play) (key : String) :
    ((Charting.countsOf (plays ++ more) (Demo.catalog s.songs) s.minDurationMs).listed key \
      (Charting.countsOf plays (Demo.catalog s.songs) s.minDurationMs).listed key).card ≤
        (chartedPlays s more key).length := by
  have hsub :
      (Charting.countsOf (plays ++ more) (Demo.catalog s.songs) s.minDurationMs).listed key \
        (Charting.countsOf plays (Demo.catalog s.songs) s.minDurationMs).listed key ⊆
          (chartedPlays s more key).toFinset.image fun song =>
            ⟨song.id, .ofInt ((chartedPlays s (plays ++ more) key).count song)⟩ := by
    intro e he
    obtain ⟨hnew, hold⟩ := Finset.mem_sdiff.1 he
    obtain ⟨song, hsong, rfl⟩ := mem_listed_iff.1 hnew
    refine Finset.mem_image.2 ⟨song, List.mem_toFinset.2 ?_, rfl⟩
    by_contra hmore
    rw [chartedPlays_append, List.mem_append] at hsong
    refine hold (mem_listed_iff.2 ⟨song, hsong.resolve_right hmore, ?_⟩)
    rw [chartedPlays_append, List.count_append, List.count_eq_zero.2 hmore, Nat.add_zero]
  exact (Finset.card_le_card hsub).trans (Finset.card_image_le.trans (List.toFinset_card_le _))

theorem listed_nonempty :
    ((Charting.countsOf plays (Demo.catalog s.songs) s.minDurationMs).listed key).Nonempty ↔
      chartedPlays s plays key ≠ [] := by
  constructor
  · rintro ⟨e, he⟩
    obtain ⟨song, hsong, -⟩ := mem_listed_iff.1 he
    exact List.ne_nil_of_mem hsong
  · intro hne
    obtain ⟨song, hsong⟩ := List.exists_mem_of_ne_nil _ hne
    exact ⟨_, mem_listed_iff.2 ⟨song, hsong, rfl⟩⟩

end Run

end TopCharts
