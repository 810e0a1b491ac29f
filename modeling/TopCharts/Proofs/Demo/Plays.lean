import Mathlib.Algebra.Group.Nat.Defs
import TopCharts.Demo.Music
import TopCharts.Proofs.Arithmetic
import TopCharts.Proofs.Counts.Tallies
import TopCharts.Proofs.Demo.Generator

/-!
# Generated songs and plays

* `nodup_catalog`, `genreKey_ne` : generated songs have numbers of their own, and no genre goes by the
  key of the chart of all songs; `exists_mem_catalog_iff` : the numbers are those from one on;
* `place epoch songs i` : the place in the catalog that play number `i` of an epoch asks for. Every
  fifth play asks for one of the first five, whether the catalog has it or not;
* `exists_play`, `exists_play_iff` : when there is such a play; `found_iff` : when it is of a song of
  the catalog;
* `exists_plays_iff`, `plays_eq_ok` : the same of the plays of an epoch;
* `plays_found_iff` : which of them are found in the catalog, and so kept when they are joined with
  it.
-/

namespace TopCharts.Demo

open Attempt

/-! ## Songs -/

theorem catalog_length_lt (songs : UInt64) : songs.toInt64.toInt.toNat < 2 ^ 63 := by
  have hlt := songs.toInt64.toInt_lt
  omega

theorem nodup_catalog (songs : UInt64) : ((catalog songs).map Song.id).Nodup := by
  rw [catalog, List.map_map]
  refine List.Nodup.map_on ?_ List.nodup_range
  intro i hi j hj h
  have hlt := catalog_length_lt songs
  rw [List.mem_range] at hi hj
  have hword (i : Nat) (hi : i < songs.toInt64.toInt.toNat) :
      (Int64.ofNat (i + 1)).toInt = (i + 1 : Nat) :=
    Int64.toInt_ofNat_of_lt (by omega)
  have hint := congrArg Int64.toInt h
  have hint : (Int64.ofNat (i + 1)).toInt = (Int64.ofNat (j + 1)).toInt := hint
  rw [hword i hi, hword j hj] at hint
  omega

theorem genreKey_ne {songs : UInt64} {song : Song} (h : song ∈ catalog songs) :
    song.genreKey ≠ allSongsKey := by
  have hgenres : ∀ genre ∈ genres, String.ofList (Text.lower genre.toList) ≠ allSongsKey := by
    decide +kernel
  obtain ⟨i, -, rfl⟩ := List.mem_map.1 h
  exact hgenres _ (pick_mem (List.cons_ne_nil _ _) _)

theorem exists_mem_catalog_iff {songs : UInt64} (hsongs : songs.toNat < 2 ^ 63) {id : Int64} :
    (∃ song ∈ catalog songs, song.id = id) ↔ 1 ≤ id.toInt ∧ id.toInt ≤ songs.toNat := by
  have hcount : songs.toInt64.toInt.toNat = songs.toNat := by
    rw [toInt_toInt64 hsongs, Int.toNat_natCast]
  rw [catalog, hcount]
  constructor
  · rintro ⟨s, hs, rfl⟩
    obtain ⟨i, hi, rfl⟩ := List.mem_map.1 hs
    rw [List.mem_range] at hi
    have hid : (song (i + 1)).id.toInt = (i + 1 : Nat) := Int64.toInt_ofNat_of_lt (by omega)
    omega
  · rintro ⟨hlow, hhigh⟩
    have hplace : id.toInt.toNat - 1 < songs.toNat := by omega
    refine ⟨_, List.mem_map.2 ⟨_, List.mem_range.2 hplace, rfl⟩, ?_⟩
    rw [Nat.sub_add_cancel (by omega)]
    show Int64.ofNat id.toInt.toNat = id
    rw [← Int64.ofInt_eq_ofNat, Int.toNat_of_nonneg (by omega), Int64.ofInt_toInt]

/-! ## One play -/

/-- The place in the catalog that play number `i` asks for. -/
def place (epoch songs i : Nat) : Nat :=
  if i % 5 = 0 then epoch % 3 * 2 else (epoch * 13 + i * 7) % songs

def findPlace (epoch songs i : UInt64) : Except Fault UInt64 :=
  if i % 5 = 0 then Checked.mul (epoch % 3) 2
  else do Checked.rem (← Checked.add (← Checked.mul epoch 13) (← Checked.mul i 7)) songs

def playAt (i position : UInt64) : Except Fault Play := do
  return {
    songId := ← Checked.addInt position.toInt64 1
    durationMs := ← Checked.add 20000 (← Checked.mul (i % 7) 5000)
    region := pick regions (i % 3) }

variable {epoch songs i : UInt64}

theorem play_eq : play epoch songs i = findPlace epoch songs i >>= playAt i := by
  unfold play findPlace
  split
  · rfl
  · simp only [bind_assoc]
    rfl

theorem exists_playAt {position : UInt64} (h : position.toNat + 1 < 2 ^ 63) :
    ∃ p, playAt i position = .ok p ∧ p.songId.toInt = position.toNat + 1 := by
  have hposition : position.toInt64.toInt = position.toNat := toInt_toInt64 (by omega)
  have hone : (1 : Int64).toInt = 1 := rfl
  have hsteps : (i % 7).toNat * 5000 + 20000 < UInt64.size := by
    have hseven : (7 : UInt64).toNat = 7 := rfl
    rw [UInt64.toNat_mod, hseven]
    unfold UInt64.size
    omega
  have hword : IsWord (position.toInt64.toInt + (1 : Int64).toInt) := by
    rw [hposition, hone, IsWord, Int64.toInt_minValue, Int64.toInt_maxValue]
    omega
  obtain ⟨id, hid, hsum⟩ := hword.exists_addInt_eq_ok
  obtain ⟨steps, hmul, hsteps'⟩ := Checked.exists_mul_eq_ok (a := i % 7) (b := 5000)
    (Nat.lt_of_le_of_lt (Nat.le_add_right _ _) hsteps)
  obtain ⟨duration, hadd, -⟩ := Checked.exists_add_eq_ok (a := 20000) (b := steps)
    (by rw [hsteps', Nat.add_comm]; exact hsteps)
  refine ⟨⟨id, duration, pick regions (i % 3)⟩, ?_, ?_⟩
  · simp only [playAt, hid, hmul, bind, Except.bind, hadd]
    rfl
  · rw [hsum, hposition, hone]

theorem mod_five_eq_zero_iff : i % 5 = 0 ↔ i.toNat % 5 = 0 := by
  rw [← UInt64.toNat_inj, UInt64.toNat_mod]
  rfl

theorem exists_spread (hfit : epoch.toNat * 13 + i.toNat * 7 < UInt64.size) :
    ∃ a b c, Checked.mul epoch 13 = .ok a ∧ Checked.mul i 7 = .ok b ∧ Checked.add a b = .ok c ∧
      c.toNat = epoch.toNat * 13 + i.toNat * 7 := by
  obtain ⟨a, ha, ha'⟩ := Checked.exists_mul_eq_ok (a := epoch) (b := 13)
    (Nat.lt_of_le_of_lt (Nat.le_add_right _ _) hfit)
  obtain ⟨b, hb, hb'⟩ := Checked.exists_mul_eq_ok (a := i) (b := 7)
    (Nat.lt_of_le_of_lt (Nat.le_add_left _ _) hfit)
  obtain ⟨c, hc, hc'⟩ := Checked.exists_add_eq_ok (a := a) (b := b) (by rw [ha', hb']; exact hfit)
  exact ⟨a, b, c, ha, hb, hc, by rw [hc', ha', hb']; rfl⟩

theorem exists_findPlace (hfit : epoch.toNat * 13 + i.toNat * 7 < UInt64.size)
    (h : i.toNat % 5 = 0 ∨ 0 < songs.toNat) : ∃ position, findPlace epoch songs i = .ok position ∧
      position.toNat = place epoch.toNat songs.toNat i.toNat := by
  unfold findPlace place
  simp only [mod_five_eq_zero_iff]
  split
  · obtain ⟨position, hmul, hposition⟩ := Checked.exists_mul_eq_ok (a := epoch % 3) (b := 2) (by
      have hlt : (epoch % 3).toNat < 3 := by
        rw [UInt64.toNat_mod]
        exact Nat.mod_lt _ (by decide)
      have htwo : (2 : UInt64).toNat = 2 := rfl
      rw [htwo]
      unfold UInt64.size
      omega)
    exact ⟨position, hmul, by rw [hposition, UInt64.toNat_mod]; rfl⟩
  · rename_i hi
    obtain ⟨a, b, c, ha, hb, hc, hspread⟩ := exists_spread hfit
    refine ⟨c % songs, ?_, by rw [UInt64.toNat_mod, hspread]⟩
    simp only [ha, hb, bind, Except.bind, hc]
    refine if_neg ?_
    rintro rfl
    exact absurd (h.resolve_left hi) (by decide)

theorem findPlace_zero (hfit : epoch.toNat * 13 + i.toNat * 7 < UInt64.size)
    (h : i.toNat % 5 ≠ 0) : findPlace epoch 0 i = .error .remainderByZero := by
  obtain ⟨a, b, c, ha, hb, hc, -⟩ := exists_spread hfit
  unfold findPlace
  rw [if_neg (mt mod_five_eq_zero_iff.1 h)]
  simp only [ha, hb, bind, Except.bind, hc]
  rfl

theorem place_lt {epoch songs i : Nat} (hsongs : songs < 2 ^ 63) (h : i % 5 = 0 ∨ 0 < songs) :
    place epoch songs i + 1 < 2 ^ 63 := by
  unfold place
  split
  · omega
  · rename_i hi
    have hlt := Nat.mod_lt (epoch * 13 + i * 7) (h.resolve_left hi)
    omega

theorem exists_play (hfit : epoch.toNat * 13 + i.toNat * 7 < UInt64.size)
    (hsongs : songs.toNat < 2 ^ 63) (h : i.toNat % 5 = 0 ∨ 0 < songs.toNat) :
    ∃ p, play epoch songs i = .ok p ∧
      p.songId.toInt = place epoch.toNat songs.toNat i.toNat + 1 := by
  obtain ⟨position, hposition, hplace⟩ := exists_findPlace hfit h
  have hlt : position.toNat + 1 < 2 ^ 63 := by
    rw [hplace]
    exact place_lt hsongs h
  obtain ⟨p, hp, hid⟩ := exists_playAt (i := i) hlt
  rw [play_eq, hposition, ← hplace]
  exact ⟨p, hp, hid⟩

theorem exists_play_iff (hfit : epoch.toNat * 13 + i.toNat * 7 < UInt64.size)
    (hsongs : songs.toNat < 2 ^ 63) :
    (∃ p, play epoch songs i = .ok p) ↔ i.toNat % 5 = 0 ∨ 0 < songs.toNat := by
  constructor
  · rintro ⟨p, hp⟩
    by_contra hnot
    rw [not_or, Nat.not_lt, Nat.le_zero] at hnot
    obtain rfl : songs = 0 := UInt64.toNat_inj.1 hnot.2
    rw [play_eq, findPlace_zero hfit hnot.1] at hp
    cases hp
  · intro h
    obtain ⟨p, hp, -⟩ := exists_play hfit hsongs h
    exact ⟨p, hp⟩

/-- A play that goes round is of a song of the catalog. One of every fifth is if the catalog is
large enough. -/
theorem found_iff (hfit : epoch.toNat * 13 + i.toNat * 7 < UInt64.size)
    (hsongs : songs.toNat < 2 ^ 63) {p : Play} (h : play epoch songs i = .ok p) :
    (∃ song ∈ catalog songs, song.id = p.songId) ↔
      i.toNat % 5 ≠ 0 ∨ epoch.toNat % 3 * 2 < songs.toNat := by
  have hnonzero := (exists_play_iff hfit hsongs).1 ⟨p, h⟩
  obtain ⟨p', hp, hid⟩ := exists_play hfit hsongs hnonzero
  cases h.symm.trans hp
  rw [exists_mem_catalog_iff hsongs, hid]
  unfold place
  split
  · omega
  · rename_i hi
    have hlt := Nat.mod_lt (epoch.toNat * 13 + i.toNat * 7) (hnonzero.resolve_left hi)
    omega

/-! ## The plays of an epoch -/

variable {count : UInt64} {ps : List Play}

theorem plays_eq_generate (epoch count songs : UInt64) :
    plays epoch count songs = generate count.toNat (play epoch songs) := by
  rw [plays, somePlays, show min count count = count from ite_self _]

theorem plays_eq_ok (h : plays epoch count songs = .ok ps) : ps.length = count.toNat ∧
    ∀ (i : Nat) (p : Play), ps[i]? = some p →
      i < count.toNat ∧ play epoch songs (UInt64.ofNat i) = .ok p := by
  rw [plays_eq_generate] at h
  exact generate_eq_ok h

theorem exists_plays_iff (hfit : epoch.toNat * 13 + count.toNat * 7 < UInt64.size)
    (hsongs : songs.toNat < 2 ^ 63) :
    (∃ ps, plays epoch count songs = .ok ps) ↔ 0 < songs.toNat ∨ count.toNat ≤ 1 := by
  rw [plays_eq_generate, exists_generate_iff]
  have hplay (i : Nat) (hi : i < count.toNat) : (∃ p, play epoch songs (UInt64.ofNat i) = .ok p) ↔
      i % 5 = 0 ∨ 0 < songs.toNat := by
    have hi' : (UInt64.ofNat i).toNat = i := UInt64.toNat_ofNat_of_lt' (Nat.lt_trans hi count.toNat_lt)
    rw [exists_play_iff (by omega) hsongs, hi']
  constructor
  · intro h
    by_contra hnot
    rw [not_or] at hnot
    have hone := (hplay 1 (by omega)).1 (h 1 (by omega))
    omega
  · intro h i hi
    exact (hplay i hi).2 (by omega)

/-- **Which generated plays are found.** If its numbers are words, an epoch has its plays unless it has
more than one and there are no songs. A play that goes round is of a song of the catalog; every
fifth play is if the catalog reaches to the song that the epoch favours. So the join with the
catalog keeps all plays exactly if it does, or if there are none. -/
theorem plays_found_iff (hfit : epoch.toNat * 13 + count.toNat * 7 < UInt64.size)
    (hsongs : songs.toNat < 2 ^ 63) :
    ((∃ ps, plays epoch count songs = .ok ps) ↔ 0 < songs.toNat ∨ count.toNat ≤ 1) ∧
    ∀ ps, plays epoch count songs = .ok ps →
      ps.length = count.toNat ∧
      (∀ (i : Nat) (p : Play), ps[i]? = some p →
        ((∃ song ∈ catalog songs, song.id = p.songId) ↔
          i % 5 ≠ 0 ∨ epoch.toNat % 3 * 2 < songs.toNat)) ∧
      ((∀ minDurationMs id, ((songPlays (chartablePlays (.ofList ps) minDurationMs)
          (.ofList (catalog songs))).map Tally.identity).multiplicity id =
        (chartablePlays (.ofList ps) minDurationMs).multiplicity id) ↔
          count = 0 ∨ epoch.toNat % 3 * 2 < songs.toNat) := by
  refine ⟨exists_plays_iff hfit hsongs, fun ps h => ?_⟩
  obtain ⟨hlength, hget⟩ := plays_eq_ok h
  have hfound (i : Nat) (p : Play) (hp : ps[i]? = some p) :
      (∃ song ∈ catalog songs, song.id = p.songId) ↔
        i % 5 ≠ 0 ∨ epoch.toNat % 3 * 2 < songs.toNat := by
    obtain ⟨hi, hplay⟩ := hget i p hp
    have hword : (UInt64.ofNat i).toNat = i :=
      UInt64.toNat_ofNat_of_lt' (Nat.lt_trans hi count.toNat_lt)
    rw [found_iff (by omega) hsongs hplay, hword]
  refine ⟨hlength, hfound, ?_⟩
  rw [songPlays_keeps_iff (nodup_catalog songs)]
  constructor
  · intro hall
    by_contra hnot
    rw [not_or] at hnot
    have hpos : 0 < ps.length := by
      rw [hlength]
      exact Nat.pos_of_ne_zero fun hzero => hnot.1 (UInt64.toNat_inj.1 hzero)
    have hfirst := (hfound 0 ps[0] (List.getElem?_eq_getElem hpos)).1 (hall _ (List.getElem_mem hpos))
    exact hnot.2 (hfirst.resolve_left fun hne => hne rfl)
  · intro h p hp
    obtain ⟨i, hi⟩ := List.mem_iff_getElem?.1 hp
    refine (hfound i p hi).2 (h.elim (fun hzero => ?_) .inr)
    have hlt := (hget i p hi).1
    rw [hzero] at hlt
    exact absurd hlt (Nat.not_lt_zero i)

/-- The second of three epochs favours the third song, and a catalog without songs has none to go
round. -/
theorem plays_of_few_songs :
    plays 1 1 1 = .ok [⟨3, 20000, "uk"⟩] ∧ (∀ song ∈ catalog 1, song.id ≠ 3) ∧
      plays 0 2 0 = .error .remainderByZero := by
  decide +kernel

/-- In the second epoch a catalog of three songs is large enough, and one of two is not. -/
theorem plays_found_iff_second_epoch :
    let kept (ps : List Play) (songs : UInt64) : Prop := ∀ minDurationMs id,
      ((songPlays (chartablePlays (.ofList ps) minDurationMs)
          (.ofList (catalog songs))).map Tally.identity).multiplicity id =
        (chartablePlays (.ofList ps) minDurationMs).multiplicity id
    (1 : UInt64).toNat * 13 + (6 : UInt64).toNat * 7 < UInt64.size ∧
      (3 : UInt64).toNat < 2 ^ 63 ∧ (2 : UInt64).toNat < 2 ^ 63 ∧
      (∃ ps, plays 1 6 3 = .ok ps ∧ ps.length = 6 ∧ kept ps 3) ∧
      ∃ ps, plays 1 6 2 = .ok ps ∧ ps.length = 6 ∧ ¬ kept ps 2 := by
  intro kept
  have hfit : (1 : UInt64).toNat * 13 + (6 : UInt64).toNat * 7 < UInt64.size := by decide
  have hthree := plays_found_iff hfit (show (3 : UInt64).toNat < 2 ^ 63 by decide)
  have htwo := plays_found_iff hfit (show (2 : UInt64).toNat < 2 ^ 63 by decide)
  obtain ⟨ps, hps⟩ := hthree.1.2 (.inl (by decide))
  obtain ⟨qs, hqs⟩ := htwo.1.2 (.inl (by decide))
  refine ⟨hfit, by decide, by decide, ⟨ps, hps, (hthree.2 ps hps).1, ?_⟩,
    qs, hqs, (htwo.2 qs hqs).1, ?_⟩
  · exact (hthree.2 ps hps).2.2.2 (by decide)
  · exact fun hkept => absurd ((htwo.2 qs hqs).2.2.1 hkept) (by decide)

end TopCharts.Demo
