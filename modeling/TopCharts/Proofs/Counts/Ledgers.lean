import Mathlib.Tactic.Ring
import TopCharts.Ledgers
import TopCharts.Proofs.Arrangement.Content
import TopCharts.Proofs.Counts.Tallies

/-!
# Ledgers keep the counts

* `Ledgers.Holds l n plays songs` : the ledgers hold the plays, the songs and the tallies of both,
  and every tally is a word;
* `Holds.added` : the tallies that an epoch adds are what the tallies gain. They are taken from two
  joins, the new plays with the songs so far and all plays with the new songs, each for the songs
  that the new side knows;
* `Holds.post` : so an epoch that can be entered leaves ledgers that hold all plays and songs.
-/

namespace TopCharts

open Attempt
open Std (TransOrd LawfulEqOrd)

namespace Collection

theorem not_mem_of_not_contains_support {α : Type} [Ord α] [TransOrd α] [LawfulEqOrd α]
    [DecidableEq α] {c : Collection α} {a : α} (h : ¬ c.support.contains a) :
    a ∉ c.rows.map Prod.fst := by
  rw [support, Std.ExtTreeMap.contains_ofList, List.map_map] at h
  intro ha
  exact h (List.contains_iff_mem.2 ha)

theorem checked_eq_ok {α : Type} {overflow : Fault} {c d : Collection α}
    (h : c.checked overflow = .ok d) : d = c := by
  obtain ⟨rows, hrows, h⟩ := bind_eq_ok.1 h
  rw [pure_eq_ok] at h
  subst h
  obtain ⟨crows⟩ := c
  refine congrArg Collection.mk ?_
  show rows = crows
  clear h
  induction crows generalizing rows with
  | nil => exact (pure_eq_ok.1 hrows).symm
  | cons row crows ih =>
    rw [List.mapM_cons] at hrows
    obtain ⟨row', hrow, hrows⟩ := bind_eq_ok.1 hrows
    obtain ⟨rows', hrows', hrows⟩ := bind_eq_ok.1 hrows
    obtain ⟨w, hw, hrow⟩ := bind_eq_ok.1 hrow
    rw [← pure_eq_ok.1 hrows, ← pure_eq_ok.1 hrow, ih rows' hrows',
      ← (Checked.int_eq_ok_iff.1 hw).1]

variable {α : Type} [DecidableEq α]

theorem multiplicity_append' (c d : Collection α) (a : α) :
    (c ++ d).multiplicity a = c.multiplicity a + d.multiplicity a :=
  multiplicity_append c.rows d.rows a

theorem multiplicity_congr {c d : Collection α} (h : ∀ f, c.sum f = d.sum f) (a : α) :
    c.multiplicity a = d.multiplicity a := by
  rw [multiplicity_eq_sum, h, multiplicity_eq_sum]

theorem multiplicity_filter (p : α → Bool) (c : Collection α) (a : α) :
    (c.filter p).multiplicity a = if p a then c.multiplicity a else 0 := by
  rw [multiplicity_eq_sum, sum_filter, multiplicity_eq_sum]
  split
  · rename_i hp
    refine sum_congr fun row _ => ?_
    by_cases h : row.1 = a
    · rw [h, if_pos hp]
    · rw [if_neg h, ite_self]
  · rename_i hp
    refine (sum_congr fun row _ => ?_).trans (sum_zero c)
    by_cases h : row.1 = a
    · rw [h, if_neg hp]
    · rw [if_neg h, ite_self]

theorem keyed_congr {songs songs' : Collection Song} (h : ∀ f, songs.sum f = songs'.sum f)
    (t : Tally String) : songs.keyed t = songs'.keyed t :=
  h _

theorem keyed_append (songs songs' : Collection Song) (t : Tally String) :
    (songs ++ songs').keyed t = songs.keyed t + songs'.keyed t :=
  sum_append songs songs' _

theorem keyed_filter (p : Int64 → Bool) (songs : Collection Song) (t : Tally String) :
    (songs.filter fun s => p s.id).keyed t = if p t.identity then songs.keyed t else 0 := by
  rw [keyed, sum_filter, keyed]
  split
  · rename_i hp
    refine sum_congr fun row _ => ?_
    by_cases h : row.1.id = t.identity
    · rw [h, if_pos hp]
    · rw [if_neg h, ite_self]
  · rename_i hp
    refine (sum_congr fun row _ => ?_).trans (sum_zero songs)
    by_cases h : row.1.id = t.identity
    · rw [h, if_neg hp]
    · rw [if_neg h, ite_self]

theorem keyed_eq_zero {songs : Collection Song} {t : Tally String}
    (h : t.identity ∉ (songs.map Song.id).rows.map Prod.fst) : songs.keyed t = 0 := by
  refine (sum_congr fun row hrow => ?_).trans (sum_zero songs)
  refine if_neg fun hid => h ?_
  rw [← hid, map, List.map_map]
  exact List.mem_map_of_mem hrow

/-! ## What is asked of the past -/

/-- Only the songs that are played now are asked for. -/
theorem multiplicity_mul_asked (plays : Collection Int64) (id : Int64) (n : Int) :
    plays.multiplicity id * (if plays.support.contains id then n else 0) =
      plays.multiplicity id * n := by
  split
  · rfl
  · rename_i hnone
    rw [multiplicity_eq_zero (not_mem_of_not_contains_support hnone), zero_mul, zero_mul]

/-- Only the plays of songs that are new are asked for. -/
theorem asked_mul_keyed (songs : Collection Song) (t : Tally String) (n : Int) :
    (if (songs.map Song.id).support.contains t.identity then n else 0) * songs.keyed t =
      n * songs.keyed t := by
  split
  · rfl
  · rename_i hnone
    rw [keyed_eq_zero (not_mem_of_not_contains_support hnone), mul_zero, mul_zero]

end Collection

theorem Arrangement.Holds.multiplicity_history {α : Type} [Ord α] [TransOrd α] [LawfulEqOrd α]
    [DecidableEq α] {a : Arrangement α} {n : Nat} {c d : Collection α} (h : a.Holds n c)
    {p : α → Bool} (hd : a.history p = .ok d) (r : α) :
    d.multiplicity r = if p r then c.multiplicity r else 0 := by
  rw [Collection.multiplicity_congr (h.history hd), Collection.multiplicity_filter]

theorem Arrangement.Holds.keyed_history {a : Arrangement Song} {n : Nat} {c d : Collection Song}
    (h : a.Holds n c) {p : Int64 → Bool} (hd : (a.history fun s => p s.id) = .ok d)
    (t : Tally String) : d.keyed t = if p t.identity then c.keyed t else 0 := by
  rw [Collection.keyed_congr (h.history hd), Collection.keyed_filter]

theorem multiplicity_two_joins (plays plays' : Collection Int64) (songs songs' : Collection Song)
    (t : Tally String) :
    (tallies (songPlays plays songs ++ songPlays plays' songs').consolidate).multiplicity t =
      plays.multiplicity t.identity * songs.keyed t +
        plays'.multiplicity t.identity * songs'.keyed t := by
  rw [Collection.multiplicity_eq_sum, tallies, Collection.sum_flatMap, Collection.sum_consolidate,
    Collection.sum_append, ← Collection.sum_flatMap, ← Collection.sum_flatMap]
  show (tallies _).sum _ + (tallies _).sum _ = _
  rw [← Collection.multiplicity_eq_sum, ← Collection.multiplicity_eq_sum, multiplicity_tallies,
    multiplicity_tallies]

namespace Ledgers

variable {l l' : Ledgers} {n : Nat} {played : Collection Int64} {catalog : Collection Song}

/-- The ledgers hold the plays, the songs and their tallies, which are words. -/
structure Holds (l : Ledgers) (n : Nat) (played : Collection Int64) (catalog : Collection Song) :
    Prop where
  plays : l.plays.Holds n played
  songs : l.songs.Holds n catalog
  tallies : l.tallies.Holds n (TopCharts.tallies (songPlays played catalog))
  words : ∀ t : Tally String, IsWord (played.multiplicity t.identity * catalog.keyed t)

theorem holds_start (n : Nat) : (start n).Holds n .empty .empty where
  plays := Arrangement.holds_start n
  songs := Arrangement.holds_start n
  tallies := Arrangement.holds_start n
  words _ := show IsWord 0 by decide

theorem Holds.congr (h : l.Holds n played catalog) {played' : Collection Int64}
    {catalog' : Collection Song} (hplays : ∀ f, played.sum f = played'.sum f)
    (hsongs : ∀ f, catalog.sum f = catalog'.sum f) : l.Holds n played' catalog' where
  plays := h.plays.congr hplays
  songs := h.songs.congr hsongs
  tallies := h.tallies.congr <| Collection.sum_eq_sum fun t => by
    rw [multiplicity_tallies, multiplicity_tallies, Collection.multiplicity_congr hplays,
      Collection.keyed_congr hsongs]
  words t := by
    rw [← Collection.multiplicity_congr hplays, ← Collection.keyed_congr hsongs]
    exact h.words t

/-- **The tallies that an epoch adds** are what the tallies gain by its plays and songs. -/
theorem Holds.added (h : l.Holds n played catalog) {newPlays : Collection Int64}
    {newSongs : Collection Song} {newTallies : Collection (Tally String)}
    (hadded : l.added newPlays newSongs = .ok newTallies) (t : Tally String) :
    played.multiplicity t.identity * catalog.keyed t + newTallies.multiplicity t =
      (played ++ newPlays).multiplicity t.identity * (catalog ++ newSongs).keyed t := by
  obtain ⟨earlierSongs, hearlierSongs, hadded⟩ := bind_eq_ok.1 hadded
  obtain ⟨earlierPlays, hearlierPlays, hadded⟩ := bind_eq_ok.1 hadded
  obtain ⟨allPlays, hallPlays, hadded⟩ := bind_eq_ok.1 hadded
  obtain ⟨ofPlays, hofPlays, hadded⟩ := bind_eq_ok.1 hadded
  obtain ⟨ofSongs, hofSongs, hadded⟩ := bind_eq_ok.1 hadded
  obtain ⟨joined, hjoined, hadded⟩ := bind_eq_ok.1 hadded
  obtain rfl := Collection.checked_eq_ok hofPlays
  obtain rfl := Collection.checked_eq_ok hofSongs
  obtain ⟨rfl, -⟩ := Collection.settle_eq_ok hallPlays
  obtain ⟨rfl, -⟩ := Collection.settle_eq_ok hjoined
  obtain ⟨rfl, -⟩ := Collection.settle_eq_ok hadded
  rw [Collection.multiplicity_consolidate, multiplicity_two_joins, h.songs.keyed_history
    hearlierSongs, Collection.multiplicity_mul_asked, Collection.multiplicity_consolidate,
    Collection.multiplicity_append', h.plays.multiplicity_history hearlierPlays,
    Collection.multiplicity_filter, add_mul, Collection.asked_mul_keyed,
    Collection.asked_mul_keyed, Collection.multiplicity_append', Collection.keyed_append]
  ring

theorem sum_arrived {α : Type} (parts : List (Collection α)) (f : α → Int) :
    (arrived parts).sum f = (parts.map fun part => part.sum f).sum := by
  induction parts with
  | nil => rfl
  | cons part parts ih =>
    rw [List.map_cons, List.sum_cons, ← ih]
    exact Collection.sum_append_rows _ _ f

theorem exists_of_discard_eq_ok {ε α : Type} {x : Except ε α} {u : PUnit}
    (h : discard x = .ok u) : ∃ a, x = .ok a := by
  cases x with
  | ok a => exact ⟨a, rfl⟩
  | error e => cases h

/-- **Ledgers that an epoch was entered in hold all plays and songs so far.** -/
theorem Holds.post (h : l.Holds n played catalog) (hpos : 0 < n) (hlt : n < 2 ^ 64)
    {epoch : UInt64} {plays : List (Collection Int64)} {songs : List (Collection Song)}
    (hpost : l.post epoch plays songs = .ok l') :
    l'.Holds n (played ++ arrived plays) (catalog ++ arrived songs) := by
  obtain ⟨_, _, hpost⟩ := bind_eq_ok.1 hpost
  obtain ⟨newPlays, hnewPlays, hpost⟩ := bind_eq_ok.1 hpost
  obtain ⟨newSongs, hnewSongs, hpost⟩ := bind_eq_ok.1 hpost
  obtain ⟨newTallies, hnewTallies, hpost⟩ := bind_eq_ok.1 hpost
  obtain ⟨earlier, hearlier, hpost⟩ := bind_eq_ok.1 hpost
  obtain ⟨_, hsettled, hpost⟩ := bind_eq_ok.1 hpost
  obtain ⟨settled, hsettled⟩ := exists_of_discard_eq_ok hsettled
  obtain ⟨plays', hplays', hpost⟩ := bind_eq_ok.1 hpost
  obtain ⟨songs', hsongs', hpost⟩ := bind_eq_ok.1 hpost
  obtain ⟨tallies', htallies', hpost⟩ := bind_eq_ok.1 hpost
  rw [pure_eq_ok] at hpost
  subst hpost
  have hplays (f : Int64 → Int) : (played ++ newPlays).sum f = (played ++ arrived plays).sum f := by
    rw [(Collection.settle_eq_ok hnewPlays).1, Collection.sum_append, Collection.sum_consolidate,
      ← Collection.sum_append]
  have hsongs (f : Song → Int) : (catalog ++ newSongs).sum f = (catalog ++ arrived songs).sum f := by
    rw [(Collection.settle_eq_ok hnewSongs).1, Collection.sum_append, Collection.sum_consolidate,
      ← Collection.sum_append]
  refine Holds.congr ⟨h.plays.add hpos hlt hplays', h.songs.add hpos hlt hsongs',
    (h.tallies.add hpos hlt htallies').congr ?_, ?_⟩ hplays hsongs
  · refine Collection.sum_eq_sum fun t => ?_
    rw [Collection.multiplicity_append', multiplicity_tallies, h.added hnewTallies,
      multiplicity_tallies]
  · intro t
    rw [← h.added hnewTallies]
    by_cases hchanged : newTallies.support.contains t
    · have hword := (Collection.settle_eq_ok hsettled).2 t
      rw [Collection.multiplicity_append', h.tallies.multiplicity_history hearlier, if_pos hchanged,
        multiplicity_tallies] at hword
      exact hword
    · rw [Collection.multiplicity_eq_zero (Collection.not_mem_of_not_contains_support hchanged),
        add_zero]
      exact h.words t

end Ledgers

end TopCharts
