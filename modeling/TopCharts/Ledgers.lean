import TopCharts.Arrangement.Basic
import TopCharts.PlayCounts

/-!
# Ledgers

Counts are kept up to date from what each epoch adds. The ledgers are the arrangements that this
takes: the plays that count, the songs, and the tallies that come of joining them. Their weights are
words, and an epoch fails if one of the sums or products that it takes is not.

* `Ledgers.start`, `close` : before the first epoch, and at the end;
* `Ledgers.post` : enters the plays and songs of an epoch, which come in through several workers
  (`Ledgers.arrived`).
-/

namespace TopCharts

/-- The arrangements that counting plays takes. -/
structure Ledgers where
  plays : Arrangement Int64
  songs : Arrangement Song
  tallies : Arrangement (Tally String)

namespace Ledgers

def start (workers : Nat) : Ledgers where
  plays := .start workers
  songs := .start workers
  tallies := .start workers

/-- The tallies that an epoch adds: the new plays are joined with the songs so far, then all plays
with the new songs. What comes of both is settled for each song, and then for each chart. -/
def added (l : Ledgers) (plays : Collection Int64) (songs : Collection Song) :
    Except Fault (Collection (Tally String)) := do
  let played := plays.support
  let new := (songs.map Song.id).support
  let earlierSongs ← l.songs.history fun s => played.contains s.id
  let earlierPlays ← l.plays.history new.contains
  let allPlays ← (earlierPlays ++ plays.filter new.contains).settle
  let ofPlays ← (songPlays plays earlierSongs).checked .mulOverflow
  let ofSongs ← (songPlays allPlays songs).checked .mulOverflow
  (TopCharts.tallies (← (ofPlays ++ ofSongs).settle)).settle

/-- The records that came in through the workers together. -/
def arrived {α : Type} (parts : List (Collection α)) : Collection α :=
  ⟨parts.flatMap Collection.rows⟩

/-- Enters the plays and the songs that came in through each worker in an epoch. The times that
merged plays forget reach beyond the epoch, unless songs came in with them, and the other way
round. -/
def post (l : Ledgers) (epoch : UInt64) (plays : List (Collection Int64))
    (songs : List (Collection Song)) : Except Fault Ledgers := do
  let horizon {α : Type} (opposite : Collection α) : Horizon :=
    some (if opposite.rows.isEmpty then epoch + 1 else epoch)
  plays.forM fun part => discard part.settle
  let newPlays ← (arrived plays).settle
  let newSongs ← (arrived songs).settle
  let newTallies ← l.added newPlays newSongs
  let changed := newTallies.support
  discard ((← l.tallies.history changed.contains) ++ newTallies).settle
  return {
    plays := ← l.plays.add (horizon (arrived songs)) epoch newPlays
    songs := ← l.songs.add (horizon (arrived plays)) epoch newSongs
    tallies := ← l.tallies.add (some (epoch + 1)) epoch newTallies }

def close (l : Ledgers) : Except Fault Unit := do
  l.plays.close
  l.songs.close
  l.tallies.close

end Ledgers

end TopCharts
