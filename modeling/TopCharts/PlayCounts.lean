import TopCharts.Collection
import TopCharts.Music
import TopCharts.Tracker

/-!
# Counting plays

Plays that are long enough are joined with the songs and counted for every chart of their song.

* `chartablePlays` : the songs of the plays that count;
* `songPlays` : the plays of songs, with all chart keys of the song; `tallies` the same under each
  of the keys;
* `playCounts` : for each chart key and song, the song with the number of its plays as an entry
  under the key. Plays of unknown songs count nowhere;
* `countChanges` : what has to be added to one state of the counts to get another.
-/

namespace TopCharts

def chartablePlays (plays : Collection Play) (minDurationMs : UInt64) : Collection Int64 :=
  (plays.filter (·.isChartable minDurationMs)).map Play.songId

/-- The plays of each song, grouped by its chart keys. -/
def songPlays (plays : Collection Int64) (songs : Collection Song) :
    Collection (Tally (List String)) :=
  let joined := (plays.map fun id => (id, ())).join (songs.map fun s => (s.id, s))
  joined.map fun (id, (), s) => ⟨s.chartKeys, id⟩

/-- The plays of each song under each of its chart keys. -/
def tallies (played : Collection (Tally (List String))) : Collection (Tally String) :=
  played.flatMap fun t => t.group.map fun key => ⟨key, t.identity⟩

/-- The entry of each song under each of its chart keys, by the number of its plays. -/
def playCounts (plays : Collection Int64) (songs : Collection Song) : Collection (Keyed String) :=
  (tallies (songPlays plays songs)).count.map fun (tally, plays) =>
    ⟨tally.group, PlayCount.toEntry ⟨tally.identity, Int64.ofInt plays⟩⟩

def countChanges (before after : Collection (Keyed String)) : Collection (Keyed String) :=
  (after ++ before.negate).consolidate

end TopCharts
