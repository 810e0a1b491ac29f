import TopCharts.Entry
import TopCharts.Json.Record
import TopCharts.Text.Case

/-!
# Songs and their plays

* `Play` : a song was played for some time; `Play.isChartable` if it was long enough to count;
* `Song` : a song of the catalog; `Song.chartKeys` are the charts its plays count towards: the one
  of its genre, in lower case, and the chart of all songs;
* `PlayCount` : how often a song was played; an entry is one, and the other way round;
* `ChartedSong` : a charted song as it is shown.
-/

namespace TopCharts

open Std (TransOrd LawfulEqOrd)

def allSongsKey : String := "all"

/-- Shorter plays do not count, unless the settings say otherwise. -/
def defaultMinDurationMs : UInt64 := 30000

/-! ## Plays -/

@[ext] structure Play where
  songId : Int64
  durationMs : UInt64
  region : String
  deriving DecidableEq, Repr

namespace Play

/-- Plays as JSON; a play without a region has an empty one. -/
def record : Json.Record Play where
  name := "PlayEvent"
  types := [Int64, UInt64, String]
  fields := .cons ⟨"song_id", .int, none⟩ <| .cons ⟨"duration_ms", .word "u64", none⟩ <|
    .cons ⟨"region", .string, some ""⟩ .nil
  toValues p := (p.songId, p.durationMs, p.region, ())
  ofValues := fun (songId, durationMs, region, ()) => { songId, durationMs, region }

def isChartable (p : Play) (minDurationMs : UInt64) : Bool :=
  minDurationMs ≤ p.durationMs

instance : Ord Play where
  compare := compareLex (compareOn songId) (compareLex (compareOn durationMs) (compareOn region))

instance : TransOrd Play :=
  inferInstanceAs (Std.TransCmp
    (compareLex (compareOn songId) (compareLex (compareOn durationMs) (compareOn region))))

instance : LawfulEqOrd Play where
  eq_of_compare h := by
    obtain ⟨hs, h⟩ := compareLex_eq_eq.1 h
    obtain ⟨hd, hr⟩ := compareLex_eq_eq.1 h
    exact Play.ext (LawfulEqOrd.eq_of_compare hs) (LawfulEqOrd.eq_of_compare hd)
      (LawfulEqOrd.eq_of_compare hr)

end Play

/-! ## Songs -/

@[ext] structure Song where
  id : Int64
  album : String
  artist : String
  name : String
  genre : String
  deriving DecidableEq, Repr

namespace Song

def record : Json.Record Song where
  name := "Song"
  types := [Int64, String, String, String, String]
  fields := .cons ⟨"id", .int, none⟩ <| .cons ⟨"album", .string, none⟩ <|
    .cons ⟨"artist", .string, none⟩ <| .cons ⟨"name", .string, none⟩ <|
    .cons ⟨"genre", .string, none⟩ .nil
  toValues s := (s.id, s.album, s.artist, s.name, s.genre, ())
  ofValues := fun (id, album, artist, name, genre, ()) => { id, album, artist, name, genre }

/-- The key of the chart of the song's genre: its letter case does not count. -/
def genreKey (s : Song) : String :=
  String.ofList (Text.lower s.genre.toList)

/-- The charts that a play of the song counts towards. -/
def chartKeys (s : Song) : List String :=
  [s.genreKey, allSongsKey]

instance : Ord Song where
  compare := compareLex (compareOn id) (compareLex (compareOn album) (compareLex
    (compareOn artist) (compareLex (compareOn name) (compareOn genre))))

instance : TransOrd Song :=
  inferInstanceAs (Std.TransCmp (compareLex (compareOn id) (compareLex (compareOn album)
    (compareLex (compareOn artist) (compareLex (compareOn name) (compareOn genre))))))

instance : LawfulEqOrd Song where
  eq_of_compare h := by
    obtain ⟨hi, h⟩ := compareLex_eq_eq.1 h
    obtain ⟨hb, h⟩ := compareLex_eq_eq.1 h
    obtain ⟨hr, h⟩ := compareLex_eq_eq.1 h
    obtain ⟨hn, hg⟩ := compareLex_eq_eq.1 h
    exact Song.ext (LawfulEqOrd.eq_of_compare hi) (LawfulEqOrd.eq_of_compare hb)
      (LawfulEqOrd.eq_of_compare hr) (LawfulEqOrd.eq_of_compare hn)
      (LawfulEqOrd.eq_of_compare hg)

end Song

/-! ## Counts -/

/-- How often a song was played. -/
structure PlayCount where
  songId : Int64
  plays : Int64
  deriving DecidableEq, Repr

namespace PlayCount

def record : Json.Record PlayCount where
  name := "SongPlayCount"
  types := [Int64, Int64]
  fields := .cons ⟨"song_id", .int, none⟩ <| .cons ⟨"plays", .int, none⟩ .nil
  toValues c := (c.songId, c.plays, ())
  ofValues := fun (songId, plays, ()) => { songId, plays }

def toEntry (c : PlayCount) : Entry :=
  ⟨c.songId, c.plays⟩

def ofEntry (e : Entry) : PlayCount :=
  ⟨e.identity, e.score⟩

end PlayCount

structure ChartedSong where
  artist : String
  album : String
  name : String
  plays : Int64
  deriving DecidableEq, Repr

namespace ChartedSong

def ofSong (s : Song) (plays : Int64) : ChartedSong where
  artist := s.artist
  album := s.album
  name := s.name
  plays := plays

/-- The JSON text of a charted song. -/
def write (s : ChartedSong) : List Char :=
  Json.writeObject [("artist", Json.writeText s.artist), ("album", Json.writeText s.album),
    ("name", Json.writeText s.name), ("plays", Json.Format.int.write s.plays)]

end ChartedSong

end TopCharts
