import TopCharts.Demo.Generator
import TopCharts.Music

/-!
# Generated songs and plays

* `Demo.catalog` : a catalog of songs with the numbers from one;
* `Demo.plays` : the plays of an epoch, of which every fifth goes to one of a few songs.
-/

namespace TopCharts.Demo

def genres : List String :=
  ["Punk", "Jazz", "Hip Hop", "Electronic", "Rock"]

def regions : List String :=
  ["uk", "us", "de"]

def song (id : Nat) : Song where
  id := Int64.ofNat id
  album := s!"Album {(id - 1) / 4 + 1}"
  artist := s!"Artist {id % 9}"
  name := s!"Song {id}"
  genre := pick genres (UInt64.ofNat id)

/-- The songs from one to `songs`, which is read as a signed word. -/
def catalog (songs : UInt64) : List Song :=
  (List.range songs.toInt64.toInt.toNat).map fun i => song (i + 1)

/-- Play number `i` of an epoch, among `songs` songs. -/
def play (epoch songs i : UInt64) : Except Fault Play := do
  let position ←
    if i % 5 = 0 then Checked.mul (epoch % 3) 2
    else do Checked.rem (← Checked.add (← Checked.mul epoch 13) (← Checked.mul i 7)) songs
  return {
    songId := ← Checked.addInt position.toInt64 1
    durationMs := ← Checked.add 20000 (← Checked.mul (i % 7) 5000)
    region := pick regions (i % 3) }

/-- The first `take` of the `count` plays of an epoch. -/
def somePlays (epoch count songs take : UInt64) : Except Fault (List Play) :=
  generate (min count take).toNat (play epoch songs)

def plays (epoch count songs : UInt64) : Except Fault (List Play) :=
  somePlays epoch count songs count

end TopCharts.Demo
