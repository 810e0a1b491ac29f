import TopCharts.Json.Record
import TopCharts.Text.Line
import TopCharts.Update

/-!
# Feeds of records

A feed is a text with one JSON record on each line. Lines of blanks are passed over; a line that
is no record is left out and counted.

* `File`, `File.text` : the text of a file, or why there is none (`FileError`);
* `Failure` : a failed task and its causes;
* `Feed.decodeLine`, `Feed.read`, `Feed.load` : the record of a line, the records of a text, the
  records of a file;
* `Entry.record`, `Change.format`, `Update.record` : the JSON forms of updates.
-/

namespace TopCharts

/-! ## Files -/

abbrev File := Option ByteArray

inductive FileError where
  | missing
  | notText
  deriving DecidableEq, Repr

def FileError.message : FileError → String
  | .missing => "No such file or directory (os error 2)"
  | .notText => "stream did not contain valid UTF-8"

def File.text : File → Except FileError String
  | none => .error .missing
  | some bytes =>
    match String.fromUTF8? bytes with
    | some s => .ok s
    | none => .error .notText

/-- A failed task, with what caused the failure, the nearest cause first. -/
structure Failure where
  message : String
  causes : List String := []
  deriving DecidableEq, Repr

/-! ## The JSON forms of updates -/

def Entry.record : Json.Record Entry where
  name := "RankedEntry"
  types := [Int64, Int64]
  fields := .cons ⟨"identity", .int, none⟩ <| .cons ⟨"score", .int, none⟩ .nil
  toValues e := (e.identity, e.score, ())
  ofValues := fun (identity, score, ()) => { identity, score }

def Change.name : Change → String
  | .remove => "Remove"
  | .add => "Add"

def Change.format : Json.Format Change :=
  .choice [("Remove", .remove), ("Add", .add)] Change.name

def Update.record : Json.Record (Update String) where
  name := "ChartUpdate"
  types := [String, Change, Entry]
  fields := .cons ⟨"key", .string, none⟩ <| .cons ⟨"op", Change.format, none⟩ <|
    .cons ⟨"entry", Entry.record.format, none⟩ .nil
  toValues u := (u.key, u.change, u.entry, ())
  ofValues := fun (key, change, entry, ()) => { key, change, entry }

/-! ## Feeds -/

namespace Feed

variable {α : Type}

def decodeLine (f : Json.Format α) (line : List Char) : Except Json.ReadError α :=
  f.parse (Text.trim line)

/-- How a line that is no record is reported. -/
def lineMessage (e : Json.ReadError) : String :=
  s!"serialization error: {e.message}"

/-- The records of a feed, and the number of lines left out. -/
structure Contents (α : Type) where
  records : List α
  malformed : Nat
  deriving DecidableEq, Repr

def read (f : Json.Format α) (s : String) : Contents α :=
  let lines := (Text.lines s.toList).filter fun line => !line.all Text.isBlank
  let results := lines.map (decodeLine f)
  ⟨results.filterMap Except.toOption, results.countP fun r => !r.isOk⟩

def load (f : Json.Format α) (path : String) (file : File) : Except Failure (Contents α) :=
  match file.text with
  | .ok s => .ok (read f s)
  | .error e => .error ⟨s!"reading {path}", [e.message]⟩

end Feed

end TopCharts
