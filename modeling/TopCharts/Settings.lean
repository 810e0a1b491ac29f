import TopCharts.Articles
import TopCharts.Feed
import TopCharts.Music

/-!
# Settings

The settings of the programs are JSON objects in which every member may be missing: it then has its
default. Numbers of workers are machine words under a name of their own.

* `RunSettings` : what both programs need;
* `MusicSettings`, `ArticleSettings` : the settings of each;
* `Settings.load` : the settings of a file, or the defaults if none is given.
-/

namespace TopCharts

structure RunSettings where
  workers : UInt64 := 2
  epochs : UInt64 := 10
  deriving DecidableEq, Repr

structure MusicSettings where
  run : RunSettings := {}
  minDurationMs : UInt64 := defaultMinDurationMs
  songs : UInt64 := 40
  playsPerEpoch : UInt64 := 250
  deriving DecidableEq, Repr

structure ArticleSettings where
  run : RunSettings := {}
  windowSizeMs : UInt64 := defaultWindowSizeMs
  viewsPerEpoch : UInt64 := 120
  /-- The simulated time of one epoch of generated views. -/
  epochSpanMs : UInt64 := 900000
  /-- The closed windows kept behind the current one. -/
  retainedWindows : UInt64 := 2
  deriving DecidableEq, Repr

/-- A member that is a machine word with a default. -/
def Json.Field.defaulted (name : String) (value : UInt64) : Json.Field UInt64 :=
  ⟨name, .word "u64", some value⟩

def RunSettings.record : Json.Record RunSettings where
  name := "RuntimeConfig"
  types := [UInt64, UInt64]
  fields :=
    let d : RunSettings := {}
    .cons ⟨"workers", .word "usize", some d.workers⟩ <|
    .cons (.defaulted "epochs" d.epochs) .nil
  toValues s := (s.workers, s.epochs, ())
  ofValues := fun (workers, epochs, ()) => { workers, epochs }

def MusicSettings.record : Json.Record MusicSettings where
  name := "MusicChartsConfig"
  types := [RunSettings, UInt64, UInt64, UInt64]
  fields :=
    let d : MusicSettings := {}
    .cons ⟨"runtime", RunSettings.record.format, some d.run⟩ <|
    .cons (.defaulted "min_chartable_duration_ms" d.minDurationMs) <|
    .cons (.defaulted "songs" d.songs) <|
    .cons (.defaulted "plays_per_epoch" d.playsPerEpoch) .nil
  toValues s := (s.run, s.minDurationMs, s.songs, s.playsPerEpoch, ())
  ofValues := fun (run, minDurationMs, songs, playsPerEpoch, ()) =>
    { run, minDurationMs, songs, playsPerEpoch }

def ArticleSettings.record : Json.Record ArticleSettings where
  name := "ArticleChartsConfig"
  types := [RunSettings, UInt64, UInt64, UInt64, UInt64]
  fields :=
    let d : ArticleSettings := {}
    .cons ⟨"runtime", RunSettings.record.format, some d.run⟩ <|
    .cons (.defaulted "window_size_ms" d.windowSizeMs) <|
    .cons (.defaulted "views_per_epoch" d.viewsPerEpoch) <|
    .cons (.defaulted "epoch_span_ms" d.epochSpanMs) <|
    .cons (.defaulted "retained_windows" d.retainedWindows) .nil
  toValues s := (s.run, s.windowSizeMs, s.viewsPerEpoch, s.epochSpanMs, s.retainedWindows, ())
  ofValues := fun (run, windowSizeMs, viewsPerEpoch, epochSpanMs, retainedWindows, ()) =>
    { run, windowSizeMs, viewsPerEpoch, epochSpanMs, retainedWindows }

/-- The settings of a file with its path, or the defaults if none is given. -/
def Settings.load {α : Type} (f : Json.Format α) (defaults : α) (file : Option (String × File)) :
    Except Failure α :=
  match file with
  | none => .ok defaults
  | some (path, file) =>
    match file.text with
    | .error e => .error ⟨s!"reading config {path}", [e.message]⟩
    | .ok s =>
      match f.parse s.toList with
      | .ok a => .ok a
      | .error e => .error ⟨s!"parsing config {path}", [e.message]⟩

end TopCharts
