import TopCharts.Proofs.Feed.Lines
import TopCharts.Proofs.Json.Accepted
import TopCharts.Settings

/-!
# Settings are laid over their defaults

* `RunSettings.overlay`, `MusicSettings.overlay`, `ArticleSettings.overlay` : the settings with some
  fields of given ones and the defaults in all others, also inside the run settings;
* `Settings.Loads` : what is loaded from a file with a text between blanks;
* `Settings.load_overlays` : from an object with some fields the settings are loaded with the
  defaults in all others, from a written text as they were, and from an empty object the defaults.
-/

namespace TopCharts

open Json

/-! ## Settings with defaults -/

/-- The settings with the named fields of `c`. -/
def RunSettings.overlay (held : List String) (c : RunSettings) : RunSettings :=
  let d : RunSettings := {}
  { workers := if "workers" ∈ held then c.workers else d.workers
    epochs := if "epochs" ∈ held then c.epochs else d.epochs }

/-- The settings with the named fields of `c`, and with those named in `heldRun` inside the run
settings, if these are named at all. -/
def MusicSettings.overlay (held heldRun : List String) (c : MusicSettings) : MusicSettings :=
  let d : MusicSettings := {}
  { run := if "runtime" ∈ held then c.run.overlay heldRun else d.run
    minDurationMs :=
      if "min_chartable_duration_ms" ∈ held then c.minDurationMs else d.minDurationMs
    songs := if "songs" ∈ held then c.songs else d.songs
    playsPerEpoch := if "plays_per_epoch" ∈ held then c.playsPerEpoch else d.playsPerEpoch }

/-- The settings with the named fields of `c`, and with those named in `heldRun` inside the run
settings, if these are named at all. -/
def ArticleSettings.overlay (held heldRun : List String) (c : ArticleSettings) : ArticleSettings :=
  let d : ArticleSettings := {}
  { run := if "runtime" ∈ held then c.run.overlay heldRun else d.run
    windowSizeMs := if "window_size_ms" ∈ held then c.windowSizeMs else d.windowSizeMs
    viewsPerEpoch := if "views_per_epoch" ∈ held then c.viewsPerEpoch else d.viewsPerEpoch
    epochSpanMs := if "epoch_span_ms" ∈ held then c.epochSpanMs else d.epochSpanMs
    retainedWindows := if "retained_windows" ∈ held then c.retainedWindows else d.retainedWindows }

/-! ## Spellings -/

def RunSettings.spellings : Spellings RunSettings.record.types :=
  (Written (.word "usize"), Written (.word "u64"), ())

/-- How the fields of music settings may be spelled, the run settings as an object with the named
fields. -/
def MusicSettings.spellings (heldRun : List String) : Spellings MusicSettings.record.types :=
  (RunSettings.record.ObjectOf RunSettings.spellings heldRun, Written (.word "u64"),
    Written (.word "u64"), Written (.word "u64"), ())

def ArticleSettings.spellings (heldRun : List String) : Spellings ArticleSettings.record.types :=
  (RunSettings.record.ObjectOf RunSettings.spellings heldRun, Written (.word "u64"),
    Written (.word "u64"), Written (.word "u64"), Written (.word "u64"), ())

theorem RunSettings.accepts (c : RunSettings) : RunSettings.record.fields.Accepts
    RunSettings.spellings (RunSettings.record.toValues c) (RunSettings.record.toValues c) :=
  ⟨Format.accepts_word _, Format.accepts_word _, trivial⟩

theorem RunSettings.takes {held : List String} {c : RunSettings} {s : List Char}
    (hs : RunSettings.record.ObjectOf RunSettings.spellings held c s) :
    RunSettings.record.format.Takes s (c.overlay held) :=
  RunSettings.record.takes_object (by decide) c.accepts hs (fun _ hname => nomatch hname)

theorem MusicSettings.accepts (heldRun : List String) (c : MusicSettings) :
    MusicSettings.record.fields.Accepts (MusicSettings.spellings heldRun)
      (MusicSettings.record.toValues c)
      (MusicSettings.record.toValues { c with run := c.run.overlay heldRun }) :=
  ⟨RunSettings.takes, Format.accepts_word _, Format.accepts_word _, Format.accepts_word _, trivial⟩

theorem MusicSettings.takes {held heldRun : List String} {c : MusicSettings} {s : List Char}
    (hs : MusicSettings.record.ObjectOf (MusicSettings.spellings heldRun) held c s) :
    MusicSettings.record.format.Takes s (c.overlay held heldRun) :=
  MusicSettings.record.takes_object (by decide) (MusicSettings.accepts heldRun c) hs
    (fun _ hname => nomatch hname)

theorem ArticleSettings.accepts (heldRun : List String) (c : ArticleSettings) :
    ArticleSettings.record.fields.Accepts (ArticleSettings.spellings heldRun)
      (ArticleSettings.record.toValues c)
      (ArticleSettings.record.toValues { c with run := c.run.overlay heldRun }) :=
  ⟨RunSettings.takes, Format.accepts_word _, Format.accepts_word _, Format.accepts_word _,
    Format.accepts_word _, trivial⟩

theorem ArticleSettings.takes {held heldRun : List String} {c : ArticleSettings} {s : List Char}
    (hs : ArticleSettings.record.ObjectOf (ArticleSettings.spellings heldRun) held c s) :
    ArticleSettings.record.format.Takes s (c.overlay held heldRun) :=
  ArticleSettings.record.takes_object (by decide) (ArticleSettings.accepts heldRun c) hs
    (fun _ hname => nomatch hname)

/-! ## Written settings -/

theorem RunSettings.faithful : RunSettings.record.fields.Faithful where
  formats := ⟨Format.faithful_word _, Format.faithful_word _, trivial⟩
  distinct := by decide

theorem MusicSettings.faithful : MusicSettings.record.fields.Faithful where
  formats := ⟨(RunSettings.record.closed RunSettings.faithful).faithful, Format.faithful_word _,
    Format.faithful_word _, Format.faithful_word _, trivial⟩
  distinct := by decide

theorem ArticleSettings.faithful : ArticleSettings.record.fields.Faithful where
  formats := ⟨(RunSettings.record.closed RunSettings.faithful).faithful, Format.faithful_word _,
    Format.faithful_word _, Format.faithful_word _, Format.faithful_word _, trivial⟩
  distinct := by decide

/-! ## Files -/

namespace Settings

variable {α : Type}

/-- Whether the settings of a file with the text between blanks are the given ones. -/
def Loads (f : Format α) (s : List Char) (c : α) : Prop :=
  ∀ (path : String) (defaults : α) (before after : List Char), Blanks before → Blanks after →
    load f defaults (some (path, some (String.ofList (before ++ s ++ after)).toUTF8)) = .ok c

theorem loads_of_takes {f : Format α} {s : List Char} {c : α} (h : f.Takes s c) : Loads f s c := by
  intro path defaults before after hbefore hafter
  have hparse := h.parse hbefore hafter
  simp only [load, Feed.text_toUTF8, String.toList_ofList, hparse]

/-- **Settings are laid over their defaults,** field by field at both levels. -/
theorem load_overlays :
    (∀ (held : List String) (c : RunSettings) (s : List Char),
      RunSettings.record.ObjectOf RunSettings.spellings held c s →
        Loads RunSettings.record.format s (c.overlay held)) ∧
    (∀ (held heldRun : List String) (c : MusicSettings) (s : List Char),
      MusicSettings.record.ObjectOf (MusicSettings.spellings heldRun) held c s →
        Loads MusicSettings.record.format s (c.overlay held heldRun)) ∧
    (∀ (held heldRun : List String) (c : ArticleSettings) (s : List Char),
      ArticleSettings.record.ObjectOf (ArticleSettings.spellings heldRun) held c s →
        Loads ArticleSettings.record.format s (c.overlay held heldRun)) ∧
    (∀ c, Loads RunSettings.record.format (RunSettings.record.format.write c) c) ∧
    (∀ c, Loads MusicSettings.record.format (MusicSettings.record.format.write c) c) ∧
    (∀ c, Loads ArticleSettings.record.format (ArticleSettings.record.format.write c) c) ∧
    ∀ w : List Char, Blanks w →
      Loads RunSettings.record.format ('\x7b' :: (w ++ ['\x7d'])) {} ∧
      Loads MusicSettings.record.format ('\x7b' :: (w ++ ['\x7d'])) {} ∧
      Loads ArticleSettings.record.format ('\x7b' :: (w ++ ['\x7d'])) {} := by
  refine ⟨fun held c s hs => loads_of_takes (RunSettings.takes hs),
    fun held heldRun c s hs => loads_of_takes (MusicSettings.takes hs),
    fun held heldRun c s hs => loads_of_takes (ArticleSettings.takes hs),
    fun c => loads_of_takes (RunSettings.record.takes_write RunSettings.faithful c),
    fun c => loads_of_takes (MusicSettings.record.takes_write MusicSettings.faithful c),
    fun c => loads_of_takes (ArticleSettings.record.takes_write ArticleSettings.faithful c),
    fun w hw => ⟨?_, ?_, ?_⟩⟩
  · have hempty := RunSettings.record.objectOf_empty RunSettings.spellings {} hw
    exact loads_of_takes (RunSettings.takes hempty)
  · have hempty := MusicSettings.record.objectOf_empty (MusicSettings.spellings []) {} hw
    exact loads_of_takes (MusicSettings.takes hempty)
  · have hempty := ArticleSettings.record.objectOf_empty (ArticleSettings.spellings []) {} hw
    exact loads_of_takes (ArticleSettings.takes hempty)

/-- A member with an unknown name at both levels, no number of workers, and the greatest word. -/
theorem load_overlays_partial :
    let s := "\x7b\"runtime\":\x7b\"x\":[],\"epochs\":18446744073709551615\x7d ,".toList ++
      "\"\":null,\"songs\":0\x7d".toList
    MusicSettings.record.ObjectOf (MusicSettings.spellings ["epochs"]) ["songs", "runtime"]
        ⟨⟨1, 18446744073709551615⟩, 2, 0, 3⟩ s ∧
      load MusicSettings.record.format {} (some ("charts.json",
        some (String.ofList ("\n".toList ++ s ++ "\t ".toList)).toUTF8)) =
        .ok ⟨⟨2, 18446744073709551615⟩, 30000, 0, 250⟩ := by
  intro s
  have plain {p : String → List Char → Prop} {name : String} {value after : List Char}
      (h : p name value) (hafter : Blanks after) :
      Member.Holds p ⟨name, writeText name, [], value, after⟩ :=
    ⟨⟨[], _, [], Blanks.nil, spellsText_writeText name, Blanks.nil, by simp⟩, Blanks.nil, h, hafter⟩
  have hrun : RunSettings.record.ObjectOf RunSettings.spellings ["epochs"]
      ⟨1, 18446744073709551615⟩ "\x7b\"x\":[],\"epochs\":18446744073709551615\x7d".toList := by
    refine ⟨[⟨"x", writeText "x", [], "[]".toList, []⟩,
      ⟨"epochs", writeText "epochs", [], "18446744073709551615".toList, []⟩], .full _ _, ?_,
      by decide⟩
    simp only [List.forall_mem_cons, List.not_mem_nil, false_implies, implies_true, and_true]
    have hepochs : "18446744073709551615".toList =
        (Format.word "u64").write 18446744073709551615 := by decide +kernel
    exact ⟨plain (.empty .square Blanks.nil) Blanks.nil, plain hepochs Blanks.nil⟩
  have hs : MusicSettings.record.ObjectOf (MusicSettings.spellings ["epochs"]) ["songs", "runtime"]
      ⟨⟨1, 18446744073709551615⟩, 2, 0, 3⟩ s := by
    refine ⟨[⟨"runtime", writeText "runtime", [],
        "\x7b\"x\":[],\"epochs\":18446744073709551615\x7d".toList, [' ']⟩,
      ⟨"", writeText "", [], "null".toList, []⟩, ⟨"songs", writeText "songs", [], "0".toList, []⟩],
      .full _ _, ?_, by decide⟩
    simp only [List.forall_mem_cons, List.not_mem_nil, false_implies, implies_true, and_true]
    exact ⟨plain hrun (by decide), plain (.scalar .null) Blanks.nil, plain rfl Blanks.nil⟩
  obtain ⟨-, music, -⟩ := load_overlays
  exact ⟨hs, music _ _ _ s hs _ _ _ _ (by decide) (by decide)⟩

end Settings

end TopCharts
