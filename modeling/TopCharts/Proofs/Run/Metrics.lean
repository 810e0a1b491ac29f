import TopCharts.Proofs.Articles.Metrics
import TopCharts.Proofs.Music.Metrics

/-!
# The counters at the end of a run

The last line that a run prints shows its counters. They add up over all workers and epochs, and
neither the number of workers nor the order of updates has a part in them.

* `final_counters` : in both programs they account for every event and every change of a chart.
-/

namespace TopCharts.Run

/-- **The final counters account for every event and chart change.** If a run prints, its last line
shows counters that account for the events it has received, whatever the settings, the feed and the
number of workers: for the views of the article charts, if no more pages are known than signed words
can number, and for the plays of the music charts. -/
theorem final_counters (s : ArticleSettings) (views : Feed.Contents PageView) (t : MusicSettings)
    (plays : Feed.Contents Play) (hsize : (viewCatalog views.records).size ≤ 2 ^ 63) :
    (∀ lines, articleLines s views = .ok lines →
      ∃ received m, ArticleAccounts s views lines received m) ∧
    ∀ lines, musicLines t plays = .ok lines →
      ∃ received m, MusicAccounts t plays lines received m :=
  ⟨fun _ h => exists_articleAccounts hsize h, fun _ h => exists_musicAccounts h⟩

/-- Views of seven pages in one window, one of them twice, and a view that is not of an article. -/
def sevenPages : Feed.Contents PageView :=
  ⟨["a", "b", "c", "d", "e", "f", "g", "g"].map (⟨"ann", ·, "finance", "ARTICLE", 5000⟩) ++
    [⟨"bob", "a", "finance", "", 5999⟩], 1⟩

/-- Two pages have no place in the chart of the window. One of them comes back: its old count has
been pushed out and is not found, and the new one pushes out another page. Each epoch generates one
view more. The plays count four changes of the only song: in each epoch one for its genre, and one
for the chart of all songs. -/
theorem final_counters_two_epochs :
    let s : ArticleSettings :=
      { run := ⟨2, 2⟩, windowSizeMs := 1000, viewsPerEpoch := 1,
        epochSpanMs := 1000, retainedWindows := 0 }
    (viewCatalog sevenPages.records).size ≤ 2 ^ 63 ∧
      ((∀ lines, articleLines s sevenPages = .ok lines →
        ∃ received m, ArticleAccounts s sevenPages lines received m) ∧
      ∀ lines, musicLines twoEpochs threePlays = .ok lines →
        ∃ received m, MusicAccounts twoEpochs threePlays lines received m) ∧
      (articleLines s sevenPages).toOption.bind List.getLast? = some (
        "\x7b\"label\":\"top_articles\",\"events_ingested\":11,\"events_filtered\":2," ++
        "\"chart_adds\":10,\"chart_removes\":1,\"stale_retractions\":1,\"evictions\":3," ++
        "\"charts_peak\":2,\"elapsed_ms\":null\x7d") ∧
      (musicLines twoEpochs threePlays).toOption.bind List.getLast? = some (
        "\x7b\"label\":\"music_charts\",\"events_ingested\":7,\"events_filtered\":2," ++
        "\"chart_adds\":4,\"chart_removes\":2,\"stale_retractions\":0,\"evictions\":0," ++
        "\"charts_peak\":2,\"elapsed_ms\":null\x7d") :=
  ⟨by decide +kernel, final_counters _ sevenPages _ threePlays (by decide +kernel),
    by decide +kernel, by cbv⟩

end TopCharts.Run
