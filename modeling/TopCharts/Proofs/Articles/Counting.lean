import TopCharts.Proofs.Articles.Catalog
import TopCharts.Proofs.Pipeline.Counting
import TopCharts.Proofs.Rank.Frequent
import TopCharts.Run.Articles

/-!
# What is counted for the article charts

* `articlePages s views w` : the pages of the articles viewed in a window, once per view;
* `Countable` : no page is viewed too often in a window for a word to count it;
* `workerCounts` : the numbers of the pages, for the windows that belong to a worker and are not
  before a horizon;
* `workerCounts_of_isArticle`, `workerCounts_of_not_isArticle`, `workerCounts_expire` : what one
  view adds to them, and what a later horizon takes away.
-/

namespace TopCharts.Run

open Attempt
open Std (TransOrd LawfulEqOrd)

/-! ## What is to be counted -/

def articlePages (s : ArticleSettings) (views : List PageView) (w : Window) : List String :=
  (views.filter fun v => v.isArticle ∧ Window.ofView v s.windowSizeMs = w).map PageView.page

def pageNumber (catalog : PageCatalog) (page : String) : Int64 :=
  (catalog.id? page).getD 0

/-- No page is viewed more often in a window than a word can count. -/
def Countable (s : ArticleSettings) (views : List PageView) : Prop :=
  ∀ w page, (articlePages s views w).count page < 2 ^ 63

/-- The catalog knows the pages of all views. -/
def Known (catalog : PageCatalog) (views : List PageView) : Prop :=
  ∀ v ∈ views, (catalog.id? v.page).isSome

section

variable {s : ArticleSettings} {catalog : PageCatalog} {index peers horizonMs : UInt64}
  {views more : List PageView} {v : PageView} {w : Window}

theorem articlePages_append (s : ArticleSettings) (views more : List PageView) (w : Window) :
    articlePages s (views ++ more) w = articlePages s views w ++ articlePages s more w := by
  rw [articlePages, List.filter_append, List.map_append]
  rfl

theorem articlePages_concat_of_pos (hv : v.isArticle) (hw : Window.ofView v s.windowSizeMs = w) :
    articlePages s (views ++ [v]) w = articlePages s views w ++ [v.page] := by
  have hpos : decide (v.isArticle ∧ Window.ofView v s.windowSizeMs = w) := decide_eq_true ⟨hv, hw⟩
  rw [articlePages, List.filter_append, List.map_append, List.filter_cons, if_pos hpos]
  rfl

theorem articlePages_concat_of_neg (h : ¬ (v.isArticle ∧ Window.ofView v s.windowSizeMs = w)) :
    articlePages s (views ++ [v]) w = articlePages s views w := by
  have hneg : ¬ decide (v.isArticle ∧ Window.ofView v s.windowSizeMs = w) := by
    rw [decide_eq_true_iff]
    exact h
  rw [articlePages, List.filter_append, List.filter_cons, if_neg hneg, List.filter_nil,
    List.append_nil]
  rfl

theorem mem_articlePages {page : String} :
    page ∈ articlePages s views w ↔
      ∃ v ∈ views, v.isArticle ∧ Window.ofView v s.windowSizeMs = w ∧ v.page = page := by
  simp only [articlePages, List.mem_map, List.mem_filter, decide_eq_true_eq, and_assoc]

theorem articlePages_ne_nil :
    articlePages s views w ≠ [] ↔
      ∃ v ∈ views, v.isArticle ∧ Window.ofView v s.windowSizeMs = w := by
  constructor
  · intro h
    obtain ⟨page, hpage⟩ := List.exists_mem_of_ne_nil _ h
    obtain ⟨v, hv, harticle, hw, -⟩ := mem_articlePages.1 hpage
    exact ⟨v, hv, harticle, hw⟩
  · rintro ⟨v, hv, harticle, hw⟩
    exact List.ne_nil_of_mem (mem_articlePages.2 ⟨v, hv, harticle, hw, rfl⟩)

theorem articlePages_filter {p : PageView → Bool}
    (h : ∀ v, Window.ofView v s.windowSizeMs = w → p v) :
    articlePages s (views.filter p) w = articlePages s views w := by
  rw [articlePages, List.filter_filter]
  refine congrArg _ (List.filter_congr fun v _ => ?_)
  by_cases hv : Window.ofView v s.windowSizeMs = w
  · rw [h v hv, Bool.and_true]
  · simp only [hv, and_false, decide_false, Bool.false_and]

theorem Countable.sublist (h : Countable s more) (hsub : views.Sublist more) :
    Countable s views := by
  intro w page
  have hpages : (articlePages s views w).Sublist (articlePages s more w) :=
    (hsub.filter _).map PageView.page
  exact Nat.lt_of_le_of_lt (hpages.count_le page) (h w page)

/-! ## What a worker counts -/

/-- The numbers of the pages viewed in the windows of a worker, from a horizon on. -/
def workerCounts (s : ArticleSettings) (catalog : PageCatalog) (index peers horizonMs : UInt64)
    (views : List PageView) (w : Window) : Collection Int64 :=
  if shardOf w peers = index ∧ horizonMs ≤ w.startMs then
    .ofList ((articlePages s views w).map (pageNumber catalog)) else .empty

theorem workerCounts_filter (before : List PageView) :
    workerCounts s catalog index peers horizonMs (before ++ views.filter fun v =>
        shardOf (Window.ofView v s.windowSizeMs) peers = index) =
      workerCounts s catalog index peers horizonMs (before ++ views) := by
  funext w
  rw [workerCounts, workerCounts]
  split
  · rename_i hw
    rw [articlePages_append, articlePages_append, articlePages_filter]
    rintro v rfl
    exact decide_eq_true hw.1
  · rfl

theorem workerCounts_of_not_isArticle (hv : v.isArticle = false) :
    workerCounts s catalog index peers horizonMs (views ++ [v]) =
      workerCounts s catalog index peers horizonMs views := by
  funext w
  rw [workerCounts, workerCounts, articlePages_concat_of_neg]
  rw [hv]
  exact fun h => Bool.false_ne_true h.1

theorem workerCounts_of_isArticle (hv : v.isArticle)
    (howned : shardOf (Window.ofView v s.windowSizeMs) peers = index)
    (hkept : horizonMs ≤ (Window.ofView v s.windowSizeMs).startMs) :
    workerCounts s catalog index peers horizonMs (views ++ [v]) = fun w =>
      (CountAction.increment (Window.ofView v s.windowSizeMs) (pageNumber catalog v.page) 1).tally w
        (workerCounts s catalog index peers horizonMs views w) := by
  funext w
  rw [CountAction.tally, workerCounts, workerCounts]
  by_cases hw : Window.ofView v s.windowSizeMs = w
  · subst hw
    simp only [howned, hkept, and_self, if_true]
    rw [articlePages_concat_of_pos hv rfl, List.map_append, Collection.ofList, List.map_append]
    rfl
  · rw [articlePages_concat_of_neg fun h => hw h.2, if_neg hw]

theorem workerCounts_expire {later : UInt64} (hle : horizonMs ≤ later) (w : Window) :
    (CountAction.expire fun w : Window => decide (later ≤ w.startMs)).tally w
        (workerCounts s catalog index peers horizonMs views w) =
      workerCounts s catalog index peers later views w := by
  rw [CountAction.tally, workerCounts, workerCounts]
  by_cases hw : later ≤ w.startMs
  · rw [if_pos (decide_eq_true hw)]
    simp only [hw, UInt64.le_trans hle hw]
  · rw [if_neg fun h => hw (of_decide_eq_true h), if_neg fun h => hw h.2]

theorem id?_eq_pageNumber {page : String} (h : (catalog.id? page).isSome) :
    catalog.id? page = some (pageNumber catalog page) := by
  rw [pageNumber, ← Option.get_eq_getD (h := h), Option.some_get]

theorem Known.id?_eq (h : Known catalog views) {page : String}
    (hpage : page ∈ articlePages s views w) :
    catalog.id? page = some (pageNumber catalog page) := by
  obtain ⟨v, hv, -, -, rfl⟩ := mem_articlePages.1 hpage
  exact id?_eq_pageNumber (h v hv)

theorem pageNumber_inj (hcatalog : catalog.Sound) (hsize : catalog.size ≤ 2 ^ 63)
    (hknown : Known catalog views) :
    ∀ a ∈ articlePages s views w, ∀ b ∈ articlePages s views w,
      pageNumber catalog a = pageNumber catalog b → a = b := by
  intro a ha b hb hab
  exact hcatalog.eq_of_id?_eq hsize (hknown.id?_eq ha) (hab ▸ hknown.id?_eq hb)

/-- The counts of a worker are words if no page is viewed too often. -/
theorem Countable.isWord (h : Countable s views) (hcatalog : catalog.Sound)
    (hsize : catalog.size ≤ 2 ^ 63) (hknown : Known catalog views) (w : Window) (id : Int64) :
    IsWord ((workerCounts s catalog index peers horizonMs views w).multiplicity id) := by
  rw [workerCounts]
  split
  · by_cases hid : id ∈ (articlePages s views w).map (pageNumber catalog)
    · obtain ⟨page, hpage, rfl⟩ := List.mem_map.1 hid
      rw [multiplicity_ofList_map (pageNumber_inj hcatalog hsize hknown) hpage]
      have hlt := h w page
      rw [IsWord, Int64.toInt_minValue, Int64.toInt_maxValue]
      omega
    · rw [Collection.multiplicity_ofList, List.count_eq_zero.2 hid]
      decide
  · exact show IsWord 0 by decide

end

end TopCharts.Run
