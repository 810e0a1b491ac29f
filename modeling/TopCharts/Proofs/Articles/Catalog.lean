import Mathlib.Algebra.Group.Nat.Defs
import Mathlib.Data.Finset.Card
import Mathlib.Data.List.Induction
import TopCharts.Articles

/-!
# Numbers of pages

* `PageCatalog.Sound c` : the number of a page is a position at which the catalog lists it;
  interning keeps this (`Sound.intern`);
* `ofList_sound`, `isSome_id?_ofList` : a catalog of pages is sound, and knows these and no others;
  `size_ofList` : it counts each of them once;
* `id?_ofList_of_isPrefix` : a number is kept when more pages are interned;
* `Sound.page?_eq` : the page of a page's number is that page, so no two pages share a number
  (`Sound.eq_of_id?_eq`). Numbers are signed words: both need a catalog of at most `2 ^ 63` pages
  (`Sound.exists_page?_eq_none`);
* `numbers_of_pages` : numbers and pages correspond, in the order of first mention, and stay so.
-/

namespace TopCharts.PageCatalog

open Std (ExtTreeMap LawfulEqOrd)

variable {c : PageCatalog} {page : String}

/-- The number of a page is a position at which it is listed. -/
structure Sound (c : PageCatalog) : Prop where
  known : ∀ page id, c.id? page = some id ↔ ∃ n, c.pages[n]? = some page ∧ Int64.ofNat n = id

theorem sound_empty : empty.Sound where
  known page id := by
    show (∅ : ExtTreeMap String Int64)[page]? = some id ↔ ∃ n, (#[] : Array String)[n]? = some page ∧ _
    simp

/-! ## Interning -/

theorem intern_of_some {id : Int64} (h : c.id? page = some id) : c.intern page = (id, c) := by
  unfold id? at h
  rw [intern, h]

theorem intern_of_none (h : c.id? page = none) : c.intern page = (Int64.ofNat c.size,
    ⟨c.ids.insert page (Int64.ofNat c.size), c.pages.push page⟩) := by
  unfold id? at h
  rw [intern, h]
  rfl

theorem id?_intern (c : PageCatalog) (page other : String) (h : c.id? page = none) :
    (c.intern page).2.id? other =
      if page = other then some (Int64.ofNat c.pages.size) else c.id? other := by
  rw [intern_of_none h, id?, ExtTreeMap.getElem?_insert]
  simp only [LawfulEqOrd.compare_eq_iff_eq]
  rfl

theorem Sound.intern (h : c.Sound) (page : String) : (c.intern page).2.Sound := by
  cases hid : c.id? page with
  | some id =>
    rw [intern_of_some hid]
    exact h
  | none =>
    refine ⟨fun other id => ?_⟩
    have hpages : (c.intern page).2.pages = c.pages.push page := by rw [intern_of_none hid]
    rw [id?_intern c page other hid, hpages]
    simp only [Array.getElem?_push]
    by_cases heq : page = other
    · subst heq
      rw [if_pos rfl, Option.some_inj]
      constructor
      · rintro rfl
        exact ⟨c.pages.size, if_pos rfl, rfl⟩
      · rintro ⟨n, hn, rfl⟩
        split at hn
        · rename_i hsize
          rw [hsize]
        · rw [(h.known page _).2 ⟨n, hn, rfl⟩] at hid
          cases hid
    · rw [if_neg heq, h.known]
      refine exists_congr fun n => and_congr_left fun _ => ?_
      split
      · rename_i hsize
        rw [hsize, Array.getElem?_size, Option.some_inj]
        exact iff_of_false (Option.some_ne_none other).symm heq
      · rfl

theorem isSome_id?_intern (c : PageCatalog) (page other : String) :
    ((c.intern page).2.id? other).isSome ↔ (c.id? other).isSome ∨ page = other := by
  cases hid : c.id? page with
  | some id =>
    rw [intern_of_some hid]
    refine (or_iff_left_of_imp ?_).symm
    rintro rfl
    rw [hid]
    rfl
  | none =>
    rw [id?_intern c page other hid]
    split
    · rename_i h
      exact iff_of_true rfl (.inr h)
    · rename_i h
      exact (or_iff_left h).symm

theorem id?_intern_self (c : PageCatalog) (page : String) :
    (c.intern page).2.id? page = some (c.intern page).1 := by
  cases hid : c.id? page with
  | some id =>
    rw [intern_of_some hid]
    exact hid
  | none =>
    rw [id?_intern c page page hid, if_pos rfl, intern_of_none hid]
    rfl

theorem id?_intern_of_some {id : Int64} (h : c.id? page = some id) (other : String) :
    (c.intern other).2.id? page = some id := by
  cases hother : c.id? other with
  | some _ =>
    rw [intern_of_some hother]
    exact h
  | none =>
    have hne : other ≠ page := by
      rintro rfl
      rw [h] at hother
      cases hother
    rw [id?_intern c other page hother, if_neg hne, h]

/-! ## Catalogs of lists -/

theorem ofList_concat (pages : List String) (page : String) :
    ofList (pages ++ [page]) = ((ofList pages).intern page).2 := by
  simp [ofList]

theorem ofList_sound (pages : List String) : (ofList pages).Sound :=
  List.foldlRecOn pages _ sound_empty fun _ h page _ => h.intern page

theorem isSome_id?_ofList {pages : List String} :
    ((ofList pages).id? page).isSome ↔ page ∈ pages := by
  induction pages using List.reverseRecOn with
  | nil => simp [ofList, empty, id?]
  | append_singleton pages last ih =>
    rw [ofList_concat, isSome_id?_intern, ih, List.mem_append, List.mem_singleton, eq_comm]

theorem id?_ofList_eq_none {pages : List String} :
    (ofList pages).id? page = none ↔ page ∉ pages := by
  rw [← isSome_id?_ofList, Option.not_isSome_iff_eq_none]

theorem size_ofList_concat (pages : List String) (page : String) :
    (ofList (pages ++ [page])).size =
      if page ∈ pages then (ofList pages).size else (ofList pages).size + 1 := by
  rw [ofList_concat]
  split
  · rename_i h
    obtain ⟨id, hid⟩ := Option.isSome_iff_exists.1 (isSome_id?_ofList.2 h)
    rw [intern_of_some hid]
  · rename_i h
    simp [intern_of_none (id?_ofList_eq_none.2 h), size]

theorem size_ofList (pages : List String) : (ofList pages).size = pages.toFinset.card := by
  induction pages using List.reverseRecOn with
  | nil => rfl
  | append_singleton pages page ih =>
    rw [size_ofList_concat, ih, List.toFinset_append]
    split
    · rename_i h
      have hsub : [page].toFinset ⊆ pages.toFinset := by simpa using h
      rw [Finset.union_eq_left.2 hsub]
    · rename_i h
      have hdisj : Disjoint pages.toFinset [page].toFinset := by simpa using h
      rw [Finset.card_union_of_disjoint hdisj]
      rfl

/-- The number of a page does not depend on what is interned later. -/
theorem id?_ofList_of_isPrefix {before pages : List String} (h : before <+: pages) {id : Int64}
    (hid : (ofList before).id? page = some id) : (ofList pages).id? page = some id := by
  obtain ⟨after, rfl⟩ := h
  induction after using List.reverseRecOn with
  | nil => rwa [List.append_nil]
  | append_singleton after last ih =>
    rw [← List.append_assoc, ofList_concat]
    exact id?_intern_of_some ih last

/-! ## Numbers and their pages -/

theorem page?_eq_none_iff {id : Int64} :
    c.page? id = none ↔ id.toInt < 0 ∨ (c.size : Int) ≤ id.toInt := by
  unfold page? size
  split
  · rename_i h
    have hnonneg : 0 ≤ id.toInt := Int64.le_iff_toInt_le.1 h
    rw [Array.getElem?_eq_none_iff]
    omega
  · rename_i h
    have hneg : ¬ 0 ≤ id.toInt := fun hnonneg => h (Int64.le_iff_toInt_le.2 hnonneg)
    exact iff_of_true rfl (by omega)

theorem Sound.id?_eq (h : c.Sound) {id : Int64} (hpage : c.page? id = some page) :
    c.id? page = some id := by
  unfold page? at hpage
  split at hpage
  · rename_i hnonneg
    have hnonneg : 0 ≤ id.toInt := Int64.le_iff_toInt_le.1 hnonneg
    refine (h.known page id).2 ⟨_, hpage, ?_⟩
    rw [← Int64.ofInt_eq_ofNat, Int.toNat_of_nonneg hnonneg, Int64.ofInt_toInt]
  · cases hpage

theorem Sound.page?_eq (h : c.Sound) (hsize : c.size ≤ 2 ^ 63) {id : Int64}
    (hid : c.id? page = some id) : c.page? id = some page := by
  obtain ⟨n, hn, rfl⟩ := (h.known page id).1 hid
  have hlt : n < 2 ^ 63 := by
    obtain ⟨hlt, -⟩ := Array.getElem?_eq_some_iff.1 hn
    exact Nat.lt_of_lt_of_le hlt hsize
  have hint : (Int64.ofNat n).toInt = n := Int64.toInt_ofNat_of_lt hlt
  rw [page?, hint, if_pos]
  · exact hn
  · rw [Int64.le_iff_toInt_le, hint]
    exact Int.natCast_nonneg n

theorem Sound.eq_of_id?_eq (h : c.Sound) (hsize : c.size ≤ 2 ^ 63) {other : String} {id : Int64}
    (hpage : c.id? page = some id) (hother : c.id? other = some id) : page = other := by
  have heq := h.page?_eq hsize hpage
  rw [h.page?_eq hsize hother] at heq
  exact (Option.some.inj heq).symm

/-- The page in place `2 ^ 63` would have a number that names no page. -/
theorem Sound.exists_page?_eq_none (h : c.Sound) (hsize : 2 ^ 63 < c.size) :
    ∃ page id, c.id? page = some id ∧ c.page? id = none := by
  have hpage : c.pages[2 ^ 63]? = some c.pages[2 ^ 63] := Array.getElem?_eq_getElem hsize
  refine ⟨c.pages[2 ^ 63], Int64.ofNat (2 ^ 63), (h.known _ _).2 ⟨2 ^ 63, hpage, rfl⟩, ?_⟩
  exact page?_eq_none_iff.2 (.inl (by decide))

/-- **The numbers of pages**, as they are interned in turn. A page that is new gets the number of
the different pages before it, and a known one its old number, with nothing changed; the page has
this number from then on. The catalog counts the different pages, and there are pages for the
numbers below their count and for no others. If there are at most `2 ^ 63` of them, which is more
than any memory holds, then the number names the page, and numbers and pages correspond. The bound
is sharp: numbers are signed words. -/
theorem numbers_of_pages (pages : List String) :
    (∀ before page, before ++ [page] <+: pages →
      (page ∉ before → ((ofList before).intern page).1 = Int64.ofNat before.toFinset.card) ∧
      (page ∈ before → (ofList before).id? page = some ((ofList before).intern page).1 ∧
        ((ofList before).intern page).2 = ofList before) ∧
      (ofList pages).id? page = some ((ofList before).intern page).1) ∧
    (ofList pages).size = pages.toFinset.card ∧
    (∀ id, (ofList pages).page? id = none ↔
      id.toInt < 0 ∨ ((ofList pages).size : Int) ≤ id.toInt) ∧
    ((ofList pages).size ≤ 2 ^ 63 →
      (∀ before page, before ++ [page] <+: pages →
        (ofList pages).page? ((ofList before).intern page).1 = some page) ∧
      ∀ page id, (ofList pages).id? page = some id ↔ (ofList pages).page? id = some page) ∧
    (2 ^ 63 < (ofList pages).size →
      ∃ page id, (ofList pages).id? page = some id ∧ (ofList pages).page? id = none) := by
  have hsound := ofList_sound pages
  have hlater (before : List String) (page : String) (hstart : before ++ [page] <+: pages) :
      (ofList pages).id? page = some ((ofList before).intern page).1 := by
    refine id?_ofList_of_isPrefix hstart ?_
    rw [ofList_concat]
    exact id?_intern_self _ page
  refine ⟨fun before page hstart => ⟨fun hnew => ?_, fun hold => ?_, hlater before page hstart⟩,
    size_ofList pages, fun id => page?_eq_none_iff, fun hsize => ⟨fun before page hstart => ?_,
      fun page id => ⟨hsound.page?_eq hsize, hsound.id?_eq⟩⟩, hsound.exists_page?_eq_none⟩
  · rw [intern_of_none (id?_ofList_eq_none.2 hnew), size_ofList]
  · obtain ⟨id, hid⟩ := Option.isSome_iff_exists.1 (isSome_id?_ofList.2 hold)
    rw [intern_of_some hid]
    exact ⟨hid, rfl⟩
  · exact hsound.page?_eq hsize (hlater before page hstart)

/-- The third mention is of a known page, and no page has a negative number. -/
theorem numbers_of_pages_repeated :
    let pages := ["index.html", "news.html", "index.html"]
    (ofList pages).size ≤ 2 ^ 63 ∧
      (∀ page id, (ofList pages).id? page = some id ↔ (ofList pages).page? id = some page) ∧
      ((ofList ["index.html"]).intern "news.html").1 = 1 ∧
      ((ofList ["index.html", "news.html"]).intern "index.html").1 = 0 ∧
      (ofList pages).size = 2 ∧ (ofList pages).page? 1 = some "news.html" ∧
      (ofList pages).page? (-1) = none ∧ (ofList pages).page? 2 = none := by
  intro pages
  obtain ⟨hinterned, hcount, houtside, hnamed, -⟩ := numbers_of_pages pages
  have hsize : (ofList pages).size = 2 := hcount.trans (by decide)
  obtain ⟨hnames, hpages⟩ := hnamed (by rw [hsize]; decide)
  have hnews : ((ofList ["index.html"]).intern "news.html").1 = 1 :=
    (hinterned ["index.html"] "news.html" ⟨["index.html"], rfl⟩).1 (by decide)
  refine ⟨by rw [hsize]; decide, hpages, hnews, by decide +kernel, hsize, ?_, ?_, ?_⟩
  · rw [← hnews]
    exact hnames ["index.html"] "news.html" ⟨["index.html"], rfl⟩
  · exact (houtside (-1)).2 (.inl (by decide))
  · refine (houtside 2).2 (.inr ?_)
    rw [hsize]
    decide

end TopCharts.PageCatalog
