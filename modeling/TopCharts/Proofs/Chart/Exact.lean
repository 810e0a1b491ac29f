import TopCharts.Proofs.Chart.Sound
import TopCharts.Proofs.Rank.Best

/-!
# Charts that show the best of a set

* `Chart.Exact c s` : the chart shows the `k` best entries of `s`;
* `Exact.add` : adding an entry whose identity has no other entry in `s` adds it to the set;
* `Exact.foldl_remove` : retractions leave the best that were not taken back. The chart does not
  know which entries would follow them, so what it shows is a set of its own;
* `Exact.raise` : retracting what a rise of scores supersedes, and then adding what it brings, takes
  a chart of the old set to a chart of the new one. The gaps that the retractions leave are filled
  by the additions: an entry that stays never has to come back from outside the chart.
-/

namespace TopCharts.Chart

variable {k : Nat} {c : Chart k} {s : Finset Entry}

structure Exact (c : Chart k) (s : Finset Entry) : Prop where
  sound : c.Sound
  toList_eq : c.toList = best k s

theorem exact_empty : (empty : Chart k).Exact ∅ :=
  ⟨sound_empty, (best_empty k).symm⟩

theorem Exact.add (h : c.Exact s) {e : Entry}
    (he : ∀ a ∈ s, a.identity = e.identity → a = e) : (c.add e).2.Exact (insert e s) := by
  refine ⟨h.sound.add e, ?_⟩
  have hsame : e.insertRanked (e.others c.toList) = e.insertRanked c.toList := by
    refine Ranked.ext (h.sound.ranked_others e) (Entry.ranked_insertRanked h.sound.ranked) ?_
    intro a
    rw [Entry.mem_insertRanked, Entry.mem_insertRanked, Entry.mem_others]
    refine ⟨fun ha => ha.imp_right And.left, ?_⟩
    intro ha
    by_cases hid : a.identity = e.identity
    · refine .inl (ha.elim id fun ha => he a ?_ hid)
      exact mem_of_mem_best (h.toList_eq ▸ ha)
    · exact ha.imp_right fun ha => ⟨ha, hid⟩
  rw [h.sound.toList_add, hsame, h.toList_eq, best_insert]

theorem Exact.foldl_add (h : c.Exact s) (es : List Entry) (he : OneEach (s ∪ es.toFinset)) :
    (es.foldl (fun c e => (c.add e).2) c).Exact (s ∪ es.toFinset) := by
  induction es generalizing c s with
  | nil =>
    rw [List.toFinset_nil, Finset.union_empty]
    exact h
  | cons e es ih =>
    have hunion : s ∪ (e :: es).toFinset = insert e s ∪ es.toFinset := by
      rw [List.toFinset_cons, Finset.union_insert, Finset.insert_union]
    rw [hunion] at he ⊢
    refine ih (h.add ?_) he
    intro a ha hid
    refine he a ?_ e ?_ hid
    · exact Finset.mem_union_left _ (Finset.mem_insert_of_mem ha)
    · exact Finset.mem_union_left _ (Finset.mem_insert_self e s)

theorem Sound.exact (h : c.Sound) : c.Exact c.toList.toFinset := by
  have hcard : c.toList.toFinset.card ≤ k := (List.toFinset_card_le _).trans h.length_le
  refine ⟨h, ?_⟩
  rw [best_eq_sort hcard]
  exact Ranked.eq_sort h.ranked fun e => List.mem_toFinset.symm

theorem Sound.foldl_remove (h : c.Sound) (es : List Entry) :
    (es.foldl (fun c e => (c.remove e).2) c).Sound ∧
      ∀ a, a ∈ (es.foldl (fun c e => (c.remove e).2) c).toList ↔ a ∈ c.toList ∧ a ∉ es := by
  induction es generalizing c with
  | nil => exact ⟨h, fun a => ⟨fun ha => ⟨ha, List.not_mem_nil⟩, And.left⟩⟩
  | cons e es ih =>
    obtain ⟨hs, hmem⟩ := ih (h.remove e)
    refine ⟨hs, fun a => (hmem a).trans ?_⟩
    rw [h.mem_remove, List.mem_cons, not_or]
    tauto

theorem Exact.foldl_remove (h : c.Exact s) (es : List Entry) :
    (es.foldl (fun c e => (c.remove e).2) c).Exact ((best k s).toFinset.filter (· ∉ es)) := by
  obtain ⟨hs, hmem⟩ := h.sound.foldl_remove es
  have hset : (es.foldl (fun c e => (c.remove e).2) c).toList.toFinset =
      (best k s).toFinset.filter (· ∉ es) := by
    ext a
    rw [List.mem_toFinset, hmem, Finset.mem_filter, List.mem_toFinset, h.toList_eq]
  exact hset ▸ hs.exact

/-- **A rise of scores keeps a chart exact**, if what it supersedes is taken back before what it
brings is delivered. -/
theorem Exact.raise {old new : Finset Entry} (h : c.Exact old) (hr : Raises old new)
    {removes adds : List Entry} (hremoves : ∀ e, e ∈ removes ↔ e ∈ old ∧ e ∉ new)
    (hadds : ∀ e, e ∈ adds ↔ e ∈ new ∧ e ∉ old) :
    (adds.foldl (fun c e => (c.add e).2) (removes.foldl (fun c e => (c.remove e).2) c)).Exact
      new := by
  have hset : (best k old).toFinset.filter (· ∉ removes) ∪ adds.toFinset =
      (best k old).toFinset ∩ new ∪ new \ old := by
    ext e
    rw [Finset.mem_union, Finset.mem_filter, List.mem_toFinset, List.mem_toFinset, hremoves, hadds,
      Finset.mem_union, Finset.mem_inter, List.mem_toFinset, Finset.mem_sdiff]
    have : e ∈ best k old → e ∈ old := mem_of_mem_best
    tauto
  have hsub : (best k old).toFinset ∩ new ∪ new \ old ⊆ new :=
    Finset.union_subset Finset.inter_subset_right Finset.sdiff_subset
  have hexact := (h.foldl_remove removes).foldl_add adds fun a ha b hb => by
    rw [hset] at ha hb
    exact hr.oneEach_new a (hsub ha) b (hsub hb)
  refine ⟨hexact.sound, ?_⟩
  rw [hexact.toList_eq, hset, hr.best_eq]

end TopCharts.Chart
