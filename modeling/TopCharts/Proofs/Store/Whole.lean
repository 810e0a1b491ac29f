import TopCharts.Proofs.Store.Exact

/-!
# Stores with room for everything

As long as no key has more entries than its chart has room for, nothing is ever pushed out, and a
chart shows all entries of its key, whether scores rise or fall.

* `Chart.Whole c s` : the chart shows all entries of `s`. `Whole.remove`, `Whole.add` : a retraction
  finds its entry, and an addition of a new identity pushes none out, if there is room for it;
* `Chart.Quiet c us` : so it is with all of these updates, in turn;
* `Store.quiet_applyEach` : the outcomes of updates that are quiet for every key, in whatever way
  the keys alternate;
* `Store.whole_applyEach` : updates that turn one family of sets into another, within each key by
  retractions and then additions, are quiet and leave charts that show the new sets. If an addition
  came first, it could push out an entry that stays.
-/

namespace TopCharts

open Std (TransOrd LawfulEqOrd)

variable {κ : Type} {k : Nat}

/-! ## A chart -/

namespace Chart

variable {c : Chart k} {s : Finset Entry} {e : Entry} {us : List (Update κ)}

/-- The chart shows all entries of a set. -/
structure Whole (c : Chart k) (s : Finset Entry) : Prop where
  exact : c.Exact s
  card_le : s.card ≤ k

theorem whole_empty : (empty : Chart k).Whole ∅ :=
  ⟨exact_empty, Nat.zero_le k⟩

theorem Whole.toList_eq (h : c.Whole s) : c.toList = s.sort :=
  h.exact.toList_eq.trans (best_eq_sort h.card_le)

theorem Whole.mem_iff (h : c.Whole s) : e ∈ c.toList ↔ e ∈ s := by
  rw [h.toList_eq, Finset.mem_sort]

theorem Whole.remove (h : c.Whole s) (he : e ∈ s) :
    (c.remove e).1 = true ∧ (c.remove e).2.Whole (s.erase e) := by
  refine ⟨?_, ?_, ?_⟩
  · rw [remove_fst]
    exact decide_eq_true (h.mem_iff.2 he)
  · have hset : (c.remove e).2.toList.toFinset = s.erase e := by
      ext a
      rw [List.mem_toFinset, h.exact.sound.mem_remove, h.mem_iff, Finset.mem_erase]
    exact hset ▸ (h.exact.sound.remove e).exact
  · exact (Finset.card_le_card (Finset.erase_subset e s)).trans h.card_le

theorem Whole.add (h : c.Whole s) (hnew : ∀ a ∈ s, a.identity ≠ e.identity) (hroom : s.card < k) :
    (c.add e).1 = none ∧ (c.add e).2.Whole (insert e s) := by
  have he : e ∉ s := fun he => hnew e he rfl
  refine ⟨?_, h.exact.add fun a ha hid => absurd hid (hnew a ha), ?_⟩
  · have hothers : e.others c.toList = c.toList := by
      refine List.filter_eq_self.2 fun a ha => decide_eq_true ?_
      exact hnew a (h.mem_iff.1 ha)
    have hlength : (e.insertRanked c.toList).length ≤ k := by
      rw [Entry.length_insertRanked (mt h.mem_iff.1 he), h.toList_eq, Finset.length_sort]
      exact hroom
    have hevicted := h.exact.sound.evicted_add e
    rw [hothers, List.drop_of_length_le hlength] at hevicted
    exact Option.toList_eq_nil_iff.1 hevicted
  · rw [Finset.card_insert_of_notMem he]
    exact hroom

/-- The retraction finds its entry, or the addition pushes none out. -/
def Accepts (c : Chart k) (change : Change) (e : Entry) : Prop :=
  match change with
  | .add => (c.add e).1 = none
  | .remove => (c.remove e).1 = true

/-- In turn, every retraction finds its entry, and no addition pushes one out. -/
def Quiet (c : Chart k) : List (Update κ) → Prop
  | [] => True
  | u :: us => c.Accepts u.change u.entry ∧ (c.update u.change u.entry).Quiet us

theorem Quiet.append {vs : List (Update κ)} (hus : c.Quiet us) (hvs : (c.updates us).Quiet vs) :
    c.Quiet (us ++ vs) := by
  induction us generalizing c with
  | nil => exact hvs
  | cons u us ih => exact ⟨hus.1, ih hus.2 hvs⟩

theorem Whole.removes (h : c.Whole s) (hchange : ∀ u ∈ us, u.change = .remove)
    (hnodup : (us.map Update.entry).Nodup) (hmem : ∀ u ∈ us, u.entry ∈ s) :
    c.Quiet us ∧ (c.updates us).Whole (s \ (us.map Update.entry).toFinset) := by
  induction us generalizing c s with
  | nil =>
    rw [List.map_nil, List.toFinset_nil, Finset.sdiff_empty]
    exact ⟨trivial, h⟩
  | cons u us ih =>
    rw [List.map_cons, List.nodup_cons] at hnodup
    obtain ⟨hfound, hwhole⟩ := h.remove (hmem u List.mem_cons_self)
    have hrest := ih hwhole (fun v hv => hchange v (List.mem_cons_of_mem u hv)) hnodup.2 fun v hv =>
      Finset.mem_erase.2 ⟨fun heq => hnodup.1 (heq ▸ List.mem_map_of_mem hv),
        hmem v (List.mem_cons_of_mem u hv)⟩
    rw [List.map_cons, List.toFinset_cons, Finset.sdiff_insert, ← Finset.erase_sdiff_comm, Quiet,
      updates, List.foldl_cons, hchange u List.mem_cons_self]
    exact ⟨⟨hfound, hrest.1⟩, hrest.2⟩

theorem Whole.adds (h : c.Whole s) (hchange : ∀ u ∈ us, u.change = .add)
    (hnodup : (us.map Update.entry).Nodup) (hnew : ∀ u ∈ us, u.entry ∉ s)
    (hone : OneEach (s ∪ (us.map Update.entry).toFinset))
    (hroom : (s ∪ (us.map Update.entry).toFinset).card ≤ k) :
    c.Quiet us ∧ (c.updates us).Whole (s ∪ (us.map Update.entry).toFinset) := by
  induction us generalizing c s with
  | nil =>
    rw [List.map_nil, List.toFinset_nil, Finset.union_empty]
    exact ⟨trivial, h⟩
  | cons u us ih =>
    have hu : u.entry ∉ s := hnew u List.mem_cons_self
    rw [List.map_cons, List.nodup_cons] at hnodup
    rw [List.map_cons, List.toFinset_cons, Finset.union_insert, ← Finset.insert_union] at hone hroom ⊢
    have hsub : insert u.entry s ⊆ insert u.entry s ∪ (us.map Update.entry).toFinset :=
      Finset.subset_union_left
    obtain ⟨hevicted, hwhole⟩ := h.add (e := u.entry)
      (fun a ha hid => hu (hone a (hsub (Finset.mem_insert_of_mem ha)) u.entry
        (hsub (Finset.mem_insert_self _ _)) hid ▸ ha))
      (by
        have hcard := (Finset.card_le_card hsub).trans hroom
        rw [Finset.card_insert_of_notMem hu] at hcard
        exact hcard)
    have hrest := ih hwhole (fun v hv => hchange v (List.mem_cons_of_mem u hv)) hnodup.2
      (fun v hv hmem => by
        rcases Finset.mem_insert.1 hmem with heq | hmem
        · exact hnodup.1 (heq ▸ List.mem_map_of_mem hv)
        · exact hnew v (List.mem_cons_of_mem u hv) hmem) hone hroom
    rw [Quiet, updates, List.foldl_cons, hchange u List.mem_cons_self]
    exact ⟨⟨hevicted, hrest.1⟩, hrest.2⟩

end Chart

/-! ## A store -/

namespace Store

variable [Ord κ] [TransOrd κ] [LawfulEqOrd κ] [DecidableEq κ] {s : Store κ k} {us : List (Update κ)}

omit [LawfulEqOrd κ] [DecidableEq κ] in
theorem outcome_of_accepts {u : Update κ} (h : (s.chart u.key).Accepts u.change u.entry) :
    (s.applyUpdate u).1.stale = false ∧ (s.applyUpdate u).1.evicted = none := by
  rw [← getD_charts] at h
  obtain ⟨key, change, e⟩ := u
  cases change with
  | add => exact ⟨rfl, h⟩
  | remove => exact ⟨congrArg (! ·) h, rfl⟩

theorem quiet_applyEach (h : ∀ key, (s.chart key).Quiet (addressed key us)) :
    ∀ o ∈ (s.applyEach us).1, o.stale = false ∧ o.evicted = none := by
  induction us generalizing s with
  | nil => exact fun o ho => absurd ho List.not_mem_nil
  | cons u us ih =>
    intro o ho
    rw [applyEach_cons] at ho
    have hu := h u.key
    rw [addressed_cons, if_pos rfl] at hu
    rcases List.mem_cons.1 ho with rfl | ho
    · exact outcome_of_accepts hu.1
    · refine ih (fun key => ?_) o ho
      rw [chart_applyUpdate]
      split
      · rename_i hkey
        rw [← hkey]
        exact hu.2
      · rename_i hkey
        have hrest := h key
        rw [addressed_cons, if_neg hkey] at hrest
        exact hrest

/-- **Updates between sets that there is room for** are quiet and leave charts that show the new
sets. -/
theorem whole_applyEach {old new : κ → Finset Entry} (h : ∀ key, (s.chart key).Whole (old key))
    (hone : ∀ key, OneEach (new key)) (hroom : ∀ key, (new key).card ≤ k) (hnodup : us.Nodup)
    (hus : Turns us old new) :
    (∀ key, ((s.applyEach us).2.chart key).Whole (new key)) ∧
      ∀ o ∈ (s.applyEach us).1, o.stale = false ∧ o.evicted = none := by
  have hkey (key : κ) : (s.chart key).Quiet (addressed key us) ∧
      ((s.chart key).updates (addressed key us)).Whole (new key) := by
    rw [← changing_append (hus.order_addressed key), Chart.updates_append]
    obtain ⟨hremoves, hkept⟩ := (h key).removes (fun u hu => (mem_changing.1 hu).2)
      (nodup_map_entry hnodup key .remove) fun u hu => by
        have hu := mem_map_entry.1 (List.mem_map_of_mem hu)
        exact ((hus.removed key _).1 hu).1
    have hset : old key \ ((changing .remove (addressed key us)).map Update.entry).toFinset ∪
        ((changing .add (addressed key us)).map Update.entry).toFinset = new key := by
      ext e
      rw [Finset.mem_union, Finset.mem_sdiff, List.mem_toFinset, List.mem_toFinset, mem_map_entry,
        mem_map_entry, hus.removed, hus.added]
      tauto
    obtain ⟨hadds, hnew⟩ := hkept.adds (fun u hu => (mem_changing.1 hu).2)
      (nodup_map_entry hnodup key .add) (fun u hu hmem => by
        have hu := mem_map_entry.1 (List.mem_map_of_mem hu)
        exact ((hus.added key _).1 hu).2 (Finset.mem_sdiff.1 hmem).1)
      (hset ▸ hone key) (hset ▸ hroom key)
    exact ⟨hremoves.append hadds, hset ▸ hnew⟩
  refine ⟨fun key => ?_, quiet_applyEach fun key => (hkey key).1⟩
  rw [chart_applyEach]
  exact (hkey key).2

end Store

end TopCharts
