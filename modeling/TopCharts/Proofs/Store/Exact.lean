import TopCharts.Proofs.Store.View

/-!
# Stores that show the best of every key's set

* `Store.Exact s sets` : the keys are those whose set has entries, and the chart of each shows the
  `k` best of them. `Exact.topK_eq` : what the queries answer then;
* `Turns us old new` : the updates take back what only `old` has and deliver what only `new` has,
  and within a key the retractions come first;
* `Exact.applyEach` : such updates take a store that shows `old` to one that shows `new`, if scores
  only rise between the two. Neither the number of changes nor the order of the keys matters.
-/

namespace TopCharts

open Std (TransOrd LawfulEqOrd)

variable {κ : Type} {k : Nat}

/-! ## Updates that turn one family of sets into another -/

/-- The updates take `old` to `new`, within each key by retractions and then additions. -/
structure Turns (us : List (Update κ)) (old new : κ → Finset Entry) : Prop where
  removed : ∀ key e, ⟨key, .remove, e⟩ ∈ us ↔ e ∈ old key ∧ e ∉ new key
  added : ∀ key e, ⟨key, .add, e⟩ ∈ us ↔ e ∈ new key ∧ e ∉ old key
  order : us.Pairwise fun u v => u.key = v.key → u.change = .add → v.change = .add

def changing (change : Change) (us : List (Update κ)) : List (Update κ) :=
  us.filter (·.change = change)

theorem mem_changing {change : Change} {us : List (Update κ)} {u : Update κ} :
    u ∈ changing change us ↔ u ∈ us ∧ u.change = change := by
  rw [changing, List.mem_filter, decide_eq_true_iff]

/-- Updates in order are their retractions followed by their additions. -/
theorem changing_append {us : List (Update κ)}
    (h : us.Pairwise fun u v => u.change = .add → v.change = .add) :
    changing .remove us ++ changing .add us = us := by
  induction h with
  | nil => rfl
  | @cons u us hu _ ih =>
    rw [changing, changing, List.filter_cons, List.filter_cons]
    cases hc : u.change with
    | remove => exact congrArg (u :: ·) ih
    | add =>
      have hadd (v : Update κ) (hv : v ∈ us) : v.change = .add := hu v hv hc
      have hremoves : changing .remove us = [] :=
        List.filter_eq_nil_iff.2 fun v hv => by rw [hadd v hv]; decide
      rw [hremoves, List.nil_append] at ih
      show changing .remove us ++ u :: changing .add us = u :: us
      rw [hremoves, ih, List.nil_append]

theorem mem_map_entry {us : List (Update κ)} [DecidableEq κ] {key : κ} {change : Change}
    {e : Entry} :
    e ∈ (changing change (Store.addressed key us)).map Update.entry ↔ ⟨key, change, e⟩ ∈ us := by
  rw [List.mem_map]
  constructor
  · rintro ⟨u, hu, rfl⟩
    obtain ⟨hu, hc⟩ := mem_changing.1 hu
    obtain ⟨hu, hk⟩ := Store.mem_addressed.1 hu
    rw [← hc, ← hk]
    exact hu
  · intro hu
    exact ⟨_, mem_changing.2 ⟨Store.mem_addressed.2 ⟨hu, rfl⟩, rfl⟩, rfl⟩

theorem nodup_map_entry {us : List (Update κ)} (h : us.Nodup) [DecidableEq κ] (key : κ)
    (change : Change) : ((changing change (Store.addressed key us)).map Update.entry).Nodup := by
  refine List.Nodup.map_on (fun u hu v hv heq => ?_) ((h.filter _).filter _)
  obtain ⟨hu, hcu⟩ := mem_changing.1 hu
  obtain ⟨hv, hcv⟩ := mem_changing.1 hv
  exact Update.ext ((Store.mem_addressed.1 hu).2.trans (Store.mem_addressed.1 hv).2.symm)
    (hcu.trans hcv.symm) heq

theorem Turns.order_addressed [DecidableEq κ] {us : List (Update κ)} {old new : κ → Finset Entry}
    (h : Turns us old new) (key : κ) :
    (Store.addressed key us).Pairwise fun u v => u.change = .add → v.change = .add := by
  refine (h.order.filter _).imp_of_mem fun hu hv huv => huv ?_
  rw [(Store.mem_addressed.1 hu).2, (Store.mem_addressed.1 hv).2]

/-! ## Exact stores -/

namespace Store

variable [Ord κ] [TransOrd κ] {s : Store κ k} {sets : κ → Finset Entry}

/-- The keys are those whose set has entries, and their charts show the `k` best. -/
structure Exact (s : Store κ k) (sets : κ → Finset Entry) : Prop where
  known : ∀ key, (s.get? key).isSome ↔ (sets key).Nonempty
  chart : ∀ key, (s.chart key).Exact (sets key)

theorem exact_empty : (empty : Store κ k).Exact fun _ => ∅ where
  known key := by
    rw [get?_empty]
    exact iff_of_false Bool.false_ne_true Finset.not_nonempty_empty
  chart key := by
    rw [chart_empty]
    exact Chart.exact_empty

theorem Exact.topK_eq (h : s.Exact sets) (key : κ) :
    s.topK key = if (sets key).Nonempty then some (best k (sets key)) else none := by
  rw [Store.topK_eq, (h.chart key).toList_eq]
  exact if_congr (h.known key) rfl rfl

variable [LawfulEqOrd κ]

theorem Exact.retain (h : s.Exact sets) (keep : κ → Bool) :
    (s.retain keep).2.Exact fun key => if keep key then sets key else ∅ where
  known key := by
    rw [get?_retain]
    split
    · exact h.known key
    · exact iff_of_false Bool.false_ne_true Finset.not_nonempty_empty
  chart key := by
    rw [chart_retain]
    split
    · exact h.chart key
    · exact Chart.exact_empty

/-- **Updates that raise scores keep a store exact**: those of a batch, or of a single record. -/
theorem Exact.applyEach [DecidableEq κ] {old new : κ → Finset Entry} (h : s.Exact old)
    (hr : ∀ key, Raises (old key) (new key)) {us : List (Update κ)} (hus : Turns us old new) :
    (s.applyEach us).2.Exact new where
  known key := by
    rw [isSome_get?_applyEach, h.known]
    constructor
    · rintro (⟨a, ha⟩ | ⟨⟨_, change, e⟩, hu, rfl⟩)
      · obtain ⟨b, hb, -⟩ := (hr key).raised a ha
        exact ⟨b, hb⟩
      · cases change with
        | remove =>
          obtain ⟨b, hb, -⟩ := (hr _).raised e ((hus.removed _ e).1 hu).1
          exact ⟨b, hb⟩
        | add => exact ⟨e, ((hus.added _ e).1 hu).1⟩
    · rintro ⟨b, hb⟩
      by_cases hold : b ∈ old key
      · exact .inl ⟨b, hold⟩
      · exact .inr ⟨_, (hus.added key b).2 ⟨hb, hold⟩, rfl⟩
  chart key := by
    rw [chart_applyEach, ← changing_append (hus.order_addressed key), Chart.updates_append,
      Chart.updates_of_remove fun u hu => (mem_changing.1 hu).2,
      Chart.updates_of_add fun u hu => (mem_changing.1 hu).2]
    refine (h.chart key).raise (hr key) ?_ ?_
    · intro e
      rw [mem_map_entry, hus.removed]
    · intro e
      rw [mem_map_entry, hus.added]

end Store

end TopCharts
