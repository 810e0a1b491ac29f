import TopCharts.Proofs.Store.Exact
import TopCharts.Proofs.Store.Report

/-!
# What a store reports when its sets turn

Updates turn one family of sets into another, and the store shows the best of both.

* `countP_eq_sum_keys` : a list is counted key by key;
* `Exact.novel` : no addition brings an identity that its chart ranks in its turn;
* `Turns.countP_add`, `Turns.countP_remove` : the additions are what the sets gain, and the
  retractions what they lose, over any keys that hold those of the updates;
* `Turns.balance` : so additions, less retractions, are what the sets grow by;
* `ranked_applyEach`, `Exact.sum_card` : how much is ranked under some keys, after updates and out
  of all that the sets hold;
* `Exact.balance` : and evictions, less stale retractions, are what they grow by beyond the places
  of their charts.
-/

namespace TopCharts

open Std (TransOrd LawfulEqOrd)

variable {κ : Type} [Ord κ] [TransOrd κ] [LawfulEqOrd κ] [DecidableEq κ] {k : Nat}
  {us : List (Update κ)} {old new : κ → Finset Entry}

theorem length_best (k : Nat) (s : Finset Entry) : (best k s).length = min k s.card := by
  rw [best, List.length_take, Finset.length_sort]

/-! ## Additions and retractions -/

omit [Ord κ] [TransOrd κ] [LawfulEqOrd κ] in
theorem countP_eq_sum_keys {α : Type} (key : α → κ) {l : List α} {keys : Finset κ}
    (hkeys : ∀ a ∈ l, key a ∈ keys) (p : α → Bool) :
    l.countP p = ∑ x ∈ keys, (l.filter (key · = x)).countP p := by
  induction l with
  | nil => exact (Finset.sum_const_zero).symm
  | cons a l ih =>
    have hone (x : κ) : ((a :: l).filter (key · = x)).countP p =
        (l.filter (key · = x)).countP p + if key a = x then (if p a then 1 else 0) else 0 := by
      rw [List.filter_cons]
      simp only [decide_eq_true_eq]
      split
      · exact List.countP_cons
      · rfl
    simp only [hone, Finset.sum_add_distrib]
    rw [Finset.sum_ite_eq, if_pos (hkeys a List.mem_cons_self),
      ← ih fun b hb => hkeys b (List.mem_cons_of_mem a hb), List.countP_cons]

omit [Ord κ] [TransOrd κ] [LawfulEqOrd κ] in
theorem countP_change_eq (hnodup : us.Nodup) {keys : Finset κ} (hkeys : ∀ u ∈ us, u.key ∈ keys)
    {change : Change} {sets : κ → Finset Entry}
    (h : ∀ key e, ⟨key, change, e⟩ ∈ us ↔ e ∈ sets key) :
    us.countP (·.change = change) = ∑ key ∈ keys, (sets key).card := by
  rw [countP_eq_sum_keys Update.key hkeys]
  refine Finset.sum_congr rfl fun key _ => ?_
  have hset :
      ((changing change (Store.addressed key us)).map Update.entry).toFinset = sets key := by
    ext e
    rw [List.mem_toFinset, mem_map_entry, h]
  rw [← hset, List.toFinset_card_of_nodup (nodup_map_entry hnodup key change), List.length_map,
    changing, ← List.countP_eq_length_filter]
  rfl

namespace Turns

variable (hus : Turns us old new) (hnodup : us.Nodup) {keys : Finset κ}
  (hkeys : ∀ u ∈ us, u.key ∈ keys)

include hus hnodup hkeys

omit [Ord κ] [TransOrd κ] [LawfulEqOrd κ] in
theorem countP_add : us.countP (·.change = .add) = ∑ key ∈ keys, (new key \ old key).card :=
  countP_change_eq hnodup hkeys fun key e => by rw [hus.added, Finset.mem_sdiff]

omit [Ord κ] [TransOrd κ] [LawfulEqOrd κ] in
theorem countP_remove : us.countP (·.change = .remove) = ∑ key ∈ keys, (old key \ new key).card :=
  countP_change_eq hnodup hkeys fun key e => by rw [hus.removed, Finset.mem_sdiff]

omit [Ord κ] [TransOrd κ] [LawfulEqOrd κ] in
/-- **Additions, less retractions,** are what the sets grow by. -/
theorem balance : us.countP (·.change = .add) + ∑ key ∈ keys, (old key).card =
    us.countP (·.change = .remove) + ∑ key ∈ keys, (new key).card := by
  rw [hus.countP_add hnodup hkeys, hus.countP_remove hnodup hkeys, ← Finset.sum_add_distrib,
    ← Finset.sum_add_distrib]
  refine Finset.sum_congr rfl fun key _ => ?_
  rw [Finset.card_sdiff_add_card, Finset.card_sdiff_add_card, Finset.union_comm]

end Turns

/-! ## Evictions and stale retractions -/

namespace Store

variable {s : Store κ k}

omit [LawfulEqOrd κ] [DecidableEq κ] in
theorem novel_of_forall (h : ∀ before u after, us = before ++ u :: after → u.change = .add →
      ∀ a ∈ ((s.applyEach before).2.chart u.key).toList, a.identity ≠ u.entry.identity) :
    s.Novel us := by
  induction us generalizing s with
  | nil => trivial
  | cons u us ih =>
    refine ⟨h [] u us rfl, ih fun before v after hus => ?_⟩
    exact h (u :: before) v after (congrArg (u :: ·) hus)

/-- What a chart ranks in the turn of an addition stays, or has been added before, and so has
another identity. -/
theorem Exact.novel (h : s.Exact old) (hone : ∀ key, OneEach (new key)) (hus : Turns us old new)
    (hnodup : us.Nodup) : s.Novel us := by
  refine novel_of_forall fun before u after hsplit hadd a ha hid => ?_
  have hu : u ∈ us := hsplit ▸ List.mem_append_right before List.mem_cons_self
  obtain ⟨key, change, e⟩ := u
  cases hadd
  obtain ⟨hnew, hold⟩ := (hus.added key e).1 hu
  rw [chart_applyEach] at ha
  rcases (h.chart key).sound.mem_updates ha with ⟨ha, hkept⟩ | ⟨v, hv, hv', rfl⟩
  · -- a retraction of it would have to come later, but the retractions of a key come first
    have haold : a ∈ old key := mem_of_mem_best ((h.chart key).toList_eq ▸ ha)
    have hanew : a ∈ new key := by
      by_contra hgone
      have hremove := (hus.removed key a).2 ⟨haold, hgone⟩
      rw [hsplit, List.mem_append, List.mem_cons] at hremove
      rcases hremove with hremove | hremove | hremove
      · exact hkept _ (mem_addressed.2 ⟨hremove, rfl⟩) rfl rfl
      · cases hremove
      · have horder := (List.pairwise_append.1 (hsplit ▸ hus.order)).2.1
        cases (List.pairwise_cons.1 horder).1 _ hremove rfl rfl
    exact hold (hone key a hanew e hnew hid ▸ haold)
  · obtain ⟨hv, hkey⟩ := mem_addressed.1 hv
    have hvus : v ∈ us := hsplit ▸ List.mem_append_left _ hv
    have hvadd : v = ⟨key, .add, v.entry⟩ := Update.ext hkey hv' rfl
    have hvnew : v.entry ∈ new key := ((hus.added key v.entry).1 (hvadd ▸ hvus)).1
    have hsame : v = ⟨key, .add, e⟩ := by rw [hvadd, hone key _ hvnew e hnew hid]
    rw [hsplit] at hnodup
    exact List.disjoint_of_nodup_append hnodup hv (hsame ▸ List.mem_cons_self)

omit [LawfulEqOrd κ] [DecidableEq κ] in
/-- An exact store ranks what its sets have beyond those that have no place. -/
theorem Exact.sum_card (h : s.Exact old) (keys : Finset κ) :
    ∑ key ∈ keys, (old key).card =
      ∑ key ∈ keys, (s.chart key).size + ∑ key ∈ keys, ((old key).card - k) := by
  rw [← Finset.sum_add_distrib]
  refine Finset.sum_congr rfl fun key _ => ?_
  have hsize : (s.chart key).size = min k (old key).card := by
    rw [← length_best, ← (h.chart key).toList_eq]
    rfl
  omega

theorem ranked_applyEach {keys : Finset κ} (hkeys : ∀ u ∈ us, u.key ∈ keys) :
    (s.applyEach us).2.ranked + ∑ key ∈ keys, (s.chart key).size =
      s.ranked + ∑ key ∈ keys, ((s.applyEach us).2.chart key).size := by
  have hall : ∀ key ∈ s.keys, key ∈ keys ∪ s.keys.toFinset := fun key hkey =>
    Finset.mem_union_right _ (List.mem_toFinset.2 hkey)
  have hall' : ∀ key ∈ (s.applyEach us).2.keys, key ∈ keys ∪ s.keys.toFinset := by
    intro key hkey
    rw [mem_keys, isSome_get?_applyEach, ← mem_keys] at hkey
    rcases hkey with hkey | ⟨u, hu, rfl⟩
    · exact hall key hkey
    · exact Finset.mem_union_left _ (hkeys u hu)
  have hothers : ∀ key ∈ (keys ∪ s.keys.toFinset) \ keys,
      ((s.applyEach us).2.chart key).size = (s.chart key).size := by
    intro key hkey
    have hnone : addressed key us = [] := addressed_eq_nil.2 fun ⟨u, hu, hukey⟩ =>
      (Finset.mem_sdiff.1 hkey).2 (hukey ▸ hkeys u hu)
    rw [chart_applyEach, hnone]
    rfl
  have hsub : keys ⊆ keys ∪ s.keys.toFinset := Finset.subset_union_left
  rw [ranked_eq_sum hall, ranked_eq_sum hall', ← Finset.sum_sdiff hsub, ← Finset.sum_sdiff hsub,
    Finset.sum_congr rfl hothers]
  omega

/-- **Evictions, less stale retractions,** are what the sets grow by beyond the places of the
charts. -/
theorem Exact.balance (h : s.Exact old) (h' : (s.applyEach us).2.Exact new)
    (hone : ∀ key, OneEach (new key)) (hus : Turns us old new) (hnodup : us.Nodup)
    {keys : Finset κ} (hkeys : ∀ u ∈ us, u.key ∈ keys) :
    evictions (s.report us) + ∑ key ∈ keys, ((old key).card - k) =
      stales (s.report us) + ∑ key ∈ keys, ((new key).card - k) := by
  have hsound : s.Sound := fun key => (h.chart key).sound
  have hreport := ranked_report hsound (h.novel hone hus hnodup)
  have hpairs := hus.balance hnodup hkeys
  have hranked := s.ranked_applyEach hkeys
  have hold := h.sum_card keys
  have hnew := h'.sum_card keys
  omega

end Store

end TopCharts
