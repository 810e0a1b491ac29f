import TopCharts.Proofs.Metrics.Totals
import TopCharts.Proofs.Store.Accounts

/-!
# What counters say about growing sets

Charts of `k` places show the best of a set for each key. While the sets grow, the counters account
for it.

* `Grown k t raised old new` : updates with the numbers `t` took sets of the sizes `old` to sets of
  the sizes `new`, with `raised` additions to each key;
* `Store.Exact.grown` : so do the updates of a store that is exact before and after;
* `Grown.trans`, `Grown.count`, `Grown.resize` : one run after another, events that are counted, and
  sizes that move alike;
* `Grown.sum` : the runs of several workers, each with the keys that it owns.
-/

namespace TopCharts

open Std (TransOrd LawfulEqOrd)

variable {κ : Type} {k : Nat} {t t' : Counter → Nat}
  {raised raised' old mid new : κ → Nat}

/-- The numbers of additions, retractions, evictions and stale retractions, over some keys. -/
structure GrownOver (k : Nat) (t : Counter → Nat) (raised old new : κ → Nat) (keys : Finset κ) :
    Prop where
  adds : t .chartAdds = ∑ key ∈ keys, raised key
  pairs : t .chartAdds + ∑ key ∈ keys, old key = t .chartRemoves + ∑ key ∈ keys, new key
  surplus : t .evictions + ∑ key ∈ keys, (old key - k) =
    t .staleRetractions + ∑ key ∈ keys, (new key - k)

/-- Updates took the sets of the keys from one size to another. What they do to all keys shows over
every finite set of keys that holds those they are about. -/
structure Grown (k : Nat) (t : Counter → Nat) (raised old new : κ → Nat) : Prop where
  evictions_le : t .evictions ≤ t .chartAdds
  grownOver : ∃ core : Finset κ, ∀ keys, core ⊆ keys → GrownOver k t raised old new keys

theorem GrownOver.trans {keys : Finset κ} (h : GrownOver k t raised old mid keys)
    (h' : GrownOver k t' raised' mid new keys) :
    GrownOver k (t + t') (raised + raised') old new keys := by
  obtain ⟨hadds, hpairs, hsurplus⟩ := h
  obtain ⟨hadds', hpairs', hsurplus'⟩ := h'
  refine ⟨?_, ?_, ?_⟩ <;> simp only [Pi.add_apply, Finset.sum_add_distrib] <;> omega

namespace Grown

theorem refl (k : Nat) (sizes : κ → Nat) : Grown k 0 0 sizes sizes :=
  ⟨Nat.le_refl 0, ∅, fun _ _ => ⟨Finset.sum_const_zero.symm, rfl, rfl⟩⟩

variable [DecidableEq κ]

theorem trans (h : Grown k t raised old mid) (h' : Grown k t' raised' mid new) :
    Grown k (t + t') (raised + raised') old new := by
  obtain ⟨hevictions, core, hover⟩ := h
  obtain ⟨hevictions', core', hover'⟩ := h'
  refine ⟨Nat.add_le_add hevictions hevictions', core ∪ core', fun keys hkeys => ?_⟩
  exact (hover keys (Finset.union_subset_left hkeys)).trans
    (hover' keys (Finset.union_subset_right hkeys))

omit [DecidableEq κ] in
theorem count (h : Grown k t raised old new) {c : Counter}
    (hc : c = .eventsIngested ∨ c = .eventsFiltered) (n : Nat) :
    Grown k (t + Pi.single c n) raised old new := by
  have hsame (d : Counter) (hd : d ≠ .eventsIngested ∧ d ≠ .eventsFiltered) :
      (t + Pi.single c n : Counter → Nat) d = t d := by
    rw [Pi.add_apply, Pi.single_eq_of_ne, Nat.add_zero]
    rcases hc with rfl | rfl
    · exact hd.1
    · exact hd.2
  obtain ⟨hevictions, core, hover⟩ := h
  refine ⟨?_, core, fun keys hkeys => ?_⟩
  · rwa [hsame .evictions (by decide), hsame .chartAdds (by decide)]
  · obtain ⟨hadds, hpairs, hsurplus⟩ := hover keys hkeys
    refine ⟨?_, ?_, ?_⟩
    · rwa [hsame .chartAdds (by decide)]
    · rwa [hsame .chartAdds (by decide), hsame .chartRemoves (by decide)]
    · rwa [hsame .evictions (by decide), hsame .staleRetractions (by decide)]

omit [DecidableEq κ] in
/-- Other sizes that move alike: key by key they are the same sizes, or nothing moves. -/
theorem resize (h : Grown k t raised old new) (old' new' : κ → Nat)
    (hsizes : ∀ key, old' key = old key ∧ new' key = new key ∨
      old key = new key ∧ old' key = new' key) : Grown k t raised old' new' := by
  obtain ⟨hevictions, core, hover⟩ := h
  refine ⟨hevictions, core, fun keys hkeys => ?_⟩
  obtain ⟨hadds, hpairs, hsurplus⟩ := hover keys hkeys
  have hmove : ∑ key ∈ keys, old' key + ∑ key ∈ keys, new key =
      ∑ key ∈ keys, new' key + ∑ key ∈ keys, old key := by
    rw [← Finset.sum_add_distrib, ← Finset.sum_add_distrib]
    exact Finset.sum_congr rfl fun key _ => by have := hsizes key; omega
  have hmove' : ∑ key ∈ keys, (old' key - k) + ∑ key ∈ keys, (new key - k) =
      ∑ key ∈ keys, (new' key - k) + ∑ key ∈ keys, (old key - k) := by
    rw [← Finset.sum_add_distrib, ← Finset.sum_add_distrib]
    exact Finset.sum_congr rfl fun key _ => by have := hsizes key; omega
  exact ⟨hadds, by omega, by omega⟩

end Grown

/-! ## Keys with owners -/

section

variable {ι : Type} [DecidableEq ι]

/-- The sizes of the keys that some owners have. -/
def sizesOf (owner : κ → ι) (owners : List ι) (sizes : κ → Nat) (key : κ) : Nat :=
  if owner key ∈ owners then sizes key else 0

theorem sizesOf_of_forall {owner : κ → ι} {owners : List ι} (h : ∀ key, owner key ∈ owners)
    (sizes : κ → Nat) : sizesOf owner owners sizes = sizes :=
  funext fun key => if_pos (h key)

theorem sizesOf_zero (owner : κ → ι) (owners : List ι) : sizesOf owner owners 0 = 0 :=
  funext fun _ => ite_self 0

variable [DecidableEq κ]

/-- **The runs of several workers** together, if every key has one owner. -/
theorem Grown.sum {owner : κ → ι} {owners : List ι} (hnodup : owners.Nodup)
    {part : ι → Counter → Nat} (h : ∀ i ∈ owners, Grown k (part i) (sizesOf owner [i] raised)
      (sizesOf owner [i] old) (sizesOf owner [i] new)) :
    Grown k (owners.map part).sum (sizesOf owner owners raised) (sizesOf owner owners old)
      (sizesOf owner owners new) := by
  induction owners with
  | nil => exact .refl k fun _ => 0
  | cons i owners ih =>
    obtain ⟨hi, hnodup⟩ := List.nodup_cons.1 hnodup
    have hsplit (sizes : κ → Nat) (key : κ) : sizesOf owner (i :: owners) sizes key =
        sizesOf owner [i] sizes key + sizesOf owner owners sizes key := by
      rw [sizesOf, sizesOf, sizesOf]
      by_cases hkey : owner key = i
      · simp [hkey, hi]
      · simp [hkey]
    have hapart (key : κ) (sizes sizes' : κ → Nat) :
        sizesOf owner [i] sizes key = 0 ∧ sizesOf owner [i] sizes' key = 0 ∨
          sizesOf owner owners sizes key = 0 ∧ sizesOf owner owners sizes' key = 0 := by
      by_cases hkey : owner key = i
      · exact .inr ⟨if_neg (hkey ▸ hi), if_neg (hkey ▸ hi)⟩
      · exact .inl ⟨if_neg (by simpa using hkey), if_neg (by simpa using hkey)⟩
    -- first the keys of one worker grow, then those of the others
    have hfirst := (h i List.mem_cons_self).resize (sizesOf owner (i :: owners) old)
      (fun key => sizesOf owner [i] new key + sizesOf owner owners old key) fun key => by
        have := hapart key old new
        have := hapart key new old
        rw [hsplit old]
        omega
    have hothers := (ih hnodup fun j hj => h j (List.mem_cons_of_mem i hj)).resize
      (fun key => sizesOf owner [i] new key + sizesOf owner owners old key)
      (sizesOf owner (i :: owners) new) fun key => by
        have := hapart key old new
        have := hapart key new old
        rw [hsplit new]
        omega
    rw [List.map_cons, List.sum_cons, funext (hsplit raised)]
    exact hfirst.trans hothers

end

/-! ## Reports of a store -/

variable [Ord κ] [TransOrd κ] [LawfulEqOrd κ] [DecidableEq κ] {s : Store κ k} {us : List (Update κ)}

/-- **Updates that turn the sets** of a store that is exact, and stays so. -/
theorem Store.Exact.grown {before after : κ → Finset Entry} (h : s.Exact before)
    (h' : (s.applyEach us).2.Exact after) (hone : ∀ key, OneEach (after key))
    (hus : Turns us before after) (hnodup : us.Nodup) :
    Grown k (reported (s.report us)) (fun key => (after key \ before key).card)
      (fun key => (before key).card) fun key => (after key).card := by
  obtain ⟨hadds, hremoves, hstales, hevictions⟩ := s.reported_report us
  refine ⟨?_, (us.map Update.key).toFinset, fun keys hkeys => ?_⟩
  · exact List.countP_mono_left fun r hr hevicted => by
      simpa using (Store.change_of_mem_report hr).2 hevicted
  · have hkeys (u : Update κ) (hu : u ∈ us) : u.key ∈ keys :=
      hkeys (List.mem_toFinset.2 (List.mem_map_of_mem hu))
    constructor
    · rw [hadds, hus.countP_add hnodup hkeys]
    · rw [hadds, hremoves, hus.balance hnodup hkeys]
    · rw [hevictions, hstales, h.balance h' hone hus hnodup hkeys]

end TopCharts
