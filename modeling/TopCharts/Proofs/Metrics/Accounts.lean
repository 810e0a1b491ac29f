import Mathlib.Algebra.Order.BigOperators.Group.Finset
import TopCharts.Proofs.Metrics.Growth

/-!
# Counters that account for all events

Events bring values under keys, the same value perhaps many times.

* `valuesAt events key` : the values that events bring under a key;
* `surplus k events` : how many different ones there are beyond the first `k` of each key;
* `Metrics.Accounts m received filtered events` : the counters of a run account for its events;
* `Totals.accounts` : they do, if the charts have grown by what the events bring.
-/

namespace TopCharts

variable {κ ι : Type} [DecidableEq κ] [DecidableEq ι]

/-- The values that events bring under a key. -/
def valuesAt (events : List (κ × ι)) (key : κ) : List ι :=
  (events.filter (·.1 = key)).map Prod.snd

/-- The different values under each key beyond its first `k`. -/
def surplus (k : Nat) (events : List (κ × ι)) : Nat :=
  ∑ key ∈ (events.map Prod.fst).toFinset, ((valuesAt events key).toFinset.card - k)

/-- The counters of a run account for its events. They wrap; a run that receives fewer events than
signed words can number has no counter of changes that does. -/
structure Metrics.Accounts (m : Metrics) (received filtered : Nat) (events : List (κ × ι)) :
    Prop where
  ingested : m.eventsIngested = .ofNat received
  filtered : m.eventsFiltered = .ofNat filtered
  /-- Additions, less retractions, are the different values under all keys. -/
  pairs : m.chartAdds - m.chartRemoves = .ofNat events.toFinset.card
  /-- Evictions, less stale retractions, are those that no chart has a place for. -/
  surplus : m.evictions - m.staleRetractions = .ofNat (surplus chartSize events)
  exact : received < 2 ^ 63 →
    m.chartAdds.toNat = m.chartRemoves.toNat + events.toFinset.card ∧
      m.evictions.toNat = m.staleRetractions.toNat + TopCharts.surplus chartSize events

/-! ## Events key by key -/

section

variable {events : List (κ × ι)} {keys : Finset κ} {key : κ}

omit [DecidableEq ι] in
theorem mem_valuesAt {a : ι} : a ∈ valuesAt events key ↔ (key, a) ∈ events := by
  rw [valuesAt, List.mem_map]
  constructor
  · rintro ⟨⟨_, a⟩, hmem, rfl⟩
    obtain ⟨hmem, hkey⟩ := List.mem_filter.1 hmem
    exact of_decide_eq_true hkey ▸ hmem
  · intro hmem
    exact ⟨(key, a), List.mem_filter.2 ⟨hmem, decide_eq_true rfl⟩, rfl⟩

omit [DecidableEq ι] in
theorem valuesAt_eq_nil (h : key ∉ (events.map Prod.fst).toFinset) : valuesAt events key = [] := by
  refine List.eq_nil_iff_forall_not_mem.2 fun a ha => h ?_
  exact List.mem_toFinset.2 (List.mem_map_of_mem (f := Prod.fst) (mem_valuesAt.1 ha))

variable (h : (events.map Prod.fst).toFinset ⊆ keys)

include h

omit [DecidableEq ι] in
theorem length_eq_sum_valuesAt : events.length = ∑ key ∈ keys, (valuesAt events key).length := by
  have hkeys (e : κ × ι) (he : e ∈ events) : e.1 ∈ keys :=
    h (List.mem_toFinset.2 (List.mem_map_of_mem he))
  have hcount := countP_eq_sum_keys Prod.fst hkeys fun _ => true
  simp only [List.countP_true] at hcount
  exact hcount.trans (Finset.sum_congr rfl fun key _ => (List.length_map Prod.snd).symm)

theorem card_eq_sum_valuesAt :
    events.toFinset.card = ∑ key ∈ keys, (valuesAt events key).toFinset.card := by
  have hkeys : Set.MapsTo Prod.fst (events.toFinset : Set (κ × ι)) (keys : Set κ) := fun e he =>
    h (List.mem_toFinset.2 (List.mem_map_of_mem (List.mem_toFinset.1 he)))
  rw [Finset.card_eq_sum_card_fiberwise hkeys]
  refine Finset.sum_congr rfl fun key _ => ?_
  have hvalues : (valuesAt events key).toFinset =
      (events.toFinset.filter (·.1 = key)).image Prod.snd := by
    ext a
    rw [List.mem_toFinset, mem_valuesAt, Finset.mem_image]
    constructor
    · intro ha
      exact ⟨(key, a), Finset.mem_filter.2 ⟨List.mem_toFinset.2 ha, rfl⟩, rfl⟩
    · rintro ⟨e, he, rfl⟩
      obtain ⟨hmem, rfl⟩ := Finset.mem_filter.1 he
      exact List.mem_toFinset.1 hmem
  rw [hvalues, Finset.card_image_of_injOn]
  intro a ha b hb hab
  exact Prod.ext ((Finset.mem_filter.1 ha).2.trans (Finset.mem_filter.1 hb).2.symm) hab

theorem surplus_eq_sum (k : Nat) :
    surplus k events = ∑ key ∈ keys, ((valuesAt events key).toFinset.card - k) := by
  refine Finset.sum_subset h fun key _ hkey => ?_
  rw [valuesAt_eq_nil hkey]
  exact Nat.zero_sub k

end

/-! ## Accounts -/

section

variable {m : Metrics} {t : Counter → Nat} {raised : κ → Nat} {events : List (κ × ι)}

/-- What charts have grown by, that have grown by what events bring. -/
theorem Grown.balance {k : Nat}
    (h : Grown k t raised 0 fun key => (valuesAt events key).toFinset.card)
    (hraised : ∀ key, raised key ≤ (valuesAt events key).length) :
    t .chartAdds ≤ events.length ∧ t .chartAdds = t .chartRemoves + events.toFinset.card ∧
      t .evictions = t .staleRetractions + surplus k events := by
  obtain ⟨-, core, hover⟩ := h
  have hkeys : (events.map Prod.fst).toFinset ⊆ core ∪ (events.map Prod.fst).toFinset :=
    Finset.subset_union_right
  obtain ⟨hadds, hpairs, hsurplus⟩ :=
    hover (core ∪ (events.map Prod.fst).toFinset) Finset.subset_union_left
  rw [← card_eq_sum_valuesAt hkeys] at hpairs
  rw [← surplus_eq_sum hkeys] at hsurplus
  simp only [Pi.zero_apply, Nat.zero_sub, Finset.sum_const_zero, Nat.add_zero] at hpairs hsurplus
  refine ⟨?_, hpairs, hsurplus⟩
  rw [hadds, length_eq_sum_valuesAt hkeys]
  exact Finset.sum_le_sum fun key _ => hraised key

omit [DecidableEq ι] in
theorem Grown.adds_eq {k : Nat} {sizes : κ → Nat}
    (h : Grown k t (fun key => (valuesAt events key).length) 0 sizes) :
    t .chartAdds = events.length := by
  obtain ⟨-, core, hover⟩ := h
  rw [(hover (core ∪ (events.map Prod.fst).toFinset) Finset.subset_union_left).adds,
    length_eq_sum_valuesAt Finset.subset_union_right]

/-- **Counters account for all events**, if the charts have grown by what the events bring. -/
theorem Metrics.Totals.accounts (h : m.Totals t)
    (hgrown : Grown chartSize t raised 0 fun key => (valuesAt events key).toFinset.card)
    (hraised : ∀ key, raised key ≤ (valuesAt events key).length)
    (hlength : events.length ≤ 2 * t .eventsIngested) :
    m.Accounts (t .eventsIngested) (t .eventsFiltered) events := by
  obtain ⟨hle, hpairs, hsurplus⟩ := hgrown.balance hraised
  have hevictions := hgrown.evictions_le
  have hadds : m.chartAdds = .ofNat (t .chartAdds) := h .chartAdds (by decide)
  have hremoves : m.chartRemoves = .ofNat (t .chartRemoves) := h .chartRemoves (by decide)
  have hstales : m.staleRetractions = .ofNat (t .staleRetractions) :=
    h .staleRetractions (by decide)
  have hevicted : m.evictions = .ofNat (t .evictions) := h .evictions (by decide)
  refine ⟨h .eventsIngested (by decide), h .eventsFiltered (by decide), ?_, ?_, fun hreceived => ?_⟩
  · rw [hadds, hremoves, hpairs, UInt64.ofNat_add, UInt64.add_comm, UInt64.add_sub_cancel]
  · rw [hevicted, hstales, hsurplus, UInt64.ofNat_add, UInt64.add_comm, UInt64.add_sub_cancel]
  · have hword (n : Nat) (hn : n ≤ t .chartAdds) : (UInt64.ofNat n).toNat = n :=
      UInt64.toNat_ofNat_of_lt' (show n < 2 ^ 64 by omega)
    rw [hadds, hremoves, hevicted, hstales, hword _ (Nat.le_refl _), hword _ (by omega),
      hword _ (by omega), hword _ (by omega)]
    exact ⟨hpairs, hsurplus⟩

end

end TopCharts
