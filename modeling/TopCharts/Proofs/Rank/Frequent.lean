import Mathlib.Data.List.Dedup
import TopCharts.Proofs.Collection.Sum
import TopCharts.Proofs.Collection.Totals

/-!
# The most frequent elements of a list

* `mostFrequent k number l` : the `k` elements that `l` holds most often, with how often it does.
  Equal counts are ordered by the elements' numbers;
* `best_eq_mostFrequent` : they are the `k` best entries, if every element is an entry of its number
  and its count;
* `best_totals_ofList` : so they are the best of the totals of a list of numbers;
* `card_eq_of_mem_iff` : there are as many such entries as elements that differ.
-/

namespace TopCharts

variable {α : Type} [DecidableEq α]

/-- The order of `mostFrequent`: higher counts first, equal counts by ascending number. -/
def Precedes (number : α → Int64) (x y : α × Nat) : Prop :=
  y.2 < x.2 ∨ y.2 = x.2 ∧ number x.1 ≤ number y.1

instance (number : α → Int64) : DecidableRel (Precedes number) :=
  fun x y => inferInstanceAs (Decidable (y.2 < x.2 ∨ y.2 = x.2 ∧ number x.1 ≤ number y.1))

/-- The elements of a list with how often it holds them, in order. -/
def byFrequency (number : α → Int64) (l : List α) : List (α × Nat) :=
  (l.dedup.map fun a => (a, l.count a)).insertionSort (Precedes number)

/-- The `k` elements that a list holds most often, with how often it does. -/
def mostFrequent (k : Nat) (number : α → Int64) (l : List α) : List (α × Nat) :=
  (byFrequency number l).take k

variable {number : α → Int64} {l : List α}

theorem mem_byFrequency {x : α × Nat} :
    x ∈ byFrequency number l ↔ x.1 ∈ l ∧ x.2 = l.count x.1 := by
  rw [byFrequency, List.mem_insertionSort, List.mem_map]
  constructor
  · rintro ⟨a, ha, rfl⟩
    exact ⟨List.mem_dedup.1 ha, rfl⟩
  · rintro ⟨ha, hcount⟩
    exact ⟨x.1, List.mem_dedup.2 ha, Prod.ext rfl hcount.symm⟩

omit [DecidableEq α] in
theorem Precedes.trans {x y z : α × Nat} (hxy : Precedes number x y) (hyz : Precedes number y z) :
    Precedes number x z := by
  rcases hxy with hxy | ⟨hxy, hn⟩
  · rcases hyz with hyz | ⟨hyz, -⟩
    · exact .inl (hyz.trans hxy)
    · exact .inl (hyz ▸ hxy)
  · rcases hyz with hyz | ⟨hyz, hm⟩
    · exact .inl (hxy ▸ hyz)
    · exact .inr ⟨hyz.trans hxy, Int64.le_trans hn hm⟩

omit [DecidableEq α] in
theorem Precedes.total (x y : α × Nat) : Precedes number x y ∨ Precedes number y x := by
  rcases Nat.lt_trichotomy x.2 y.2 with h | h | h
  · exact .inr (.inl h)
  · exact (Int64.le_total (number x.1) (number y.1)).imp (fun hn => .inr ⟨h.symm, hn⟩)
      fun hn => .inr ⟨h, hn⟩
  · exact .inl (.inl h)

theorem pairwise_byFrequency (number : α → Int64) (l : List α) :
    (byFrequency number l).Pairwise fun x y => Precedes number x y ∧ x.1 ≠ y.1 := by
  have : Std.Total (Precedes number) := ⟨Precedes.total⟩
  have : IsTrans (α × Nat) (Precedes number) := ⟨fun _ _ _ => Precedes.trans⟩
  refine (List.pairwise_insertionSort (Precedes number) _).and ?_
  have hperm := List.perm_insertionSort (Precedes number) (l.dedup.map fun a => (a, l.count a))
  refine hperm.symm.pairwise (List.pairwise_map.2 ?_) fun h => h.symm
  exact l.nodup_dedup

/-- **The most frequent elements are the best entries**, if the entries are the elements' numbers
with their counts. -/
theorem best_eq_mostFrequent (k : Nat) {s : Finset Entry}
    (hnumber : ∀ a ∈ l, ∀ b ∈ l, number a = number b → a = b) (hword : ∀ a ∈ l, IsWord (l.count a))
    (hs : ∀ e, e ∈ s ↔ ∃ a ∈ l, (⟨number a, .ofInt (l.count a)⟩ : Entry) = e) :
    best k s = (mostFrequent k number l).map fun x => ⟨number x.1, .ofInt x.2⟩ := by
  have hranked : Ranked ((byFrequency number l).map fun x => ⟨number x.1, .ofInt x.2⟩) := by
    refine List.pairwise_map.2 ((pairwise_byFrequency number l).imp_of_mem ?_)
    intro x y hx hy ⟨hxy, hne⟩
    obtain ⟨hx, hcx⟩ := mem_byFrequency.1 hx
    obtain ⟨hy, hcy⟩ := mem_byFrequency.1 hy
    rw [Entry.lt_iff, Int64.lt_iff_toInt_lt]
    rcases hxy with hlt | ⟨heq, hn⟩
    · left
      rw [hcx, hcy, (hword _ hx).toInt_ofInt, (hword _ hy).toInt_ofInt, ← hcx, ← hcy]
      exact Int.ofNat_lt.2 hlt
    · refine .inr ⟨congrArg (fun n : Nat => Int64.ofInt n) heq, ?_⟩
      exact Int64.lt_of_le_of_ne hn fun h => hne (hnumber _ hx _ hy h)
  rw [best, mostFrequent, List.map_take, hranked.eq_sort]
  intro e
  rw [hs, List.mem_map]
  constructor
  · rintro ⟨x, hx, rfl⟩
    obtain ⟨hmem, hcount⟩ := mem_byFrequency.1 hx
    exact ⟨x.1, hmem, hcount ▸ rfl⟩
  · rintro ⟨a, ha, rfl⟩
    exact ⟨(a, l.count a), mem_byFrequency.2 ⟨ha, rfl⟩, rfl⟩

theorem card_eq_of_mem_iff {s : Finset Entry}
    (hnumber : ∀ a ∈ l, ∀ b ∈ l, number a = number b → a = b)
    (hs : ∀ e, e ∈ s ↔ ∃ a ∈ l, (⟨number a, .ofInt (l.count a)⟩ : Entry) = e) :
    s.card = l.toFinset.card := by
  have himage : s = l.toFinset.image fun a => ⟨number a, .ofInt (l.count a)⟩ := by
    ext e
    simp only [hs, Finset.mem_image, List.mem_toFinset]
  rw [himage, Finset.card_image_of_injOn]
  intro a ha b hb hab
  exact hnumber a (List.mem_toFinset.1 ha) b (List.mem_toFinset.1 hb) (congrArg Entry.identity hab)

theorem multiplicity_ofList_map
    (hnumber : ∀ a ∈ l, ∀ b ∈ l, number a = number b → a = b) {a : α} (ha : a ∈ l) :
    (Collection.ofList (l.map number)).multiplicity (number a) = l.count a := by
  rw [Collection.multiplicity_ofList, List.count, List.countP_map, List.count]
  refine congrArg Nat.cast (List.countP_congr fun b hb => ?_)
  simp only [Function.comp_apply, beq_iff_eq]
  exact ⟨hnumber b hb a ha, congrArg number⟩

theorem mem_totals_ofList (hnumber : ∀ a ∈ l, ∀ b ∈ l, number a = number b → a = b) {e : Entry} :
    e ∈ (Collection.ofList (l.map number)).totals ↔
      ∃ a ∈ l, (⟨number a, .ofInt (l.count a)⟩ : Entry) = e := by
  rw [Collection.mem_totals, Collection.total?_eq_some]
  have hrows : (Collection.ofList (l.map number)).rows.map Prod.fst = l.map number := by
    rw [Collection.ofList, List.map_map]
    exact List.map_id _
  rw [hrows, List.mem_map]
  constructor
  · rintro ⟨⟨a, ha, hid⟩, hscore⟩
    rw [← hid, multiplicity_ofList_map hnumber ha] at hscore
    exact ⟨a, ha, Entry.ext hid hscore⟩
  · rintro ⟨a, ha, rfl⟩
    exact ⟨⟨a, ha, rfl⟩, congrArg Int64.ofInt (multiplicity_ofList_map hnumber ha)⟩

/-- **The best totals of a list of numbers** are those of the most frequent elements. -/
theorem best_totals_ofList (k : Nat)
    (hnumber : ∀ a ∈ l, ∀ b ∈ l, number a = number b → a = b)
    (hword : ∀ a ∈ l, IsWord (l.count a)) :
    best k (Collection.ofList (l.map number)).totals =
      (mostFrequent k number l).map fun x => ⟨number x.1, .ofInt x.2⟩ :=
  best_eq_mostFrequent k hnumber hword fun _ => mem_totals_ofList hnumber

end TopCharts
