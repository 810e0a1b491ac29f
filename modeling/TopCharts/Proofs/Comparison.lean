import Mathlib.Data.List.Sort
import Mathlib.Data.Prod.Lex
import Mathlib.Order.Std

/-!
# What a comparison decides, and sorting by it

* `Decides cmp before` : the relation `before` is a strict total order, and `cmp` says of any two
  values which is before the other, or that they are one value. `Decides.of_lt_iff` : it is enough
  that a lawful comparison says `lt` just when `before` holds;
* `compareLex_eq_lt` : comparing one field and then the rest is the lexicographic order;
* `pairwise_mergeSort_isLE`, `pairwise_mergeSort_lt` : a sorted list is in order;
* `eq_of_pairwise_compare_lt`, `eq_of_perm_of_pairwise_isLE` : lists in order are told apart by
  their members;
* `Sorts cmp before` : a comparison that decides an order and sorts all permutations of a list alike.
  `Sorts.of_lt_iff` : a lawful comparison does.
-/

namespace TopCharts

open Std (TransCmp LawfulEqCmp LawfulEqOrd)

variable {α β γ : Type} {cmp : α → α → Ordering} {before : α → α → Prop}

/-- The comparison decides the strict total order `before`; only equal values compare equal. -/
structure Decides (cmp : α → α → Ordering) (before : α → α → Prop) : Prop where
  order : IsStrictTotalOrder α before
  lt_iff : ∀ a b, cmp a b = .lt ↔ before a b
  eq_iff : ∀ a b, cmp a b = .eq ↔ a = b
  gt_iff : ∀ a b, cmp a b = .gt ↔ before b a

theorem Decides.of_lt_iff [TransCmp cmp] [LawfulEqCmp cmp]
    (h : ∀ a b, cmp a b = .lt ↔ before a b) : Decides cmp before where
  lt_iff := h
  eq_iff _ _ := LawfulEqCmp.compare_eq_iff_eq
  gt_iff a b := by
    rw [← h]
    exact Std.OrientedCmp.gt_iff_lt
  order := {
    trichotomous := by
      intro a b hab hba
      rw [← h] at hab hba
      cases hcmp : cmp a b with
      | lt => exact absurd hcmp hab
      | eq => exact LawfulEqCmp.eq_of_compare hcmp
      | gt => exact absurd (Std.OrientedCmp.lt_of_gt hcmp) hba
    irrefl := by
      intro a ha
      rw [← h] at ha
      exact absurd (ha.symm.trans Std.ReflCmp.compare_self) (by decide)
    trans := by
      intro a b c hab hbc
      rw [← h] at hab hbc ⊢
      exact TransCmp.lt_trans hab hbc }

/-! ## Field by field -/

/-- Values that are compared by one field and then by the rest are in lexicographic order. -/
theorem compareLex_eq_lt [Ord β] [LawfulEqOrd β] {r : β → β → Prop} {s : γ → γ → Prop}
    {f : α → β} {g : α → γ} {a b : α} (hr : compare (f a) (f b) = .lt ↔ r (f a) (f b))
    (hs : cmp a b = .lt ↔ s (g a) (g b)) :
    compareLex (compareOn f) cmp a b = .lt ↔ Prod.Lex r s (f a, g a) (f b, g b) := by
  rw [compareLex, Ordering.then_eq_lt, compareOn, hr, hs, LawfulEqOrd.compare_eq_iff_eq,
    Prod.lex_def]

/-! ## Lists in order -/

theorem eq_of_pairwise_compare_lt [TransCmp cmp]
    {l m : List α} (hl : l.Pairwise fun a b => cmp a b = .lt)
    (hm : m.Pairwise fun a b => cmp a b = .lt) (h : ∀ a, a ∈ l ↔ a ∈ m) : l = m := by
  have : Std.Antisymm fun a b : α => cmp a b = .lt :=
    ⟨fun a b hab hba => absurd (hba.symm.trans (Std.OrientedCmp.gt_of_lt hab)) (by decide)⟩
  have : Std.Irrefl fun a b : α => cmp a b = .lt :=
    ⟨fun a h => absurd (h.symm.trans Std.ReflCmp.compare_self) (by decide)⟩
  exact hl.eq_of_mem_iff hm h

theorem pairwise_mergeSort_isLE (cmp : α → α → Ordering) [TransCmp cmp] (l : List α) :
    (l.mergeSort fun a b => (cmp a b).isLE).Pairwise fun a b => (cmp a b).isLE := by
  refine List.pairwise_mergeSort (fun a b c => TransCmp.isLE_trans) ?_ l
  intro a b
  rw [@Std.OrientedCmp.eq_swap _ cmp _ b a]
  cases cmp a b <;> rfl

theorem pairwise_mergeSort_lt (cmp : α → α → Ordering) [TransCmp cmp] [LawfulEqCmp cmp]
    {l : List α} (h : l.Nodup) :
    (l.mergeSort fun a b => (cmp a b).isLE).Pairwise fun a b => cmp a b = .lt := by
  have hnodup := (List.mergeSort_perm l fun a b => (cmp a b).isLE).nodup_iff.2 h
  refine ((pairwise_mergeSort_isLE cmp l).and hnodup).imp fun hab => ?_
  refine (Ordering.isLE_iff_eq_lt_or_eq_eq.1 hab.1).resolve_right fun heq => hab.2 ?_
  exact LawfulEqCmp.eq_of_compare heq

/-- Two lists in order, some values perhaps more than once, are equal if they are permutations. -/
theorem eq_of_perm_of_pairwise_isLE [TransCmp cmp] [LawfulEqCmp cmp] {l m : List α}
    (hperm : l.Perm m) (hl : l.Pairwise fun a b => (cmp a b).isLE)
    (hm : m.Pairwise fun a b => (cmp a b).isLE) : l = m := by
  refine List.Perm.eq_of_pairwise ?_ hl hm hperm
  intro a b _ _ hab hba
  exact LawfulEqCmp.eq_of_compare (Std.OrientedCmp.isLE_antisymm hab hba)

/-! ## Sorting -/

/-- The comparison decides an order, and what it sorts depends on the values alone: permutations
have one sorted form, the one that sorting gives. -/
structure Sorts (cmp : α → α → Ordering) (before : α → α → Prop) : Prop
    extends Decides cmp before where
  sorted : ∀ l : List α, (l.mergeSort fun a b => (cmp a b).isLE).Pairwise fun a b => ¬ before b a
  unique : ∀ l m : List α, l.Perm m → (l.Pairwise fun a b => ¬ before b a) →
    (m.Pairwise fun a b => ¬ before b a) → l = m
  sort_eq : ∀ l m : List α, l.Perm m →
    (l.mergeSort fun a b => (cmp a b).isLE) = m.mergeSort fun a b => (cmp a b).isLE

theorem Sorts.of_lt_iff [TransCmp cmp] [LawfulEqCmp cmp]
    (h : ∀ a b, cmp a b = .lt ↔ before a b) : Sorts cmp before := by
  have hdecides : Decides cmp before := .of_lt_iff h
  have hle (a b : α) : ¬ before b a ↔ (cmp a b).isLE := by
    rw [← hdecides.gt_iff, Ordering.isLE_iff_ne_gt]
  have hsorted (l : List α) := pairwise_mergeSort_isLE cmp l
  constructor
  · exact hdecides
  · intro l
    simp only [hle]
    exact hsorted l
  · intro l m hperm hl hm
    simp only [hle] at hl hm
    exact eq_of_perm_of_pairwise_isLE hperm hl hm
  · intro l m hperm
    refine eq_of_perm_of_pairwise_isLE ?_ (hsorted l) (hsorted m)
    exact (List.mergeSort_perm l _).trans (hperm.trans (List.mergeSort_perm m _).symm)

end TopCharts
