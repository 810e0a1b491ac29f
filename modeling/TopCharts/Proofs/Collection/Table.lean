import TopCharts.Proofs.Collection.Sum
import TopCharts.Proofs.Collection.Totals

/-!
# Tables of multiplicities

* `getElem?_table` : a table holds the multiplicities that are not zero;
* `multiplicity_consolidate`, `sum_consolidate` : consolidating leaves every multiplicity and every
  sum, with each record once (`nodup_consolidate`);
* `settle_eq_ok` : settling is consolidating, if it succeeds, and then all multiplicities are words.
-/

namespace TopCharts.Collection

open Attempt
open Std (ExtTreeMap TransOrd LawfulEqOrd)

variable {α : Type} [Ord α] [TransOrd α] [LawfulEqOrd α]

theorem getElem?_assign (m : ExtTreeMap α Int) (a b : α) (sum : Int) [DecidableEq α] :
    (assign m a sum)[b]? = if a = b then (if sum = 0 then none else some sum) else m[b]? := by
  unfold assign
  by_cases h : sum = 0
  · rw [if_pos h, if_pos h, ExtTreeMap.getElem?_erase]
    simp only [LawfulEqOrd.compare_eq_iff_eq]
  · rw [if_neg h, if_neg h, ExtTreeMap.getElem?_insert]
    simp only [LawfulEqOrd.compare_eq_iff_eq]

/-- A sum as a table holds it: zero is no entry. -/
def nonzero? (sum : Int) : Option Int :=
  if sum = 0 then none else some sum

theorem getD_nonzero? (sum : Int) : (nonzero? sum).getD 0 = sum := by
  unfold nonzero?
  split
  · rename_i h
    exact h.symm
  · rfl

variable [DecidableEq α]

theorem getElem?_foldl_assign (rows : List (α × Int)) (m : ExtTreeMap α Int) (a : α) (sum : Int)
    (hm : m[a]? = nonzero? sum) :
    (rows.foldl (fun m (a, w) => assign m a (m.getD a 0 + w)) m)[a]? =
      nonzero? (sum + multiplicity ⟨rows⟩ a) := by
  induction rows generalizing m sum with
  | nil => rw [List.foldl_nil, hm]; exact congrArg nonzero? (add_zero sum).symm
  | cons row rows ih =>
    rw [List.foldl_cons, multiplicity_cons, ← add_assoc]
    apply ih
    rw [getElem?_assign]
    by_cases h : row.1 = a
    · subst h
      rw [if_pos rfl, if_pos rfl, ExtTreeMap.getD_eq_getD_getElem?, hm, getD_nonzero?, nonzero?]
    · rw [if_neg h, if_neg h, hm, add_zero]

theorem getElem?_table (c : Collection α) (a : α) :
    c.table[a]? = nonzero? (c.multiplicity a) := by
  rw [table, getElem?_foldl_assign c.rows ∅ a 0 ExtTreeMap.getElem?_empty, zero_add]

theorem mem_table {c : Collection α} {a : α} {n : Int} :
    (a, n) ∈ c.table.toList ↔ c.multiplicity a = n ∧ n ≠ 0 := by
  rw [ExtTreeMap.mem_toList_iff_getElem?_eq_some, getElem?_table, nonzero?]
  split
  · rename_i h
    exact iff_of_false (Option.some_ne_none n).symm fun hn => hn.2 (hn.1.symm.trans h)
  · rename_i h
    rw [Option.some_inj]
    exact ⟨fun hn => ⟨hn, hn ▸ h⟩, And.left⟩

/-! ## Consolidating and counting -/

omit [Ord α] [TransOrd α] [LawfulEqOrd α] in
theorem multiplicity_of_nodup {rows : List (α × Int)} (h : (rows.map Prod.fst).Nodup) {a : α}
    {n : Int} (ha : (a, n) ∈ rows) : multiplicity ⟨rows⟩ a = n := by
  induction rows with
  | nil => cases ha
  | cons row rows ih =>
    rw [List.map_cons, List.nodup_cons] at h
    rw [multiplicity_cons]
    rcases List.mem_cons.1 ha with rfl | ha
    · rw [if_pos rfl, multiplicity_eq_zero h.1, add_zero]
    · have hne : row.1 ≠ a := fun heq => h.1 (heq ▸ List.mem_map_of_mem ha)
      rw [if_neg hne, ih h.2 ha, zero_add]

omit [DecidableEq α] in
theorem nodup_consolidate (c : Collection α) : (c.consolidate.rows.map Prod.fst).Nodup := by
  refine List.pairwise_map.2 (ExtTreeMap.distinct_keys_toList.imp ?_)
  intro x y hxy heq
  exact hxy (LawfulEqOrd.compare_eq_iff_eq.2 heq)

theorem mem_consolidate {c : Collection α} {a : α} {n : Int} :
    (a, n) ∈ c.consolidate.rows ↔ c.multiplicity a = n ∧ n ≠ 0 :=
  mem_table

theorem multiplicity_consolidate (c : Collection α) (a : α) :
    c.consolidate.multiplicity a = c.multiplicity a := by
  by_cases h : c.multiplicity a = 0
  · rw [h]
    refine multiplicity_eq_zero fun ha => ?_
    obtain ⟨⟨_, n⟩, hrow, rfl⟩ := List.mem_map.1 ha
    obtain ⟨hn, hne⟩ := mem_consolidate.1 hrow
    exact hne (hn ▸ h)
  · exact multiplicity_of_nodup (nodup_consolidate c) (mem_consolidate.2 ⟨rfl, h⟩)

theorem sum_consolidate (c : Collection α) (f : α → Int) : c.consolidate.sum f = c.sum f :=
  sum_eq_sum (multiplicity_consolidate c) f

/-! ## Settling -/

/-- Settling is consolidating, if it succeeds, and then all multiplicities are words. -/
theorem settle_eq_ok {c d : Collection α} (h : c.settle = .ok d) :
    d = c.consolidate ∧ ∀ a, IsWord (c.multiplicity a) := by
  have fold (rows : List (α × Int)) (m t : ExtTreeMap α Int)
      (hm : ∀ (a : α) (n : Int), m[a]? = some n → IsWord n) (h : rows.foldlM addRow m = .ok t) :
      ∀ (a : α) (n : Int), t[a]? = some n → IsWord n := by
    induction rows generalizing m with
    | nil => rw [← pure_eq_ok.1 h]; exact hm
    | cons row rows ih =>
      rw [List.foldlM_cons] at h
      obtain ⟨m', hstep, h⟩ := bind_eq_ok.1 h
      refine ih m' ?_ h
      obtain ⟨sum, hsum, hstep⟩ := bind_eq_ok.1 hstep
      rw [pure_eq_ok] at hstep
      obtain ⟨hsum, hword⟩ := Checked.int_eq_ok_iff.1 hsum
      intro a n hn
      rw [← hstep, getElem?_assign] at hn
      split at hn
      · split at hn
        · cases hn
        · rw [← Option.some.inj hn, ← hsum]
          exact hword
      · exact hm a n hn
  have hd := eq_consolidate_of_settle h
  refine ⟨hd, fun a => ?_⟩
  by_cases hzero : c.multiplicity a = 0
  · rw [hzero]
    decide
  · obtain ⟨t, ht, h⟩ := bind_eq_ok.1 h
    rw [pure_eq_ok, hd] at h
    refine fold _ ∅ t (fun a n hn => ?_) ht a _ ?_
    · rw [ExtTreeMap.getElem?_empty] at hn
      cases hn
    · have hrows : t.toList = c.consolidate.rows := congrArg rows h
      rw [← ExtTreeMap.mem_toList_iff_getElem?_eq_some, hrows]
      exact mem_consolidate.2 ⟨rfl, hzero⟩

end TopCharts.Collection
