import Mathlib.Algebra.BigOperators.Ring.Finset
import TopCharts.Proofs.Collection.Multiplicity

/-!
# Sums over collections

* `Collection.sum c f` : the sum of `f` over the records of `c`, by their weights. A multiplicity is
  such a sum (`multiplicity_eq_sum`), and the multiplicities determine all sums (`sum_eq_sum`);
* `sum_filter`, `sum_map`, `sum_flatMap`, `sum_append`, `sum_negate`, `sum_join` : the sums over
  what an operator makes of collections, as sums over those.
-/

namespace TopCharts.Collection

open Std (TransOrd LawfulEqOrd)

variable {α β κ : Type}

/-- The sum of a function over the records, by their weights. -/
def sum (c : Collection α) (f : α → Int) : Int :=
  c.rows.foldr (fun row sum => row.2 * f row.1 + sum) 0

theorem sum_cons (row : α × Int) (rows : List (α × Int)) (f : α → Int) :
    sum ⟨row :: rows⟩ f = row.2 * f row.1 + sum ⟨rows⟩ f :=
  rfl

theorem multiplicity_eq_sum [DecidableEq α] (c : Collection α) (a : α) :
    c.multiplicity a = c.sum fun b => if b = a then 1 else 0 := by
  obtain ⟨rows⟩ := c
  induction rows with
  | nil => rfl
  | cons row rows ih =>
    rw [multiplicity_cons, sum_cons, ih, mul_ite, mul_one, mul_zero]

theorem sum_append_rows (rows more : List (α × Int)) (f : α → Int) :
    sum ⟨rows ++ more⟩ f = sum ⟨rows⟩ f + sum ⟨more⟩ f := by
  induction rows with
  | nil => exact (zero_add _).symm
  | cons row rows ih => rw [List.cons_append, sum_cons, ih, sum_cons, add_assoc]

theorem sum_append (c d : Collection α) (f : α → Int) : (c ++ d).sum f = c.sum f + d.sum f :=
  sum_append_rows c.rows d.rows f

theorem sum_perm {rows rows' : List (α × Int)} (h : rows.Perm rows') (f : α → Int) :
    sum ⟨rows⟩ f = sum ⟨rows'⟩ f := by
  induction h with
  | nil => rfl
  | cons row _ ih => rw [sum_cons, ih, sum_cons]
  | swap row row' rows => simp only [sum_cons, add_left_comm]
  | trans _ _ ih ih' => rw [ih, ih']

/-! ## The summed function -/

theorem sum_congr {c : Collection α} {f g : α → Int} (h : ∀ row ∈ c.rows, f row.1 = g row.1) :
    c.sum f = c.sum g := by
  obtain ⟨rows⟩ := c
  induction rows with
  | nil => rfl
  | cons row rows ih =>
    rw [sum_cons, sum_cons, h row List.mem_cons_self,
      ih fun row hrow => h row (List.mem_cons_of_mem _ hrow)]

theorem sum_zero (c : Collection α) : c.sum (fun _ => 0) = 0 := by
  obtain ⟨rows⟩ := c
  induction rows with
  | nil => rfl
  | cons row rows ih => rw [sum_cons, ih, mul_zero, add_zero]

theorem sum_add (c : Collection α) (f g : α → Int) :
    (c.sum fun a => f a + g a) = c.sum f + c.sum g := by
  obtain ⟨rows⟩ := c
  induction rows with
  | nil => rfl
  | cons row rows ih => rw [sum_cons, sum_cons, sum_cons, ih, mul_add, add_add_add_comm]

theorem sum_mul (c : Collection α) (f : α → Int) (n : Int) :
    (c.sum fun a => f a * n) = c.sum f * n := by
  obtain ⟨rows⟩ := c
  induction rows with
  | nil => exact (zero_mul n).symm
  | cons row rows ih => rw [sum_cons, sum_cons, ih, add_mul, mul_assoc]

theorem sum_eq_sum_multiplicity [DecidableEq α] {c : Collection α} {s : Finset α}
    (h : ∀ row ∈ c.rows, row.1 ∈ s) (f : α → Int) :
    c.sum f = ∑ a ∈ s, c.multiplicity a * f a := by
  obtain ⟨rows⟩ := c
  induction rows with
  | nil =>
    rw [Finset.sum_eq_zero]
    · rfl
    · intro a _
      exact zero_mul (f a)
  | cons row rows ih =>
    rw [sum_cons, ih fun row hrow => h row (List.mem_cons_of_mem _ hrow)]
    simp only [multiplicity_cons, add_mul, Finset.sum_add_distrib, ite_mul, zero_mul,
      Finset.sum_ite_eq, h row List.mem_cons_self, if_true]

/-- **Collections with the same multiplicities have the same sums.** -/
theorem sum_eq_sum [DecidableEq α] {c d : Collection α}
    (h : ∀ a, c.multiplicity a = d.multiplicity a) (f : α → Int) : c.sum f = d.sum f := by
  have hc : ∀ row ∈ c.rows, row.1 ∈ ((c.rows ++ d.rows).map Prod.fst).toFinset := by
    intro row hrow
    exact List.mem_toFinset.2 (List.mem_map_of_mem (List.mem_append_left _ hrow))
  have hd : ∀ row ∈ d.rows, row.1 ∈ ((c.rows ++ d.rows).map Prod.fst).toFinset := by
    intro row hrow
    exact List.mem_toFinset.2 (List.mem_map_of_mem (List.mem_append_right _ hrow))
  rw [sum_eq_sum_multiplicity hc, sum_eq_sum_multiplicity hd]
  exact Finset.sum_congr rfl fun a _ => by rw [h]

/-! ## Operators, record by record -/

theorem sum_filter (p : α → Bool) (c : Collection α) (f : α → Int) :
    (c.filter p).sum f = c.sum fun a => if p a then f a else 0 := by
  obtain ⟨rows⟩ := c
  induction rows with
  | nil => rfl
  | cons row rows ih =>
    rw [sum_cons, ← ih, filter, filter, List.filter_cons]
    by_cases h : p row.1
    · rw [if_pos h, if_pos h, sum_cons]
    · rw [if_neg h, if_neg h, mul_zero, zero_add]

theorem sum_map (g : α → β) (c : Collection α) (f : β → Int) :
    (c.map g).sum f = c.sum fun a => f (g a) := by
  obtain ⟨rows⟩ := c
  induction rows with
  | nil => rfl
  | cons row rows ih =>
    rw [sum_cons, ← ih]
    rfl

theorem sum_negate (c : Collection α) (f : α → Int) : c.negate.sum f = -c.sum f := by
  obtain ⟨rows⟩ := c
  induction rows with
  | nil => rfl
  | cons row rows ih =>
    rw [sum_cons, neg_add, ← ih, ← neg_mul]
    rfl

theorem sum_map_weight (bs : List β) (w : Int) (f : β → Int) :
    sum ⟨bs.map fun b => (b, w)⟩ f = w * (bs.map f).sum := by
  induction bs with
  | nil => exact (mul_zero w).symm
  | cons b bs ih => rw [List.map_cons, sum_cons, ih, List.map_cons, List.sum_cons, mul_add]

theorem sum_flatMap (g : α → List β) (c : Collection α) (f : β → Int) :
    (c.flatMap g).sum f = c.sum fun a => ((g a).map f).sum := by
  obtain ⟨rows⟩ := c
  induction rows with
  | nil => rfl
  | cons row rows ih =>
    rw [sum_cons, ← ih, ← sum_map_weight, ← sum_append_rows]
    rfl

theorem sum_ofList (records : List α) (f : α → Int) :
    (ofList records).sum f = (records.map f).sum := by
  rw [ofList, sum_map_weight, one_mul]

theorem multiplicity_ofList [DecidableEq α] (records : List α) (a : α) :
    (ofList records).multiplicity a = records.count a := by
  induction records with
  | nil => rfl
  | cons b records ih =>
    rw [ofList, List.map_cons, multiplicity_cons, ← ofList, ih, List.count_cons, Nat.cast_add,
      add_comm]
    by_cases h : b = a
    · simp [h]
    · simp [h]

theorem multiplicity_ofList_of_nodup [DecidableEq α] {records : List α} (h : records.Nodup)
    (a : α) : (ofList records).multiplicity a = if a ∈ records then 1 else 0 := by
  rw [multiplicity_ofList, h.count, Nat.cast_ite, Nat.cast_one, Nat.cast_zero]

/-! ## Joining -/

section

variable [Ord κ] [TransOrd κ] [LawfulEqOrd κ] [DecidableEq κ]

theorem getD_index (d : Collection (κ × β)) (key : κ) :
    d.index.getD key [] = (d.rows.filter (·.1.1 = key)).map fun row => (row.1.2, row.2) := by
  obtain ⟨rows⟩ := d
  induction rows with
  | nil => exact Std.ExtTreeMap.getD_empty
  | cons row rows ih =>
    obtain ⟨⟨key', b⟩, w⟩ := row
    have hindex : index ⟨((key', b), w) :: rows⟩ =
        (index ⟨rows⟩).insert key' ((b, w) :: (index ⟨rows⟩).getD key' []) := rfl
    rw [hindex, Std.ExtTreeMap.getD_insert, List.filter_cons]
    simp only [LawfulEqOrd.compare_eq_iff_eq, decide_eq_true_iff]
    by_cases h : key' = key
    · subst h
      rw [if_pos rfl, if_pos rfl, ih, List.map_cons]
    · rw [if_neg h, if_neg h, ih]

/-- **A join sums over the pairs of records with one key.** -/
theorem sum_join (c : Collection (κ × α)) (d : Collection (κ × β)) (f : κ × α × β → Int) :
    (c.join d).sum f =
      c.sum fun x => d.sum fun y => if y.1 = x.1 then f (x.1, x.2, y.2) else 0 := by
  have hpairs (key : κ) (a : α) (w : Int) (rows : List ((κ × β) × Int)) :
      sum ⟨((rows.filter (·.1.1 = key)).map fun row => (row.1.2, row.2)).map fun row =>
        ((key, a, row.1), w * row.2)⟩ f =
      w * sum ⟨rows⟩ fun y => if y.1 = key then f (key, a, y.2) else 0 := by
    induction rows with
    | nil => exact (mul_zero w).symm
    | cons row rows ih =>
      rw [sum_cons, mul_add, ← ih, List.filter_cons]
      simp only [decide_eq_true_iff]
      by_cases h : row.1.1 = key
      · rw [if_pos h, if_pos h, List.map_cons, List.map_cons, sum_cons, mul_assoc]
      · rw [if_neg h, if_neg h, mul_zero, mul_zero, zero_add]
  obtain ⟨rows⟩ := c
  induction rows with
  | nil => rfl
  | cons row rows ih =>
    rw [sum_cons, ← ih, ← hpairs, ← getD_index, ← sum_append_rows]
    rfl

end

end TopCharts.Collection
