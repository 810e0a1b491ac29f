import TopCharts.Collection

/-!
# Multiplicities, row by row

* `multiplicity_cons`, `multiplicity_append`, `multiplicity_perm` : sums over rows, in any order;
* `multiplicity_eq_zero` : a record without rows.
-/

namespace TopCharts.Collection

variable {α : Type} [DecidableEq α]

theorem multiplicity_cons (row : α × Int) (rows : List (α × Int)) (a : α) :
    multiplicity ⟨row :: rows⟩ a = (if row.1 = a then row.2 else 0) + multiplicity ⟨rows⟩ a := by
  show (if row.1 = a then row.2 + multiplicity ⟨rows⟩ a else multiplicity ⟨rows⟩ a) = _
  split
  · rfl
  · rw [Int.zero_add]

theorem multiplicity_append (rows more : List (α × Int)) (a : α) :
    multiplicity ⟨rows ++ more⟩ a = multiplicity ⟨rows⟩ a + multiplicity ⟨more⟩ a := by
  induction rows with
  | nil => exact (Int.zero_add _).symm
  | cons row rows ih =>
    rw [List.cons_append, multiplicity_cons, ih, multiplicity_cons, Int.add_assoc]

theorem multiplicity_perm {rows rows' : List (α × Int)} (h : rows.Perm rows') (a : α) :
    multiplicity ⟨rows⟩ a = multiplicity ⟨rows'⟩ a := by
  induction h with
  | nil => rfl
  | cons row _ ih => rw [multiplicity_cons, ih, multiplicity_cons]
  | swap row row' rows => simp only [multiplicity_cons, Int.add_left_comm]
  | trans _ _ ih ih' => rw [ih, ih']

theorem multiplicity_eq_zero {rows : List (α × Int)} {a : α} (h : a ∉ rows.map Prod.fst) :
    multiplicity ⟨rows⟩ a = 0 := by
  induction rows with
  | nil => rfl
  | cons row rows ih =>
    rw [List.map_cons, List.mem_cons, not_or] at h
    rw [multiplicity_cons, if_neg (Ne.symm h.1), ih h.2, Int.zero_add]

end TopCharts.Collection
