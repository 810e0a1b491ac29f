import TopCharts.Chart.Basic
import TopCharts.Proofs.Comparison

/-!
# The rank order as a linear order, and ranked lists

* entries are linearly ordered by `compare`; `Entry.lt_iff` reads the order off the two fields;
* a *ranked* list is strictly increasing in this order. `Ranked.ext` : two ranked lists with the
  same members are equal;
* `Entry.insertRanked` : its members, that it keeps a list ranked (`ranked_insertRanked`) and adds
  one entry (`insertRanked_perm`), and its first `k` entries (`take_insertRanked`).
-/

namespace TopCharts

instance : LinearOrder Entry := .ofStd Entry

namespace Entry

theorem lt_iff {a b : Entry} :
    a < b ↔ b.score < a.score ∨ b.score = a.score ∧ a.identity < b.identity := by
  rw [← compare_lt_iff_lt]
  show (compare b.score a.score).then (compare a.identity b.identity) = .lt ↔ _
  rw [Ordering.then_eq_lt, Std.compare_eq_lt, Std.compare_eq_lt,
    Std.LawfulEqOrd.compare_eq_iff_eq]

theorem lt_of_score_lt {a b : Entry} (h : b.score < a.score) : a < b :=
  lt_iff.2 (.inl h)

theorem le_of_score_le {a b : Entry} (hi : a.identity = b.identity) (hs : b.score ≤ a.score) :
    a ≤ b := by
  by_cases h : b.score = a.score
  · exact (Entry.ext hi h.symm).le
  · exact (lt_of_score_lt (Int64.lt_of_le_of_ne hs h)).le

end Entry

/-! ## Ranked lists -/

abbrev Ranked (l : List Entry) : Prop := l.Pairwise (· < ·)

theorem Ranked.ext {l m : List Entry} (hl : Ranked l) (hm : Ranked m)
    (h : ∀ e, e ∈ l ↔ e ∈ m) : l = m :=
  List.Pairwise.eq_of_mem_iff hl hm h

theorem Ranked.nodup {l : List Entry} (h : Ranked l) : l.Nodup :=
  h.imp ne_of_lt

theorem Ranked.mem_erase {l : List Entry} (h : Ranked l) {a e : Entry} :
    a ∈ l.erase e ↔ a ≠ e ∧ a ∈ l :=
  h.nodup.mem_erase_iff

/-! ## Insertion -/

namespace Entry

variable {e a : Entry} {l : List Entry}

theorem mem_insertRanked : a ∈ e.insertRanked l ↔ a = e ∨ a ∈ l := by
  induction l with
  | nil => rw [insertRanked, List.mem_singleton, List.mem_nil_iff, or_false]
  | cons x xs ih =>
    unfold insertRanked
    split
    · rw [List.mem_cons]
    · rename_i h
      rw [compare_eq_iff_eq.1 h, List.mem_cons]
      tauto
    · rw [List.mem_cons, ih, List.mem_cons]
      tauto

theorem ranked_insertRanked (h : Ranked l) : Ranked (e.insertRanked l) := by
  induction h with
  | nil => exact List.pairwise_singleton _ _
  | @cons x xs hx hxs ih =>
    unfold insertRanked
    split
    · rename_i hc
      have hex : e < x := compare_lt_iff_lt.1 hc
      refine .cons ?_ (.cons hx hxs)
      intro y hy
      rcases List.mem_cons.1 hy with rfl | hy
      · exact hex
      · exact hex.trans (hx y hy)
    · exact .cons hx hxs
    · rename_i hc
      refine .cons ?_ ih
      intro y hy
      rcases mem_insertRanked.1 hy with rfl | hy
      · exact compare_gt_iff_gt.1 hc
      · exact hx y hy

theorem insertRanked_perm (h : e ∉ l) : (e.insertRanked l).Perm (e :: l) := by
  induction l with
  | nil => exact .refl _
  | cons x xs ih =>
    rw [List.mem_cons, not_or] at h
    unfold insertRanked
    split
    · exact .refl _
    · rename_i hc
      exact absurd (compare_eq_iff_eq.1 hc) h.1
    · exact ((ih h.2).cons x).trans (.swap e x xs)

theorem length_insertRanked (h : e ∉ l) : (e.insertRanked l).length = l.length + 1 :=
  (insertRanked_perm h).length_eq

/-- What is inserted beyond the first `k` entries does not change the first `k`. -/
theorem take_insertRanked (k : Nat) :
    (e.insertRanked (l.take k)).take k = (e.insertRanked l).take k := by
  induction l generalizing k with
  | nil => rw [List.take_nil]
  | cons x xs ih =>
    cases k with
    | zero => rw [List.take_zero, List.take_zero]
    | succ k =>
      rw [List.take_succ_cons, insertRanked, insertRanked]
      split
      · rw [List.take_succ_cons, List.take_succ_cons,
          show x :: xs.take k = (x :: xs).take (k + 1) from rfl, List.take_take,
          Nat.min_eq_left (Nat.le_succ k)]
      · rw [List.take_succ_cons, List.take_succ_cons, List.take_take, min_self]
      · rw [List.take_succ_cons, List.take_succ_cons, ih]

end Entry

end TopCharts
