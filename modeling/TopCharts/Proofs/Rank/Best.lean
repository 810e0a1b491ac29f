import Mathlib.Data.Finset.Sort
import TopCharts.Proofs.Rank.Order

/-!
# The best of a set of entries

* `best k s` : the `k` best entries of `s`, highest rank first;
* `mem_best_iff` : an entry is among them when fewer than `k` entries of `s` rank before it;
* `best_insert` : one more entry is inserted at its rank, and what lies beyond `k` falls out;
* `best_of_subset` : entries that are not among the `k` best do not matter.

Scores that only rise:

* `OneEach s` : no identity has two entries in `s`;
* `Raises old new` : every entry of `old` is still in `new`, perhaps with a higher score;
* `Raises.mem_best` : an entry that is in both and among the `k` best of `new` was among the `k`
  best of `old`. So a chart never has to get back an entry that fell out of it.
-/

namespace TopCharts

/-- The `k` best entries of a set, highest rank first. -/
def best (k : Nat) (s : Finset Entry) : List Entry :=
  s.sort.take k

variable {k : Nat} {s t : Finset Entry} {e : Entry}

theorem ranked_sort (s : Finset Entry) : Ranked s.sort :=
  s.sortedLT_sort.pairwise

theorem Ranked.eq_sort {l : List Entry} (h : Ranked l) (hs : ∀ e, e ∈ l ↔ e ∈ s) : l = s.sort :=
  h.ext (ranked_sort s) fun e => by rw [hs, Finset.mem_sort]

theorem mem_of_mem_best (h : e ∈ best k s) : e ∈ s :=
  (Finset.mem_sort _).1 (List.mem_of_mem_take h)

theorem best_eq_sort (h : s.card ≤ k) : best k s = s.sort := by
  rw [best, List.take_of_length_le]
  rw [Finset.length_sort]
  exact h

@[simp] theorem best_empty (k : Nat) : best k ∅ = [] := by
  rw [best, Finset.sort_empty, List.take_nil]

/-! ## Membership -/

theorem Ranked.mem_take_iff {l : List Entry} (h : Ranked l) :
    e ∈ l.take k ↔ e ∈ l ∧ (l.filter (· < e)).length < k := by
  induction h generalizing k with
  | nil => rw [List.take_nil]; exact ⟨fun h => absurd h List.not_mem_nil, fun h => h.1⟩
  | @cons x xs hx hxs ih =>
    have before : ∀ y ∈ xs, ¬ y < x := fun y hy => (hx y hy).le.not_gt
    cases k with
    | zero => exact ⟨fun h => absurd h List.not_mem_nil, fun h => absurd h.2 (Nat.not_lt_zero _)⟩
    | succ k =>
      rw [List.take_succ_cons, List.mem_cons, List.mem_cons, ih]
      rcases eq_or_ne e x with rfl | hne
      · have : (e :: xs).filter (· < e) = [] := by
          rw [List.filter_eq_nil_iff]
          intro y hy
          rcases List.mem_cons.1 hy with rfl | hy
          · simp
          · simpa using before y hy
        rw [this]
        exact ⟨fun _ => ⟨.inl rfl, Nat.succ_pos k⟩, fun _ => .inl rfl⟩
      · simp only [hne, false_or]
        apply and_congr_right
        intro he
        rw [List.filter_cons_of_pos (by simpa using hx e he), List.length_cons,
          Nat.succ_lt_succ_iff]

theorem sort_filter (s : Finset Entry) (p : Entry → Prop) [DecidablePred p] :
    (s.filter p).sort = s.sort.filter p := by
  refine (Ranked.eq_sort (List.Pairwise.filter _ (ranked_sort s)) ?_).symm
  intro e
  rw [List.mem_filter, Finset.mem_sort, Finset.mem_filter, decide_eq_true_iff]

/-- An entry is among the `k` best when fewer than `k` entries rank before it. -/
theorem mem_best_iff : e ∈ best k s ↔ e ∈ s ∧ (s.filter (· < e)).card < k := by
  rw [best, (ranked_sort s).mem_take_iff, Finset.mem_sort, ← sort_filter, Finset.length_sort]

/-! ## Growing and shrinking the set -/

theorem sort_insert (e : Entry) (s : Finset Entry) :
    (insert e s).sort = e.insertRanked s.sort := by
  refine (Ranked.eq_sort (Entry.ranked_insertRanked (ranked_sort s)) ?_).symm
  intro a
  rw [Entry.mem_insertRanked, Finset.mem_sort, Finset.mem_insert]

theorem best_insert (k : Nat) (e : Entry) (s : Finset Entry) :
    best k (insert e s) = (e.insertRanked (best k s)).take k := by
  rw [best, best, Entry.take_insertRanked, sort_insert]

theorem take_filter_of_forall_take {l : List Entry} {p : Entry → Bool}
    (h : ∀ x ∈ l.take k, p x) : (l.filter p).take k = l.take k := by
  induction l generalizing k with
  | nil => rfl
  | cons x xs ih =>
    cases k with
    | zero => rw [List.take_zero, List.take_zero]
    | succ k =>
      rw [List.take_succ_cons] at h ⊢
      rw [List.filter_cons_of_pos (h x List.mem_cons_self), List.take_succ_cons,
        ih fun y hy => h y (List.mem_cons_of_mem x hy)]

theorem best_of_subset (hts : t ⊆ s) (h : ∀ e ∈ best k s, e ∈ t) : best k t = best k s := by
  have ht : t = s.filter (· ∈ t) := by
    ext e
    rw [Finset.mem_filter]
    exact ⟨fun he => ⟨hts he, he⟩, fun he => he.2⟩
  rw [best, ht, sort_filter]
  exact take_filter_of_forall_take fun e he => decide_eq_true (h e he)

/-! ## Scores that only rise -/

def OneEach (s : Finset Entry) : Prop :=
  ∀ a ∈ s, ∀ b ∈ s, a.identity = b.identity → a = b

theorem OneEach.of_nodup {es : List Entry} (h : (es.map Entry.identity).Nodup) :
    OneEach es.toFinset := by
  intro a ha b hb hid
  exact List.inj_on_of_nodup_map h (List.mem_toFinset.1 ha) (List.mem_toFinset.1 hb) hid

/-- Every entry of `old` is in `new`, as it was or with a higher score. -/
structure Raises (old new : Finset Entry) : Prop where
  oneEach_old : OneEach old
  oneEach_new : OneEach new
  raised : ∀ a ∈ old, ∃ b ∈ new, b.identity = a.identity ∧ a.score ≤ b.score

theorem Raises.refl (h : OneEach s) : Raises s s :=
  ⟨h, h, fun a ha => ⟨a, ha, rfl, Int64.le_refl _⟩⟩

/-- Before an entry that stays, scores that rise can only bring in more entries. -/
theorem Raises.card_before_le {old new : Finset Entry} (h : Raises old new) (e : Entry) :
    (old.filter (· < e)).card ≤ (new.filter (· < e)).card := by
  choose! raise mem identity score using h.raised
  apply Finset.card_le_card_of_injOn raise
  · intro a ha
    obtain ⟨ha, hlt⟩ := Finset.mem_filter.1 (Finset.mem_coe.1 ha)
    refine Finset.mem_coe.2 (Finset.mem_filter.2 ⟨mem a ha, ?_⟩)
    exact (Entry.le_of_score_le (identity a ha) (score a ha)).trans_lt hlt
  · intro a ha b hb hab
    have ha := (Finset.mem_filter.1 (Finset.mem_coe.1 ha)).1
    have hb := (Finset.mem_filter.1 (Finset.mem_coe.1 hb)).1
    apply h.oneEach_old a ha b hb
    rw [← identity a ha, hab, identity b hb]

theorem Raises.mem_best {old new : Finset Entry} (h : Raises old new) (hold : e ∈ old)
    (hnew : e ∈ best k new) : e ∈ best k old :=
  mem_best_iff.2 ⟨hold, (h.card_before_le e).trans_lt (mem_best_iff.1 hnew).2⟩

/-- What was among the `k` best and stays, with all that is new, holds the `k` best of `new`. -/
theorem Raises.best_eq {old new : Finset Entry} (h : Raises old new) :
    best k ((best k old).toFinset ∩ new ∪ new \ old) = best k new := by
  refine best_of_subset (Finset.union_subset Finset.inter_subset_right Finset.sdiff_subset) ?_
  intro e he
  have hnew := mem_of_mem_best he
  rw [Finset.mem_union, Finset.mem_inter, Finset.mem_sdiff, List.mem_toFinset]
  by_cases hold : e ∈ old
  · exact .inl ⟨h.mem_best hold he, hnew⟩
  · exact .inr ⟨hnew, hold⟩

end TopCharts
