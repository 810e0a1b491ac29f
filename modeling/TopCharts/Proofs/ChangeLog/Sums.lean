import Mathlib
import TopCharts.Proofs.ChangeLog.Feeding
import TopCharts.Proofs.Collection.Totals

/-!
# Running sums, and the drains that succeed

A drain sums the weights of a place one by one, as they were recorded. It sorts the changes by place
first, but the sort is stable, so what it sums at a place are the changes of that place in the order
recorded (`filter_mergeSort_place`).

* `SumsFit changes` : every running sum of a place is a signed word. It only depends on the changes
  of each place, in their order (`sumsFit_iff`), so the sort leaves it as it is (`sumsFit_mergeSort`);
* `exists_consolidate_eq_ok` : sorted changes whose running sums fit are summed up;
* `exists_updates_of_sumsFit` : so they are drained, if no net weight is the least word;
* `updates_perm` : two drains of the same changes, recorded in any order, deliver the same;
* `drain_exact` : what exactly a drain delivers.
-/

namespace TopCharts

open Attempt
open Std (TransOrd LawfulEqOrd)

variable {κ τ : Type}

/-! ## Running sums -/

section

variable [DecidableEq κ] [DecidableEq τ]

@[simp] theorem net_nil (x : τ × κ × Entry) : net ([] : List (Weighted κ τ)) x = 0 :=
  rfl

/-- What holds of zero and of the net weights of all that was recorded holds of every net weight. -/
theorem net_induction {changes : List (Weighted κ τ)} {p : Int → Prop} (hzero : p 0)
    (h : ∀ r ∈ changes, p (net changes r.place)) (x : τ × κ × Entry) : p (net changes x) := by
  by_cases hx : ∃ r ∈ changes, r.place = x
  · obtain ⟨r, hr, rfl⟩ := hx
    exact h r hr
  · rw [net_eq_zero fun r hr hplace => hx ⟨r, hr, hplace⟩]
    exact hzero

/-- Every running sum of a place, in the order recorded, is a signed word. -/
def SumsFit (changes : List (Weighted κ τ)) : Prop :=
  ∀ earlier, earlier <+: changes → ∀ x, IsWord (net earlier x)

instance (changes : List (Weighted κ τ)) : Decidable (SumsFit changes) :=
  decidable_of_iff (∀ earlier ∈ changes.inits, ∀ r ∈ earlier, IsWord (net earlier r.place)) <| by
    simp only [List.mem_inits]
    refine forall₂_congr fun earlier _ => ⟨fun h => ?_, fun h r _ => h r.place⟩
    exact net_induction (p := IsWord) (show IsWord 0 by decide) h

theorem net_filter_place (changes : List (Weighted κ τ)) (x : τ × κ × Entry) :
    net (changes.filter (·.place = x)) x = net changes x := by
  induction changes with
  | nil => rfl
  | cons r rs ih =>
    rw [List.filter_cons, net_cons]
    split
    · rename_i hr
      rw [net_cons, ih]
    · rename_i hr
      rw [ih, if_neg fun h => hr (decide_eq_true h), Int.zero_add]

/-- The running sums of a place are those of its changes alone. -/
theorem sumsFit_iff {changes : List (Weighted κ τ)} :
    SumsFit changes ↔
      ∀ x, ∀ earlier, earlier <+: changes.filter (·.place = x) → IsWord (net earlier x) := by
  constructor
  · intro h x earlier hearlier
    obtain ⟨recorded, hrecorded, rfl⟩ := List.prefix_filter_iff.1 hearlier
    rw [net_filter_place]
    exact h recorded hrecorded x
  · intro h earlier hearlier x
    rw [← net_filter_place]
    exact h x _ (hearlier.filter _)

theorem SumsFit.add {sum r : Weighted κ τ} {rs : List (Weighted κ τ)} {diff : Int64}
    (h : SumsFit (sum :: r :: rs)) (hplace : sum.place = r.place)
    (hdiff : diff.toInt = sum.diff.toInt + r.diff.toInt) : SumsFit ({ sum with diff } :: rs) := by
  intro earlier hearlier x
  rcases List.prefix_cons_iff.1 hearlier with rfl | ⟨others, rfl, hothers⟩
  · exact show IsWord 0 by decide
  · rw [net_add hplace hdiff]
    refine h (sum :: r :: others) ?_ x
    exact (List.prefix_append_right_inj [sum, r]).2 hothers

theorem SumsFit.tail {r : Weighted κ τ} {rs : List (Weighted κ τ)} (h : SumsFit (r :: rs))
    (halone : ∀ a ∈ rs, a.place ≠ r.place) : SumsFit rs := by
  intro earlier hearlier x
  have hword := h (r :: earlier) ((List.prefix_append_right_inj [r]).2 hearlier) x
  rw [net_cons] at hword
  by_cases hx : r.place = x
  · subst hx
    rw [net_eq_zero fun a ha => halone a (hearlier.subset ha)]
    exact show IsWord 0 by decide
  · rw [if_neg hx, Int.zero_add] at hword
    exact hword

/-! ## Net updates -/

/-- What the net weight of a place calls for: a retraction if it is negative, an addition if it is
positive, nothing if it is zero. -/
def netUpdates (changes : List (Weighted κ τ)) (x : τ × κ × Entry) : List (τ × Update κ) :=
  if net changes x < 0 then [(x.1, ⟨x.2.1, .remove, x.2.2⟩)]
  else if 0 < net changes x then [(x.1, ⟨x.2.1, .add, x.2.2⟩)]
  else []

theorem mem_netUpdates {changes : List (Weighted κ τ)} {x : τ × κ × Entry} {u : τ × Update κ} :
    u ∈ netUpdates changes x ↔ (u.1, u.2.key, u.2.entry) = x ∧
      (u.2.change = .remove ∧ net changes x < 0 ∨ u.2.change = .add ∧ 0 < net changes x) := by
  obtain ⟨t, key, change, e⟩ := u
  obtain ⟨t', key', e'⟩ := x
  unfold netUpdates
  split_ifs with hneg hpos
  · simp [hneg, hneg.le.not_gt, and_comm, and_left_comm]
  · simp [hneg, hpos, and_comm, and_left_comm]
  · simp [hneg, hpos]

theorem pairwise_netUpdates [Ord κ] [Ord τ] (changes : List (Weighted κ τ)) (x : τ × κ × Entry) :
    (netUpdates changes x).Pairwise fun a b => drainOrder a b = .lt := by
  unfold netUpdates
  split_ifs <;> simp

end

/-! ## Summing up -/

section

variable [Ord κ] [TransOrd κ] [LawfulEqOrd κ] [DecidableEq κ] [Ord τ] [TransOrd τ] [LawfulEqOrd τ]
  [DecidableEq τ] {changes : List (Weighted κ τ)}

namespace Weighted

/-- Sorting by place is stable: the changes of a place stay in their order. -/
theorem filter_mergeSort_place (changes : List (Weighted κ τ)) (x : τ × κ × Entry) :
    (changes.mergeSort fun a b => (comparePlace a b).isLE).filter (·.place = x) =
      changes.filter (·.place = x) := by
  have hsame : (changes.filter (·.place = x)).Pairwise fun a b => (comparePlace a b).isLE := by
    refine List.pairwise_of_forall_mem_list fun a ha b hb => ?_
    have hplace : a.place = b.place :=
      (of_decide_eq_true (List.mem_filter.1 ha).2).trans
        (of_decide_eq_true (List.mem_filter.1 hb).2).symm
    rw [comparePlace_eq_iff.2 hplace]
    rfl
  have hsub := (List.sublist_mergeSort (fun a b c => Std.TransCmp.isLE_trans)
    (fun a b => by
      rw [@Std.OrientedCmp.eq_swap _ comparePlace _ b a]
      cases comparePlace a b <;> rfl) hsame List.filter_sublist).filter (·.place = x)
  simp only [List.filter_filter, Bool.and_self] at hsub
  refine (hsub.eq_of_length ?_).symm
  exact ((List.mergeSort_perm changes _).filter _).length_eq.symm

theorem exists_go_eq_ok {sum : Weighted κ τ} {rs : List (Weighted κ τ)}
    (hsorted : (sum :: rs).Pairwise fun a b => (comparePlace a b).isLE)
    (h : SumsFit (sum :: rs)) : ∃ sums, consolidate.go sum rs = .ok sums := by
  induction rs generalizing sum with
  | nil =>
    unfold consolidate.go
    exact ⟨_, rfl⟩
  | cons r rs ih =>
    obtain ⟨hsum, hrs⟩ := List.pairwise_cons.1 hsorted
    unfold consolidate.go
    split
    · rename_i heq
      have hplace := comparePlace_eq_iff.1 heq
      have hword : IsWord (sum.diff.toInt + r.diff.toInt) := by
        simpa [net_cons, hplace] using h [sum, r] (List.prefix_append [sum, r] rs) r.place
      obtain ⟨diff, hdiff, hsumDiff⟩ := hword.exists_addInt_eq_ok
      have hrest : ({ sum with diff } :: rs).Pairwise fun a b => (comparePlace a b).isLE :=
        List.pairwise_cons.2 ⟨fun a ha => hsum a (List.mem_cons_of_mem _ ha), hrs.tail⟩
      rw [hdiff]
      exact ih hrest (h.add hplace hsumDiff)
    · rename_i hne
      have halone : ∀ a ∈ r :: rs, a.place ≠ sum.place := by
        intro a ha hplace
        have hlt := lt_of_sorted hsorted hne a ha
        rw [comparePlace_eq_iff.2 hplace.symm] at hlt
        cases hlt
      obtain ⟨rest, hrest⟩ := ih hrs (h.tail halone)
      rw [hrest]
      exact ⟨_, rfl⟩

theorem exists_consolidate_eq_ok {rs : List (Weighted κ τ)}
    (hsorted : rs.Pairwise fun a b => (comparePlace a b).isLE) (h : SumsFit rs) :
    ∃ sums, consolidate rs = .ok sums := by
  cases rs with
  | nil => exact ⟨_, rfl⟩
  | cons r rs => exact exists_go_eq_ok hsorted h

end Weighted

theorem sumsFit_mergeSort :
    SumsFit (changes.mergeSort fun a b => (Weighted.comparePlace a b).isLE) ↔ SumsFit changes := by
  rw [sumsFit_iff, sumsFit_iff]
  simp only [Weighted.filter_mergeSort_place]

/-! ## Drains -/

namespace ChangeLog

/-- **A drain succeeds** if no running sum and no magnitude leaves the words. -/
theorem exists_updates_of_sumsFit (h : SumsFit changes)
    (hleast : ∀ x, net changes x ≠ Int64.minValue.toInt) : ∃ us, updates changes = .ok us := by
  obtain ⟨sums, hsums⟩ := Weighted.exists_consolidate_eq_ok
    (pairwise_mergeSort_isLE Weighted.comparePlace changes) (sumsFit_mergeSort.2 h)
  have htimed : (sums.filter (·.diff ≠ 0)).mapM Weighted.toUpdate =
      .ok ((sums.filter (·.diff ≠ 0)).map Weighted.timed) := by
    refine mapM_eq_ok fun s hs => Weighted.toUpdate_eq_ok fun hdiff => ?_
    apply hleast s.place
    rw [← diff_of_mem_sums hsums (List.mem_filter.1 hs).1, hdiff]
  exact ⟨_, bind_eq_ok.2 ⟨_, hsums, bind_eq_ok.2 ⟨_, htimed, rfl⟩⟩⟩

theorem updates_perm {again : List (Weighted κ τ)} (hperm : again.Perm changes)
    {us us' : List (Update κ)} (h : updates changes = .ok us) (h' : updates again = .ok us') :
    us' = us := by
  obtain ⟨timed, rfl, hsorted, hmem⟩ := updates_eq_ok h
  obtain ⟨timed', rfl, hsorted', hmem'⟩ := updates_eq_ok h'
  refine congrArg _ (eq_of_pairwise_compare_lt hsorted' hsorted fun u => ?_)
  rw [hmem u.1 u.2, hmem' u.1 u.2, net_perm hperm]

/-- **The exact meaning of a drain.** If the running sums of the changes are words, and no net
weight is the least word, their drain succeeds and delivers at each place exactly what its net
weight calls for, strictly ordered by time, key, change and rank. And two drains of the same
changes, recorded in any order, deliver the same. -/
theorem drain_exact (changes : List (Weighted κ τ)) :
    (SumsFit changes → (∀ x, net changes x ≠ Int64.minValue.toInt) →
      ∃ timed : List (τ × Update κ),
        (changes.foldl record .empty).drain.1 = .ok (timed.map Prod.snd) ∧
        (timed.Pairwise fun a b => drainOrder a b = .lt) ∧
        ∀ x, timed.filter (fun u => (u.1, u.2.key, u.2.entry) = x) = netUpdates changes x) ∧
    ∀ again : List (Weighted κ τ), again.Perm changes → ∀ us us',
      (changes.foldl record .empty).drain.1 = .ok us →
      (again.foldl record .empty).drain.1 = .ok us' → us' = us := by
  have hdrain (rs : List (Weighted κ τ)) : (rs.foldl record .empty).drain.1 = updates rs := by
    show updates (rs.foldl record .empty).changes.toList = _
    rw [Feeding.toList_foldl_record]
    rfl
  simp only [hdrain]
  refine ⟨fun hfit hleast => ?_, fun again hperm us us' h h' => updates_perm hperm h h'⟩
  obtain ⟨us, hus⟩ := exists_updates_of_sumsFit hfit hleast
  obtain ⟨timed, rfl, hsorted, hmem⟩ := updates_eq_ok hus
  refine ⟨timed, hus, hsorted, fun x => ?_⟩
  refine eq_of_pairwise_compare_lt (hsorted.filter _) (pairwise_netUpdates changes x) fun u => ?_
  rw [List.mem_filter, hmem u.1 u.2, mem_netUpdates, decide_eq_true_iff, and_comm]
  refine and_congr_right fun hx => ?_
  rw [hx]

end ChangeLog

end

/-- Weights at both ends of the words, a place whose weights cancel, and a retraction that comes
after the addition of its key; recorded twice, in different orders. -/
theorem ChangeLog.drain_exact_ends :
    let changes : List (Weighted Nat Nat) := [⟨2, 1, ⟨7, 5⟩, Int64.maxValue⟩, ⟨1, 1, ⟨8, 4⟩, 3⟩,
      ⟨1, 1, ⟨9, 6⟩, -1⟩, ⟨2, 1, ⟨7, 5⟩, -1⟩, ⟨1, 2, ⟨8, 4⟩, 2⟩, ⟨1, 2, ⟨8, 4⟩, -2⟩,
      ⟨2, 1, ⟨7, 6⟩, -Int64.maxValue⟩, ⟨2, 1, ⟨7, 5⟩, 1⟩]
    let again : List (Weighted Nat Nat) := [⟨1, 2, ⟨8, 4⟩, -2⟩, ⟨2, 1, ⟨7, 5⟩, -1⟩,
      ⟨2, 1, ⟨7, 6⟩, -Int64.maxValue⟩, ⟨2, 1, ⟨7, 5⟩, Int64.maxValue⟩, ⟨1, 1, ⟨9, 6⟩, -1⟩,
      ⟨1, 2, ⟨8, 4⟩, 2⟩, ⟨2, 1, ⟨7, 5⟩, 1⟩, ⟨1, 1, ⟨8, 4⟩, 3⟩]
    SumsFit changes ∧ (∀ x, net changes x ≠ Int64.minValue.toInt) ∧ again.Perm changes ∧
      ∃ (timed : List (Nat × Update Nat)) (us : List (Update Nat)),
        (changes.foldl record .empty).drain.1 = .ok (timed.map Prod.snd) ∧
        (timed.Pairwise fun a b => drainOrder a b = .lt) ∧
        (∀ x, timed.filter (fun u => (u.1, u.2.key, u.2.entry) = x) = netUpdates changes x) ∧
        (again.foldl record .empty).drain.1 = .ok us ∧ us = timed.map Prod.snd ∧
        us = [⟨1, .remove, ⟨9, 6⟩⟩, ⟨1, .add, ⟨8, 4⟩⟩, ⟨1, .remove, ⟨7, 6⟩⟩,
          ⟨1, .add, ⟨7, 5⟩⟩] := by
  intro changes again
  have hfit : SumsFit changes := by decide +kernel
  have hleast : ∀ x, net changes x ≠ Int64.minValue.toInt :=
    net_induction (p := (· ≠ Int64.minValue.toInt)) (by decide) (by decide +kernel)
  have hperm : again.Perm changes := by decide +kernel
  have hagain : (again.foldl record .empty).drain.1 = .ok [⟨1, .remove, ⟨9, 6⟩⟩,
      ⟨1, .add, ⟨8, 4⟩⟩, ⟨1, .remove, ⟨7, 6⟩⟩, ⟨1, .add, ⟨7, 5⟩⟩] := by cbv
  obtain ⟨hdrain, hsame⟩ := drain_exact changes
  obtain ⟨timed, htimed, hsorted, hplaces⟩ := hdrain hfit hleast
  exact ⟨hfit, hleast, hperm, timed, _, htimed, hsorted, hplaces, hagain,
    hsame again hperm _ _ htimed hagain, rfl⟩

end TopCharts
