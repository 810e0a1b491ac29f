import TopCharts.Proofs.ChangeLog.Sums

/-!
# Drains that fail

A drain first sums up all its changes and then takes the magnitude of every net weight that is not
zero. So it fails by a sum if it can, and by a magnitude only if all sums are words.

* `Weighted.sumsFit_of_consolidate` : what is summed up has running sums that are words;
* `ChangeLog.sumsFit_of_updates_eq_ok`, `ChangeLog.updates_eq_error` : what a drain that succeeds,
  and one that fails, says of its changes;
* `ChangeLog.exists_updates_iff`, `ChangeLog.updates_eq_error_iff` : which drains succeed, and which
  fail for which fault.
-/

namespace TopCharts

open Attempt
open Std (TransOrd LawfulEqOrd)

variable {κ τ : Type}

/-! ## Running sums, from the last change to the first -/

section

variable [DecidableEq κ] [DecidableEq τ] {sum r : Weighted κ τ} {rs : List (Weighted κ τ)}

theorem sumsFit_nil : SumsFit ([] : List (Weighted κ τ)) := by
  intro earlier hearlier x
  rw [List.prefix_nil.1 hearlier]
  exact show IsWord 0 by decide

theorem SumsFit.cons (h : SumsFit rs) (halone : ∀ a ∈ rs, a.place ≠ r.place) :
    SumsFit (r :: rs) := by
  intro earlier hearlier x
  rcases List.prefix_cons_iff.1 hearlier with rfl | ⟨others, rfl, hothers⟩
  · exact show IsWord 0 by decide
  · rw [net_cons]
    by_cases hx : r.place = x
    · subst hx
      rw [if_pos rfl, net_eq_zero fun a ha => halone a (hothers.subset ha), Int.add_zero]
      exact isWord_toInt r.diff
    · rw [if_neg hx, Int.zero_add]
      exact h others hothers x

theorem SumsFit.of_add {diff : Int64} (h : SumsFit ({ sum with diff } :: rs))
    (hplace : sum.place = r.place) (hdiff : diff.toInt = sum.diff.toInt + r.diff.toInt) :
    SumsFit (sum :: r :: rs) := by
  intro earlier hearlier x
  rcases List.prefix_cons_iff.1 hearlier with rfl | ⟨others, rfl, hothers⟩
  · exact show IsWord 0 by decide
  · rcases List.prefix_cons_iff.1 hothers with rfl | ⟨later, rfl, hlater⟩
    · have hsingle : SumsFit [sum] := sumsFit_nil.cons fun a ha => absurd ha List.not_mem_nil
      exact hsingle [sum] (List.prefix_refl _) x
    · rw [← net_add hplace hdiff]
      exact h _ ((List.prefix_append_right_inj [_]).2 hlater) x

end

section

variable [Ord κ] [TransOrd κ] [LawfulEqOrd κ] [DecidableEq κ] [Ord τ] [TransOrd τ] [LawfulEqOrd τ]
  [DecidableEq τ]

/-! ## Sums -/

namespace Weighted

theorem sumsFit_of_go {sum : Weighted κ τ} {rs sums : List (Weighted κ τ)}
    (hsorted : (sum :: rs).Pairwise fun a b => (comparePlace a b).isLE)
    (h : consolidate.go sum rs = .ok sums) : SumsFit (sum :: rs) := by
  induction rs generalizing sum sums with
  | nil => exact sumsFit_nil.cons fun a ha => absurd ha List.not_mem_nil
  | cons r rs ih =>
    obtain ⟨hsum, hrs⟩ := List.pairwise_cons.1 hsorted
    unfold consolidate.go at h
    split at h
    · rename_i heq
      obtain ⟨diff, hdiff, h⟩ := bind_eq_ok.1 h
      refine (ih (List.pairwise_cons.2 ⟨fun a ha => ?_, hrs.tail⟩) h).of_add
        (comparePlace_eq_iff.1 heq) (Checked.addInt_eq_ok_iff.1 hdiff).symm
      exact hsum a (List.mem_cons_of_mem _ ha)
    · rename_i hne
      obtain ⟨rest, hrest, -⟩ := bind_eq_ok.1 h
      refine (ih hrs hrest).cons fun a ha hplace => ?_
      have hlt := lt_of_sorted hsorted hne a ha
      rw [comparePlace_eq_iff.2 hplace.symm] at hlt
      cases hlt

/-- **What is summed up fits.** -/
theorem sumsFit_of_consolidate {rs sums : List (Weighted κ τ)}
    (hsorted : rs.Pairwise fun a b => (comparePlace a b).isLE) (h : consolidate rs = .ok sums) :
    SumsFit rs := by
  cases rs with
  | nil => exact sumsFit_nil
  | cons r rs => exact sumsFit_of_go hsorted h

omit [TransOrd κ] [LawfulEqOrd κ] [DecidableEq κ] [TransOrd τ] [LawfulEqOrd τ] [DecidableEq τ]

theorem eq_addOverflow_of_go {sum : Weighted κ τ} {rs : List (Weighted κ τ)} {fault : Fault}
    (h : consolidate.go sum rs = .error fault) : fault = .addOverflow := by
  induction rs generalizing sum with
  | nil =>
    unfold consolidate.go at h
    cases h
  | cons r rs ih =>
    unfold consolidate.go at h
    split at h
    · rcases bind_eq_error.1 h with h | ⟨diff, -, h⟩
      · exact (addInt_eq_error_iff.1 h).1
      · exact ih h
    · rcases bind_eq_error.1 h with h | ⟨rest, -, h⟩
      · exact ih h
      · cases h

theorem eq_addOverflow_of_consolidate {rs : List (Weighted κ τ)} {fault : Fault}
    (h : consolidate rs = .error fault) : fault = .addOverflow := by
  cases rs with
  | nil => cases h
  | cons r rs => exact eq_addOverflow_of_go h

omit [Ord κ] [Ord τ] in
/-- Only the least word has no magnitude. -/
theorem toUpdate_eq_error_iff {r : Weighted κ τ} {fault : Fault} :
    r.toUpdate = .error fault ↔ fault = .negOverflow ∧ r.diff = Int64.minValue := by
  by_cases h : r.diff = Int64.minValue
  · have hneg : r.diff < 0 := by
      rw [h]
      decide
    have hupdate : r.toUpdate = .error .negOverflow := by
      rw [toUpdate, if_pos hneg, Checked.negInt, if_pos h]
      rfl
    rw [hupdate, Except.error.injEq, and_iff_left h, eq_comm]
  · rw [toUpdate_eq_ok h]
    refine iff_of_false (fun hfault => ?_) fun hfault => h hfault.2
    cases hfault

end Weighted

/-! ## Drains -/

namespace ChangeLog

variable {changes : List (Weighted κ τ)}

theorem sumsFit_of_updates_eq_ok {us : List (Update κ)} (h : updates changes = .ok us) :
    SumsFit changes ∧ ∀ x, net changes x ≠ Int64.minValue.toInt := by
  obtain ⟨sums, hsums, h⟩ := bind_eq_ok.1 h
  obtain ⟨timed, htimed, -⟩ := bind_eq_ok.1 h
  have hsorted := pairwise_mergeSort_isLE Weighted.comparePlace changes
  refine ⟨sumsFit_mergeSort.1 (Weighted.sumsFit_of_consolidate hsorted hsums), fun x hleast => ?_⟩
  obtain ⟨s, hs, rfl⟩ : ∃ s ∈ sums, s.place = x := by
    apply exists_place_eq
    rw [(Weighted.consolidate_eq_ok hsums hsorted).2, net_perm (List.mergeSort_perm _ _), hleast]
    decide
  have hdiff : s.diff = Int64.minValue := Int64.toInt_inj.1 (diff_of_mem_sums hsums hs ▸ hleast)
  have hne : s.diff ≠ 0 := by
    rw [hdiff]
    decide
  obtain ⟨u, hu⟩ := exists_of_mapM_eq_ok htimed s (List.mem_filter.2 ⟨hs, decide_eq_true hne⟩)
  rw [Weighted.toUpdate_eq_error_iff.2 ⟨rfl, hdiff⟩] at hu
  cases hu

theorem updates_eq_error {fault : Fault} (h : updates changes = .error fault) :
    fault = .addOverflow ∧ ¬ SumsFit changes ∨
      fault = .negOverflow ∧ SumsFit changes ∧ ∃ x, net changes x = Int64.minValue.toInt := by
  have hsorted := pairwise_mergeSort_isLE Weighted.comparePlace changes
  rcases bind_eq_error.1 h with h | ⟨sums, hsums, h⟩
  · refine .inl ⟨Weighted.eq_addOverflow_of_consolidate h, fun hfit => ?_⟩
    obtain ⟨sums, hsums⟩ := Weighted.exists_consolidate_eq_ok hsorted (sumsFit_mergeSort.2 hfit)
    rw [hsums] at h
    cases h
  · rcases bind_eq_error.1 h with h | ⟨timed, -, h⟩
    · obtain ⟨s, hs, hfault⟩ := exists_of_mapM_eq_error h
      obtain ⟨rfl, hdiff⟩ := Weighted.toUpdate_eq_error_iff.1 hfault
      refine .inr ⟨rfl, sumsFit_mergeSort.1 (Weighted.sumsFit_of_consolidate hsorted hsums),
        s.place, ?_⟩
      rw [← diff_of_mem_sums hsums (List.mem_filter.1 hs).1, hdiff]
    · cases h

/-- **A drain succeeds** exactly if all running sums are words and no net weight is the least. -/
theorem exists_updates_iff :
    (∃ us, updates changes = .ok us) ↔
      SumsFit changes ∧ ∀ x, net changes x ≠ Int64.minValue.toInt :=
  ⟨fun ⟨_, h⟩ => sumsFit_of_updates_eq_ok h, fun ⟨hfit, hleast⟩ =>
    exists_updates_of_sumsFit hfit hleast⟩

/-- **A drain fails** by an addition exactly if some running sum is no word, and by a negation
exactly if all are and some net weight is the least word. -/
theorem updates_eq_error_iff {fault : Fault} :
    updates changes = .error fault ↔
      fault = .addOverflow ∧ ¬ SumsFit changes ∨
      fault = .negOverflow ∧ SumsFit changes ∧ ∃ x, net changes x = Int64.minValue.toInt := by
  refine ⟨updates_eq_error, fun h => ?_⟩
  cases hdrain : updates changes with
  | ok us =>
    obtain ⟨hfit, hleast⟩ := sumsFit_of_updates_eq_ok hdrain
    rcases h with ⟨-, hnot⟩ | ⟨-, -, x, hx⟩
    · exact absurd hfit hnot
    · exact absurd hx (hleast x)
  | error other =>
    rcases h with ⟨rfl, hnot⟩ | ⟨rfl, hfit, -⟩
    · rcases updates_eq_error hdrain with ⟨rfl, -⟩ | ⟨-, hfit, -⟩
      · rfl
      · exact absurd hfit hnot
    · rcases updates_eq_error hdrain with ⟨-, hnot⟩ | ⟨rfl, -⟩
      · exact absurd hfit hnot
      · rfl

end ChangeLog

end

end TopCharts
