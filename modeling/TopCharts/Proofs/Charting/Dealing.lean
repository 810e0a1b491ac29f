import Mathlib.Data.List.Nodup
import Mathlib.Data.List.Perm.Basic
import Mathlib.Data.Nat.ModEq
import TopCharts.Charting
import TopCharts.Proofs.Collection.Sum

/-!
# Dealing records to workers

* `perm_share` : records that are dealt in turn are all there, each with one worker, so that all
  workers together have the sums of the whole (`sum_share`);
* `stepBy_eq_share` : a worker that skips to its records gets the same ones as a worker that counts
  them as they pass;
* `Batch.deal_ofList` : the deal of a batch of lists deals the lists.
-/

namespace TopCharts

variable {α β : Type} {n : Nat}

theorem flatMap_ite (l : List α) (p : α → Prop) [DecidablePred p] (f : α → β) :
    l.flatMap (fun a => if p a then [f a] else []) = (l.filter p).map f := by
  induction l with
  | nil => rfl
  | cons a l ih =>
    rw [List.flatMap_cons, ih, List.filter_cons]
    simp only [decide_eq_true_eq]
    split <;> rfl

/-! ## In turn -/

/-- The share of records the first of which is number `k`. -/
def shareFrom (k workers index : Nat) (records : List α) : List α :=
  ((records.zipIdx k).filter fun (_, i) => i % workers = index).map Prod.fst

theorem shareFrom_cons (k n index : Nat) (a : α) (records : List α) :
    shareFrom k n index (a :: records) =
      (if index = k % n then [a] else []) ++ shareFrom (k + 1) n index records := by
  rw [shareFrom, List.zipIdx_cons, List.filter_cons]
  simp only [decide_eq_true_eq, eq_comm (a := index)]
  split <;> rfl

/-- **Records that are dealt to workers** are all there, each with one of them. -/
theorem perm_share (hpos : 0 < n) (records : List α) :
    ((List.range n).flatMap fun index => share n index records).Perm records := by
  suffices hfrom : ∀ k, ((List.range n).flatMap fun index => shareFrom k n index records).Perm
      records from hfrom 0
  induction records with
  | nil =>
    intro k
    exact .of_eq (List.flatMap_eq_nil_iff.2 fun _ _ => rfl)
  | cons a records ih =>
    intro k
    have hone : (List.range n).flatMap (fun index => if index = k % n then [a] else []) = [a] := by
      have hcount : (List.range n).count (k % n) = 1 :=
        List.count_eq_one_of_mem List.nodup_range (List.mem_range.2 (Nat.mod_lt k hpos))
      rw [flatMap_ite, List.filter_eq, hcount]
      rfl
    simp only [shareFrom_cons]
    refine (List.flatMap_append_perm _ _ _).symm.trans ?_
    rw [hone]
    exact (ih (k + 1)).cons a

theorem sum_share (hpos : 0 < n) (c : Collection α) (f : α → Int) :
    (Ledgers.arrived ((List.range n).map fun index => ⟨share n index c.rows⟩)).sum f = c.sum f := by
  refine Collection.sum_perm ?_ f
  rw [List.flatMap_map]
  exact perm_share hpos c.rows

theorem share_map (f : α → β) (n index : Nat) (records : List α) :
    share n index (records.map f) = (share n index records).map f := by
  rw [share, share, List.zipIdx_map, List.filter_map, List.map_map, List.map_map]
  rfl

/-! ## Skipping ahead -/

/-- A worker whose turn comes after `skip` more records. -/
theorem stepBy_eq_shareFrom {skip k index : Nat} (hskip : skip < n) (hturn : (k + skip) % n = index)
    (records : List α) : stepBy n skip records = shareFrom k n index records := by
  induction records generalizing skip k with
  | nil => rfl
  | cons a records ih =>
    rw [shareFrom_cons]
    cases skip with
    | zero =>
      rw [Nat.add_zero] at hturn
      have hnext : (k + 1 + (n - 1)) % n = index := by
        rw [Nat.add_assoc, Nat.add_sub_cancel' hskip, Nat.add_mod_right]
        exact hturn
      rw [if_pos hturn.symm, stepBy, ih (Nat.sub_one_lt_of_lt hskip) hnext]
      rfl
    | succ skip =>
      have hnot : index ≠ k % n := by
        intro hk
        have hdvd : n ∣ skip + 1 :=
          Nat.modEq_zero_iff_dvd.1 (Nat.ModEq.add_left_cancel' k (hturn.trans hk))
        exact Nat.not_le_of_lt hskip (Nat.le_of_dvd skip.succ_pos hdvd)
      rw [if_neg hnot, stepBy]
      exact ih (Nat.lt_of_succ_lt hskip) (by rwa [Nat.add_right_comm])

/-- **Skipping to the own records** is the same as counting all of them. -/
theorem stepBy_eq_share {index : Nat} (h : index < n) (records : List α) :
    stepBy n index records = share n index records :=
  stepBy_eq_shareFrom h (by rw [Nat.zero_add, Nat.mod_eq_of_lt h]) records

/-! ## Batches -/

theorem Batch.deal_ofList (songs : List Song) (plays : List Play) (n : Nat) :
    Batch.deal { songs := .ofList songs, plays := .ofList plays } n =
      (List.range n).map fun index =>
        ⟨.ofList (share n index songs), .ofList (share n index plays)⟩ := by
  simp only [Batch.deal, Collection.ofList, share_map]

end TopCharts
