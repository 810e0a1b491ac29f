import TopCharts.Arrangement.Basic
import TopCharts.Proofs.Arrangement.Layering
import TopCharts.Proofs.Router.Sharding

/-!
# What an arrangement holds

* `Arrangement.Holds a n c` : the `n` parts of an arrangement together hold the records of `c`;
* `Holds.history` : its history is what it holds, and its multiplicities are words;
* `Holds.add` : an addition is held with what was there before: each of its records goes to exactly
  one part.
-/

namespace TopCharts

open Attempt
open Std (TransOrd LawfulEqOrd)

theorem toNat_ofNat_max {n : Nat} (hpos : 0 < n) (hlt : n < 2 ^ 64) :
    (max (UInt64.ofNat n) 1).toNat = n := by
  have hn : (UInt64.ofNat n).toNat = n := UInt64.toNat_ofNat_of_lt' hlt
  show (if UInt64.ofNat n ≤ 1 then 1 else UInt64.ofNat n).toNat = n
  split
  · rename_i h
    rw [UInt64.le_iff_toNat_le, hn] at h
    show 1 = n
    exact le_antisymm hpos h
  · exact hn

theorem toNat_shardOf_lt {κ : Type} [ShardKey κ] (key : κ) {n : Nat} (hpos : 0 < n)
    (hlt : n < 2 ^ 64) : (shardOf key (UInt64.ofNat n)).toNat < n :=
  (shardOf_lt key (UInt64.ofNat n)).trans_eq (toNat_ofNat_max hpos hlt)

namespace Arrangement

variable {α κ : Type} {a a' : Arrangement α} {n : Nat} {c : Collection α}

/-- The `n` parts together hold the records of a collection. -/
structure Holds (a : Arrangement α) (n : Nat) (c : Collection α) : Prop where
  length : a.parts.length = n
  sound : ∀ part ∈ a.parts, part.Sound
  total : ∀ f, (a.parts.map fun part => part.total f).sum = c.sum f

theorem Holds.congr (h : a.Holds n c) {d : Collection α} (heq : ∀ f, c.sum f = d.sum f) :
    a.Holds n d :=
  ⟨h.length, h.sound, fun f => (h.total f).trans (heq f)⟩

theorem holds_start (n : Nat) : (start n : Arrangement α).Holds n .empty where
  length := List.length_replicate
  sound part hpart := by
    rw [List.eq_of_mem_replicate hpart]
    exact fun layer hlayer => absurd hlayer List.not_mem_nil
  total f := by
    show ((List.replicate n ({} : Layers α)).map _).sum = 0
    induction n with
    | zero => rfl
    | succ n ih =>
      rw [List.replicate_succ, List.map_cons, List.sum_cons, ih]
      rfl

/-! ## History -/

variable [Ord α] [TransOrd α] [LawfulEqOrd α] [DecidableEq α]

theorem Holds.history (h : a.Holds n c) {p : α → Bool} {d : Collection α}
    (hd : a.history p = .ok d) : ∀ f, d.sum f = (c.filter p).sum f := by
  intro f
  obtain ⟨rfl, -⟩ := Collection.settle_eq_ok hd
  have hparts (parts : List (Layers α)) (f : α → Int) :
      recorded ((parts.flatMap Layers.runs).flatMap Collection.rows) f =
        (parts.map fun part => part.total f).sum := by
    induction parts with
    | nil => rfl
    | cons part parts ih =>
      rw [List.flatMap_cons, List.flatMap_append, recorded_append, ih, List.map_cons, List.sum_cons]
      rfl
  rw [Collection.sum_consolidate, Collection.sum_filter, Collection.sum_map, Collection.sum_filter,
    ← h.total, ← hparts]
  rfl

/-! ## Additions -/

variable [Ord κ] [ShardKey κ] [ArrangedBy α κ]

def shardIndex (n : Nat) (r : α) : Nat :=
  (shardOf (ArrangedBy.key (κ := κ) r) (UInt64.ofNat n)).toNat

omit [Ord α] [TransOrd α] [LawfulEqOrd α] [DecidableEq α] in
theorem recorded_ofCollection (time : UInt64) (d : Collection α) (f : α → Int) :
    recorded (Run.ofCollection time d).rows f = d.sum f :=
  Collection.sum_map (fun r => (⟨r, time⟩ : Stamped α)) d fun s => f s.record

omit [Ord α] [TransOrd α] [LawfulEqOrd α] [DecidableEq α] [Ord κ] in
theorem sum_shards_succ (d : Collection α) (k m : Nat) (f : α → Int) :
    (d.sum fun r => if k ≤ shardIndex n r ∧ shardIndex n r < k + (m + 1) then f r else 0) =
      (d.filter fun r => shardIndex n r = k).sum f +
        d.sum fun r => if k + 1 ≤ shardIndex n r ∧ shardIndex n r < k + 1 + m then f r else 0 := by
  rw [Collection.sum_filter, ← Collection.sum_add]
  refine Collection.sum_congr fun row _ => ?_
  simp only [decide_eq_true_eq]
  split <;> split <;> split <;> omega

theorem total_add_parts {horizon : Horizon} {time : UInt64} {d : Collection α}
    {parts parts' : List (Layers α)} {k : Nat}
    (hadd : (parts.zipIdx k).mapM (fun part => part.1.add horizon
      (.ofCollection time (d.filter fun r => shardIndex n r = part.2))) = .ok parts')
    (hsound : ∀ part ∈ parts, part.Sound) :
    parts'.length = parts.length ∧ (∀ part ∈ parts', part.Sound) ∧
      ∀ f, (parts'.map fun part => part.total f).sum = (parts.map fun part => part.total f).sum +
        d.sum fun r =>
          if k ≤ shardIndex n r ∧ shardIndex n r < k + parts.length then f r else 0 := by
  induction parts generalizing parts' k with
  | nil =>
    cases pure_eq_ok.1 hadd
    refine ⟨rfl, hsound, fun f => ?_⟩
    have hnone : (d.sum fun r => if k ≤ shardIndex n r ∧ shardIndex n r < k + 0 then f r else 0) = 0 := by
      refine (Collection.sum_congr fun row _ => ?_).trans (Collection.sum_zero d)
      exact if_neg fun h => absurd h.2 (Nat.not_lt.2 h.1)
    exact (add_zero _).symm.trans (congrArg (0 + ·) hnone.symm)
  | cons part parts ih =>
    rw [List.zipIdx_cons, List.mapM_cons] at hadd
    obtain ⟨part', hpart', hadd⟩ := bind_eq_ok.1 hadd
    obtain ⟨parts₁, hparts₁, hadd⟩ := bind_eq_ok.1 hadd
    cases hadd
    obtain ⟨hpart, htotal⟩ := (hsound part List.mem_cons_self).add hpart'
    obtain ⟨hlength, hrest, htotals⟩ :=
      ih hparts₁ fun part hpart => hsound part (List.mem_cons_of_mem _ hpart)
    refine ⟨congrArg Nat.succ hlength, ?_, fun f => ?_⟩
    · intro a ha
      rcases List.mem_cons.1 ha with rfl | ha
      · exact hpart
      · exact hrest a ha
    · rw [List.map_cons, List.sum_cons, htotals, htotal, recorded_ofCollection, List.map_cons,
        List.sum_cons, List.length_cons, sum_shards_succ]
      dsimp only
      omega

/-- **What is added is held**, with what was there before. -/
theorem Holds.add (h : a.Holds n c) (hpos : 0 < n) (hlt : n < 2 ^ 64) {horizon : Horizon}
    {time : UInt64} {d : Collection α} (hadd : a.add horizon time d = .ok a') :
    a'.Holds n (c ++ d) := by
  obtain ⟨parts', hparts', hadd⟩ := bind_eq_ok.1 hadd
  rw [pure_eq_ok] at hadd
  subst hadd
  rw [h.length] at hparts'
  obtain ⟨hlength, hsound, htotal⟩ := total_add_parts hparts' h.sound
  refine ⟨hlength.trans h.length, hsound, fun f => ?_⟩
  rw [htotal, h.total, Collection.sum_append]
  refine congrArg _ (Collection.sum_congr fun row _ => if_pos ⟨Nat.zero_le _, ?_⟩)
  rw [h.length, Nat.zero_add]
  exact toNat_shardOf_lt _ hpos hlt

end Arrangement

end TopCharts
