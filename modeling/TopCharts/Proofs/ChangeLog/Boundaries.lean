import TopCharts.Proofs.ChangeLog.Overflow
import TopCharts.Proofs.Store.View

/-!
# Drains between times

A drain goes through the times of its changes in order. So it does not matter whether a log is
drained once, or also in between, after all changes of some time and before those of a later one.

* `Interleaves as bs mixed` : a list that has the elements of two others, those of each in order.
  `Woven lists mixed` : the same for any number of lists;
* `Before earlier later` : all times of one list are before those of another. Then no place is in
  both (`net_eq_zero_or`), and the running sums of a place are those in one of the lists
  (`sumsFit_iff_of_interleaves`);
* `ChangeLog.append_updates`, `ChangeLog.updates_of_interleaves`, `ChangeLog.updates_of_woven` : the
  drain of all changes delivers what the drains of the lists deliver, one after the other, and
  succeeds if they do;
* `Feeding.foldlM_take_eq_ok_iff` : what a store is fed batch by batch;
* `ChangeLog.drain_between_times` : so the store comes out the same.
-/

namespace TopCharts

open Attempt
open Std (TransOrd LawfulEqOrd)

/-! ## Interleaved lists -/

section

variable {α : Type} {as bs mixed : List α}

/-- `mixed` has the elements of both lists, those of each in their order. -/
inductive Interleaves : List α → List α → List α → Prop where
  | nil : Interleaves [] [] []
  | left {a : α} {as bs mixed : List α} (h : Interleaves as bs mixed) :
      Interleaves (a :: as) bs (a :: mixed)
  | right {b : α} {as bs mixed : List α} (h : Interleaves as bs mixed) :
      Interleaves as (b :: bs) (b :: mixed)

namespace Interleaves

theorem perm (h : Interleaves as bs mixed) : mixed.Perm (as ++ bs) := by
  induction h with
  | nil => exact .nil
  | left _ ih => exact ih.cons _
  | right _ ih => exact (ih.cons _).trans List.perm_middle.symm

theorem filter (h : Interleaves as bs mixed) (p : α → Bool) :
    Interleaves (as.filter p) (bs.filter p) (mixed.filter p) := by
  induction h with
  | nil => exact .nil
  | @left a _ _ _ _ ih =>
    cases hp : p a with
    | true => simpa only [List.filter_cons_of_pos hp] using ih.left
    | false => simpa only [List.filter_cons_of_neg (Bool.eq_false_iff.1 hp)] using ih
  | @right b _ _ _ _ ih =>
    cases hp : p b with
    | true => simpa only [List.filter_cons_of_pos hp] using ih.right
    | false => simpa only [List.filter_cons_of_neg (Bool.eq_false_iff.1 hp)] using ih

theorem eq_left (h : Interleaves as [] mixed) : mixed = as := by
  generalize hbs : ([] : List α) = bs at h
  induction h with
  | nil => rfl
  | left _ ih => rw [ih hbs]
  | right => cases hbs

theorem eq_right (h : Interleaves [] bs mixed) : mixed = bs := by
  generalize has : ([] : List α) = as at h
  induction h with
  | nil => rfl
  | left => cases has
  | right _ ih => rw [ih has]

end Interleaves

/-- `mixed` has the elements of all lists, those of each in their order. -/
inductive Woven : List (List α) → List α → Prop where
  | nil : Woven [] []
  | cons {as rest mixed : List α} {lists : List (List α)} (hrest : Woven lists rest)
      (h : Interleaves as rest mixed) : Woven (as :: lists) mixed

theorem Woven.perm {lists : List (List α)} (h : Woven lists mixed) : mixed.Perm lists.flatten := by
  induction h with
  | nil => exact .nil
  | cons _ h ih => exact h.perm.trans (ih.append_left _)

end

/-! ## Changes before others -/

variable {κ τ : Type} [Ord τ]

/-- All times of the first changes are before those of the second. -/
def Before (earlier later : List (Weighted κ τ)) : Prop :=
  ∀ a ∈ earlier, ∀ b ∈ later, compare a.time b.time = .lt

instance (earlier later : List (Weighted κ τ)) : Decidable (Before earlier later) :=
  inferInstanceAs (Decidable (∀ a ∈ earlier, ∀ b ∈ later, compare a.time b.time = .lt))

variable [TransOrd τ] {earlier later mixed : List (Weighted κ τ)}

theorem Before.place_ne (h : Before earlier later) {a b : Weighted κ τ} (ha : a ∈ earlier)
    (hb : b ∈ later) : a.place ≠ b.place := by
  intro hplace
  have hlt := h a ha b hb
  have htime : a.time = b.time := congrArg Prod.fst hplace
  rw [htime, Std.ReflOrd.compare_self] at hlt
  cases hlt

variable [DecidableEq κ] [DecidableEq τ]

theorem Before.filter_eq_nil_or (h : Before earlier later) (x : τ × κ × Entry) :
    earlier.filter (·.place = x) = [] ∨ later.filter (·.place = x) = [] := by
  by_cases hx : ∃ a ∈ earlier, a.place = x
  · obtain ⟨a, ha, rfl⟩ := hx
    refine .inr (List.filter_eq_nil_iff.2 fun b hb hplace => ?_)
    exact h.place_ne ha hb (of_decide_eq_true hplace).symm
  · refine .inl (List.filter_eq_nil_iff.2 fun a ha hplace => ?_)
    exact hx ⟨a, ha, of_decide_eq_true hplace⟩

theorem Before.net_eq_zero_or (h : Before earlier later) (x : τ × κ × Entry) :
    net earlier x = 0 ∨ net later x = 0 := by
  rw [← net_filter_place earlier, ← net_filter_place later]
  exact (h.filter_eq_nil_or x).imp (fun hnone => by rw [hnone, net_nil]) fun hnone => by
    rw [hnone, net_nil]

/-- The running sums of a place are those in one of the lists. -/
theorem Before.sumsFit_iff_of_interleaves (h : Before earlier later)
    (hmixed : Interleaves earlier later mixed) :
    SumsFit mixed ↔ SumsFit earlier ∧ SumsFit later := by
  rw [sumsFit_iff, sumsFit_iff, sumsFit_iff, ← forall_and]
  refine forall_congr' fun x => ?_
  have hplace := hmixed.filter (·.place = x)
  have hnil : ∀ sums, sums <+: ([] : List (Weighted κ τ)) → IsWord (net sums x) := by
    intro sums hsums
    exact sumsFit_nil sums hsums x
  rcases h.filter_eq_nil_or x with hnone | hnone
  · rw [hnone] at hplace ⊢
    rw [hplace.eq_right, and_iff_right hnil]
  · rw [hnone] at hplace ⊢
    rw [hplace.eq_left, and_iff_left hnil]

/-! ## Drains -/

namespace ChangeLog

variable [LawfulEqOrd τ] [Ord κ] [TransOrd κ] [LawfulEqOrd κ]

/-- **What the drain of all changes delivers**, in whatever order they are recorded. -/
theorem append_updates (h : Before earlier later) (hmixed : mixed.Perm (earlier ++ later))
    {us vs ws : List (Update κ)} (hus : updates earlier = .ok us) (hvs : updates later = .ok vs)
    (hws : updates mixed = .ok ws) : us ++ vs = ws := by
  obtain ⟨first, rfl, hfirst, hmemFirst⟩ := updates_eq_ok hus
  obtain ⟨second, rfl, hsecond, hmemSecond⟩ := updates_eq_ok hvs
  obtain ⟨all, rfl, hall, hmemAll⟩ := updates_eq_ok hws
  rw [← List.map_append]
  refine congrArg _ (eq_of_pairwise_compare_lt (List.pairwise_append.2 ⟨hfirst, hsecond, ?_⟩)
    hall fun u => ?_)
  · intro u hu v hv
    obtain ⟨a, ha, hau⟩ := exists_time_eq ((hmemFirst u.1 u.2).1 hu)
    obtain ⟨b, hb, hbv⟩ := exists_time_eq ((hmemSecond v.1 v.2).1 hv)
    exact drainOrder_eq_lt.2 (.inl (hau ▸ hbv ▸ h a ha b hb))
  · rw [List.mem_append, hmemFirst u.1 u.2, hmemSecond u.1 u.2, hmemAll u.1 u.2, net_perm hmixed,
      net_append]
    rcases h.net_eq_zero_or (u.1, u.2.key, u.2.entry) with hzero | hzero
    · simp [hzero]
    · simp [hzero]

theorem exists_updates_of_interleaves (h : Before earlier later)
    (hmixed : Interleaves earlier later mixed) :
    (∃ ws, updates mixed = .ok ws) ↔
      (∃ us, updates earlier = .ok us) ∧ ∃ vs, updates later = .ok vs := by
  have hleast : (∀ x, net mixed x ≠ Int64.minValue.toInt) ↔
      (∀ x, net earlier x ≠ Int64.minValue.toInt) ∧ ∀ x, net later x ≠ Int64.minValue.toInt := by
    rw [← forall_and]
    refine forall_congr' fun x => ?_
    have hzero : (0 : Int) ≠ Int64.minValue.toInt := by decide
    rw [net_perm hmixed.perm, net_append]
    rcases h.net_eq_zero_or x with hnet | hnet
    · rw [hnet, Int.zero_add, and_iff_right hzero]
    · rw [hnet, Int.add_zero, and_iff_left hzero]
  rw [exists_updates_iff, exists_updates_iff, exists_updates_iff,
    h.sumsFit_iff_of_interleaves hmixed, hleast, and_and_and_comm]

/-- **A drain in between** does not matter: the drains of both lists deliver what that of all
changes delivers, and succeed if it does. -/
theorem updates_of_interleaves (h : Before earlier later)
    (hmixed : Interleaves earlier later mixed) {ws : List (Update κ)} :
    updates mixed = .ok ws ↔
      ∃ us vs, updates earlier = .ok us ∧ updates later = .ok vs ∧ us ++ vs = ws := by
  constructor
  · intro hws
    obtain ⟨⟨us, hus⟩, vs, hvs⟩ := (exists_updates_of_interleaves h hmixed).1 ⟨ws, hws⟩
    exact ⟨us, vs, hus, hvs, append_updates h hmixed.perm hus hvs hws⟩
  · rintro ⟨us, vs, hus, hvs, rfl⟩
    obtain ⟨ws, hws⟩ := (exists_updates_of_interleaves h hmixed).2 ⟨⟨us, hus⟩, vs, hvs⟩
    rw [append_updates h hmixed.perm hus hvs hws]
    exact hws

omit [DecidableEq κ] [TransOrd τ] [DecidableEq τ] [LawfulEqOrd τ] [TransOrd κ] [LawfulEqOrd κ] in
theorem updates_nil : updates ([] : List (Weighted κ τ)) = .ok [] := by
  rw [updates, List.mergeSort_nil]
  show Except.ok (([] : List (τ × Update κ)).mergeSort _ |>.map Prod.snd) = _
  rw [List.mergeSort_nil]
  rfl

theorem updates_of_woven {batches : List (List (Weighted κ τ))}
    (hsorted : batches.Pairwise Before) (hmixed : Woven batches mixed) {us : List (Update κ)} :
    updates mixed = .ok us ↔ ∃ parts, batches.mapM updates = .ok parts ∧ parts.flatten = us := by
  induction hmixed generalizing us with
  | nil =>
    rw [updates_nil]
    simp
  | @cons batch rest mixed batches hrest hmixed ih =>
    obtain ⟨hbatch, hsorted⟩ := List.pairwise_cons.1 hsorted
    have hbefore : Before batch rest := by
      intro a ha b hb
      obtain ⟨other, hother, hb⟩ := List.mem_flatten.1 (hrest.perm.mem_iff.1 hb)
      exact hbatch other hother a ha b hb
    rw [updates_of_interleaves hbefore hmixed, List.mapM_cons]
    simp only [ih hsorted, bind_eq_ok, pure_eq_ok]
    constructor
    · rintro ⟨vs, ws, hvs, ⟨parts, hparts, rfl⟩, rfl⟩
      exact ⟨vs :: parts, ⟨vs, hvs, parts, hparts, rfl⟩, rfl⟩
    · rintro ⟨_, ⟨vs, hvs, parts, hparts, rfl⟩, rfl⟩
      exact ⟨vs, parts.flatten, hvs, ⟨parts, hparts, rfl⟩, rfl⟩

end ChangeLog

/-! ## Stores -/

omit [TransOrd τ] [DecidableEq κ] [DecidableEq τ] in
/-- A store that is fed batch by batch takes the updates of one batch after the other. -/
theorem Feeding.foldlM_take_eq_ok_iff [Ord κ] [TransOrd κ] {k : Nat}
    {batches : List (List (Weighted κ τ))} {s : Store κ k} {f : Feeding κ τ k} :
    batches.foldlM Feeding.take ⟨.empty, s⟩ = .ok f ↔
      ∃ parts, batches.mapM ChangeLog.updates = .ok parts ∧
        ⟨.empty, (s.applyEach parts.flatten).2⟩ = f := by
  induction batches generalizing s with
  | nil =>
    simp only [List.foldlM_nil, List.mapM_nil, pure_eq_ok]
    constructor
    · rintro rfl
      exact ⟨[], rfl, rfl⟩
    · rintro ⟨_, rfl, rfl⟩
      rfl
  | cons batch batches ih =>
    rw [List.foldlM_cons, List.mapM_cons]
    simp only [bind_eq_ok, pure_eq_ok, Feeding.take_eq_ok_iff]
    constructor
    · rintro ⟨_, ⟨us, hus, rfl⟩, h⟩
      obtain ⟨parts, hparts, rfl⟩ := ih.1 h
      refine ⟨us :: parts, ⟨us, hus, parts, hparts, rfl⟩, ?_⟩
      rw [List.flatten_cons, Store.applyEach_append]
    · rintro ⟨_, ⟨us, hus, parts, hparts, rfl⟩, rfl⟩
      refine ⟨_, ⟨us, hus, rfl⟩, ih.2 ⟨parts, hparts, ?_⟩⟩
      rw [List.flatten_cons, Store.applyEach_append]

/-- **It does not matter whether a log is drained between times.** Let all times of the first
changes be before those of the second.

* If the two are recorded interleaved and drained once, this succeeds exactly if the drain of the
  first and then that of the second do, and it delivers what these deliver, one after the other.
* Where all three drains succeed, that holds for changes recorded in any order.

So a store that is fed batch by batch, each at times before those of the next ones, is the same as
one that is fed all changes at once. -/
theorem ChangeLog.drain_between_times (κ τ : Type) [Ord κ] [TransOrd κ] [LawfulEqOrd κ]
    [DecidableEq κ] [Ord τ] [TransOrd τ] [LawfulEqOrd τ] [DecidableEq τ] (k : Nat) :
    (∀ earlier later mixed : List (Weighted κ τ), Before earlier later →
      let first := (earlier.foldl record .empty).drain
      let second := (later.foldl record first.2).drain
      let once := (mixed.foldl record .empty).drain
      (Interleaves earlier later mixed → ∀ ws, once.1 = .ok ws ↔
        ∃ us vs, first.1 = .ok us ∧ second.1 = .ok vs ∧ us ++ vs = ws) ∧
      (mixed.Perm (earlier ++ later) → ∀ us vs ws, first.1 = .ok us → second.1 = .ok vs →
        once.1 = .ok ws → us ++ vs = ws)) ∧
    ∀ (batches : List (List (Weighted κ τ))) (mixed : List (Weighted κ τ)),
      batches.Pairwise Before → Woven batches mixed → ∀ (s : Store κ k) (f : Feeding κ τ k),
        batches.foldlM Feeding.take ⟨.empty, s⟩ = .ok f ↔
          Feeding.take ⟨.empty, s⟩ mixed = .ok f := by
  refine ⟨fun earlier later mixed h => ?_, fun batches mixed hsorted hmixed s f => ?_⟩
  · intro first second once
    have hfirst : first = (updates earlier, .empty) := Feeding.drain_foldl_record .empty earlier
    have hsecond : second = (updates later, .empty) := by
      show (later.foldl record first.2).drain = _
      rw [hfirst]
      exact Feeding.drain_foldl_record .empty later
    have honce : once = (updates mixed, .empty) := Feeding.drain_foldl_record .empty mixed
    rw [hfirst, hsecond, honce]
    exact ⟨fun hmixed ws => updates_of_interleaves h hmixed, fun hmixed us vs ws hus hvs hws =>
      append_updates h hmixed hus hvs hws⟩
  · rw [Feeding.foldlM_take_eq_ok_iff, Feeding.take_eq_ok_iff]
    show _ ↔ ∃ us, updates mixed = .ok us ∧ _
    simp only [updates_of_woven hsorted hmixed]
    constructor
    · rintro ⟨parts, hparts, rfl⟩
      exact ⟨parts.flatten, ⟨parts, hparts, rfl⟩, rfl⟩
    · rintro ⟨_, ⟨parts, hparts, rfl⟩, rfl⟩
      exact ⟨parts, hparts, rfl⟩

/-- A retraction and an addition at a later time, recorded among those of two earlier times whose
running sum reaches the greatest word. -/
theorem ChangeLog.drain_between_times_interleaved :
    let earlier : List (Weighted Nat Nat) := [⟨1, 1, ⟨7, 5⟩, Int64.maxValue⟩, ⟨0, 2, ⟨8, 4⟩, 1⟩,
      ⟨1, 1, ⟨7, 5⟩, -1⟩, ⟨1, 1, ⟨7, 5⟩, 1⟩]
    let later : List (Weighted Nat Nat) := [⟨2, 1, ⟨7, 6⟩, 1⟩, ⟨2, 1, ⟨7, 5⟩, -1⟩]
    let mixed : List (Weighted Nat Nat) := [⟨2, 1, ⟨7, 6⟩, 1⟩, ⟨1, 1, ⟨7, 5⟩, Int64.maxValue⟩,
      ⟨0, 2, ⟨8, 4⟩, 1⟩, ⟨2, 1, ⟨7, 5⟩, -1⟩, ⟨1, 1, ⟨7, 5⟩, -1⟩, ⟨1, 1, ⟨7, 5⟩, 1⟩]
    Before earlier later ∧ Interleaves earlier later mixed ∧
      (mixed.foldl record .empty).drain.1 =
        .ok [⟨2, .add, ⟨8, 4⟩⟩, ⟨1, .add, ⟨7, 5⟩⟩, ⟨1, .remove, ⟨7, 5⟩⟩, ⟨1, .add, ⟨7, 6⟩⟩] ∧
      (∀ us vs ws, (earlier.foldl record .empty).drain.1 = .ok us →
        (later.foldl record (earlier.foldl record .empty).drain.2).drain.1 = .ok vs →
          (mixed.reverse.foldl record .empty).drain.1 = .ok ws → us ++ vs = ws) ∧
      ∀ f : Feeding Nat Nat 1,
        Feeding.run [earlier, later] = .ok f ↔ Feeding.run [mixed] = .ok f := by
  intro earlier later mixed
  obtain ⟨hboth, hbatches⟩ := drain_between_times Nat Nat 1
  have hbefore : Before earlier later := by decide
  have hmixed : Interleaves earlier later mixed :=
    .right (.left (.left (.right (.left (.left .nil)))))
  have hwoven : Woven [earlier, later] mixed :=
    .cons (.cons .nil (.left (.left .nil))) hmixed
  have hreverse : mixed.reverse.Perm (earlier ++ later) :=
    (List.reverse_perm mixed).trans hmixed.perm
  obtain ⟨hinterleaved, -⟩ := hboth earlier later mixed hbefore
  refine ⟨hbefore, hmixed, (hinterleaved hmixed _).2 ?_, ?_, fun f => ?_⟩
  · refine ⟨[⟨2, .add, ⟨8, 4⟩⟩, ⟨1, .add, ⟨7, 5⟩⟩],
      [⟨1, .remove, ⟨7, 5⟩⟩, ⟨1, .add, ⟨7, 6⟩⟩], ?_, ?_, rfl⟩
    · cbv
    · cbv
  · exact (hboth earlier later mixed.reverse hbefore).2 hreverse
  · refine (hbatches [earlier, later] mixed ?_ hwoven .empty f).trans ?_
    · exact List.pairwise_cons.2 ⟨by simpa using hbefore, List.pairwise_singleton _ _⟩
    · rw [Feeding.run, List.foldlM_cons]
      simp only [List.foldlM_nil, bind_pure]
      rfl

end TopCharts
