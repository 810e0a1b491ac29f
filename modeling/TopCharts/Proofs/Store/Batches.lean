import TopCharts.Proofs.Store.PerKey
import TopCharts.Proofs.Store.Report

/-!
# Batches of updates, and changes of a value

* `concat_prefix_concat_iff` : the positions of a list grown by one element;
* `Outcome.merge_assoc`, `Outcome.mergeAll_append` : outcomes are merged in order, however the run
  is cut;
* `Store.turn s before u` : what the update `u` does in its turn, after those before it.
  `applyAll_append`, `fst_applyAll_concat` : a batch is its parts one after the other;
* `flag_applyAll` : a batch has created a chart, found an entry or missed one if an update did so in
  its turn; `evicted_applyAll` : of the evictions it reports the last one;
* `Update.replacing` : a change of a value as updates. `applyChange_eq_applyAll` : it is applied as
  they are;
* `batches_compose` : all this, and what a change of a value does to the store.
-/

namespace TopCharts

open Std (TransOrd LawfulEqOrd)

variable {κ : Type} {k : Nat}

/-! ## Positions of a list

`before ++ [a] <+: l` says that the list `l` has `a` right after `before`. -/

section

variable {α : Type} {before l : List α} {a b : α}

theorem not_concat_prefix_nil : ¬ before ++ [a] <+: [] := fun h =>
  List.concat_ne_nil a before (List.prefix_nil.1 h)

theorem length_lt_of_concat_isPrefix (h : before ++ [a] <+: l) : before.length < l.length := by
  have hlen := h.length_le
  rwa [List.length_append, List.length_singleton] at hlen

theorem concat_prefix_concat_iff :
    before ++ [a] <+: l ++ [b] ↔ before = l ∧ a = b ∨ before ++ [a] <+: l :=
  List.prefix_concat_iff.trans (or_congr_left List.append_singleton_inj)

end

/-! ## Outcomes -/

namespace Outcome

theorem empty_merge (o : Outcome) : ({} : Outcome).merge o = o := by
  obtain ⟨created, retracted, stale, evicted⟩ := o
  simp [merge]

theorem merge_empty (o : Outcome) : o.merge {} = o := by
  obtain ⟨created, retracted, stale, evicted⟩ := o
  simp [merge]

theorem merge_assoc (a b c : Outcome) : (a.merge b).merge c = a.merge (b.merge c) := by
  simp [merge, Bool.or_assoc, Option.or_assoc]

theorem evicted_merge (a b : Outcome) : (a.merge b).evicted = b.evicted.or a.evicted :=
  Option.orElse_eq_or

theorem mergeAll_concat (os : List Outcome) (o : Outcome) :
    mergeAll (os ++ [o]) = (mergeAll os).merge o :=
  List.foldl_append

theorem mergeAll_append (os ps : List Outcome) :
    mergeAll (os ++ ps) = (mergeAll os).merge (mergeAll ps) := by
  induction ps using List.reverseRecOn with
  | nil => rw [List.append_nil, mergeAll, mergeAll, List.foldl_nil, merge_empty]
  | append_singleton ps p ih =>
    rw [← List.append_assoc, mergeAll_concat, mergeAll_concat, ih, merge_assoc]

end Outcome

/-- The updates of a value that changes from `old` to `new`: the retraction comes first. -/
def Update.replacing (key : κ) (old new : Option Entry) : List (Update κ) :=
  (old.map (Update.mk key .remove)).toList ++ (new.map (Update.mk key .add)).toList

namespace Store

variable [Ord κ] [TransOrd κ]

/-! ## Batches -/

def turn (s : Store κ k) (before : List (Update κ)) (u : Update κ) : Outcome :=
  ((s.applyAll before).2.applyUpdate u).1

theorem applyAll_append (s : Store κ k) (us vs : List (Update κ)) :
    s.applyAll (us ++ vs) =
      ((s.applyAll us).1.merge ((s.applyAll us).2.applyAll vs).1,
        ((s.applyAll us).2.applyAll vs).2) := by
  show (Outcome.mergeAll (s.applyEach (us ++ vs)).1, (s.applyEach (us ++ vs)).2) = _
  rw [applyEach_append, Outcome.mergeAll_append]
  rfl

theorem applyAll_singleton (s : Store κ k) (u : Update κ) : s.applyAll [u] = s.applyUpdate u :=
  Prod.ext (Outcome.empty_merge _) rfl

theorem fst_applyAll_concat (s : Store κ k) (us : List (Update κ)) (u : Update κ) :
    (s.applyAll (us ++ [u])).1 = (s.applyAll us).1.merge (s.turn us u) := by
  rw [applyAll_append, applyAll_singleton]
  rfl

/-- A flag that merging keeps is set by a batch exactly if an update sets it in its turn. -/
theorem flag_applyAll (flag : Outcome → Bool) (hnone : flag {} = false)
    (hmerge : ∀ a b, flag (a.merge b) = (flag a || flag b)) (s : Store κ k) (us : List (Update κ)) :
    flag (s.applyAll us).1 ↔ ∃ before u, before ++ [u] <+: us ∧ flag (s.turn before u) := by
  induction us using List.reverseRecOn with
  | nil =>
    refine iff_of_false (Bool.eq_false_iff.1 hnone) ?_
    rintro ⟨before, u, hu, -⟩
    exact not_concat_prefix_nil hu
  | append_singleton us u ih =>
    rw [fst_applyAll_concat, hmerge, Bool.or_eq_true, ih]
    constructor
    · rintro (⟨before, v, hv, hflag⟩ | hflag)
      · exact ⟨before, v, concat_prefix_concat_iff.2 (.inr hv), hflag⟩
      · exact ⟨us, u, List.prefix_rfl, hflag⟩
    · rintro ⟨before, v, hv, hflag⟩
      rcases concat_prefix_concat_iff.1 hv with ⟨rfl, rfl⟩ | hv
      · exact .inr hflag
      · exact .inl ⟨before, v, hv, hflag⟩

theorem evicted_applyAll (s : Store κ k) (us : List (Update κ)) (e : Entry) :
    (s.applyAll us).1.evicted = some e ↔ ∃ before u, before ++ [u] <+: us ∧
      (s.turn before u).evicted = some e ∧ ∀ later v, later ++ [v] <+: us →
        before.length < later.length → (s.turn later v).evicted = none := by
  induction us using List.reverseRecOn with
  | nil =>
    refine iff_of_false nofun ?_
    rintro ⟨before, u, hu, -⟩
    exact not_concat_prefix_nil hu
  | append_singleton us u ih =>
    rw [fst_applyAll_concat, Outcome.evicted_merge, Option.or_eq_some_iff]
    constructor
    · rintro (hu | ⟨hu, hus⟩)
      · refine ⟨us, u, List.prefix_rfl, hu, fun later v hv hlt => ?_⟩
        have hlast := length_lt_of_concat_isPrefix hv
        rw [List.length_append, List.length_singleton] at hlast
        omega
      · obtain ⟨before, v, hv, hevicted, hlater⟩ := ih.1 hus
        refine ⟨before, v, concat_prefix_concat_iff.2 (.inr hv), hevicted, ?_⟩
        intro later w hw hlt
        rcases concat_prefix_concat_iff.1 hw with ⟨rfl, rfl⟩ | hw
        · exact hu
        · exact hlater later w hw hlt
    · rintro ⟨before, v, hv, hevicted, hlater⟩
      rcases concat_prefix_concat_iff.1 hv with ⟨rfl, rfl⟩ | hv
      · exact .inl hevicted
      · refine .inr ⟨hlater us u List.prefix_rfl (length_lt_of_concat_isPrefix hv), ih.2 ?_⟩
        exact ⟨before, v, hv, hevicted, fun later w hw =>
          hlater later w (concat_prefix_concat_iff.2 (.inr hw))⟩

/-! ## Changes of a value -/

/-- A change of a value is applied as the updates that it stands for. -/
theorem applyChange_eq_applyAll (s : Store κ k) (key : κ) (old new : Option Entry) :
    s.applyChange key old new = s.applyAll (Update.replacing key old new) := by
  cases old with
  | none =>
    cases new with
    | none => rfl
    | some e =>
      refine Eq.trans ?_ (applyAll_singleton s ⟨key, .add, e⟩).symm
      exact Prod.ext (Outcome.empty_merge (s.apply key .add e).1) rfl
  | some a =>
    cases new with
    | none => exact (applyAll_singleton s ⟨key, .remove, a⟩).symm
    | some e =>
      refine Eq.trans ?_ (applyAll_append s [⟨key, .remove, a⟩] [⟨key, .add, e⟩]).symm
      rw [applyAll_singleton, applyAll_singleton]
      rfl

theorem created_apply (s : Store κ k) (key : κ) (change : Change) (e : Entry) :
    (s.apply key change e).1.created ↔ s.get? key = none := by
  have hcreated : (s.apply key change e).1.created = !s.charts.contains key := by
    cases change with
    | add => rfl
    | remove => rfl
  rw [hcreated, Std.ExtTreeMap.contains_eq_isSome_getElem?, Bool.not_eq_true',
    Option.isSome_eq_false_iff, Option.isNone_iff_eq_none]
  rfl

variable [LawfulEqOrd κ] [DecidableEq κ]

theorem created_applyChange (s : Store κ k) (key : κ) (old new : Option Entry) :
    (s.applyChange key old new).1.created ↔ s.get? key = none ∧ (old.isSome ∨ new.isSome) := by
  cases old with
  | none =>
    cases new with
    | none => exact iff_of_false Bool.false_ne_true fun h => h.2.elim nofun nofun
    | some e =>
      show (Outcome.merge {} (s.apply key .add e).1).created ↔ _
      rw [Outcome.empty_merge, created_apply, and_iff_left (.inr rfl)]
  | some a =>
    rw [and_iff_left (.inl rfl)]
    cases new with
    | none => exact created_apply s key .remove a
    | some e =>
      show (s.apply key .remove a).1.created ||
        ((s.apply key .remove a).2.apply key .add e).1.created ↔ _
      rw [Bool.or_eq_true, created_apply, created_apply, get?_apply, if_pos rfl]
      exact or_iff_left nofun

theorem evicted_applyChange (s : Store κ k) (key : κ) (old new : Option Entry) :
    (s.applyChange key old new).1.evicted = ((s.chart key).replace old new).1 := by
  cases new with
  | none =>
    cases old with
    | none => rfl
    | some a => rfl
  | some e =>
    cases old with
    | none =>
      show (Outcome.merge {} (s.apply key .add e).1).evicted = _
      rw [Outcome.empty_merge, evicted_apply_add]
      rfl
    | some a =>
      show ((s.apply key .remove a).1.merge
        ((s.apply key .remove a).2.apply key .add e).1).evicted = _
      rw [Outcome.evicted_merge, evicted_apply_add, chart_apply_self]
      exact Option.or_none

theorem get?_applyChange_eq (s : Store κ k) (key : κ) (old new : Option Entry) (a : κ) :
    (s.applyChange key old new).2.get? a =
      if key = a ∧ (old.isSome ∨ new.isSome) then some ((s.chart key).replace old new).2
      else s.get? a := by
  rw [get?_applyChange]
  by_cases hkey : key = a
  · subst hkey
    cases old with
    | none =>
      cases new with
      | none => simp [StoreCall.effect]
      | some e => simp [StoreCall.effect, chart]
    | some b => simp [StoreCall.effect, chart]
  · rw [if_neg hkey, if_neg fun h => hkey h.1]

end Store

/-- **Batches compose, and the ways to change a store agree.** A batch that is cut in two leaves the
store that its parts leave one after the other, and their outcomes are merged: it has created a
chart, taken an entry back or missed one exactly if one of its updates did so in its turn, and the
eviction that it reports is the last one. A change of a value is applied as its retraction and its
addition, as far as there are such values. It does to the chart of its key what the chart's own
replacement does, reports the same eviction and leaves the other charts; it creates a chart exactly
if the key had none and a value is given. -/
theorem batches_compose [Ord κ] [TransOrd κ] [LawfulEqOrd κ] [DecidableEq κ] (s : Store κ k) :
    (∀ us vs : List (Update κ), s.applyAll (us ++ vs) =
      ((s.applyAll us).1.merge ((s.applyAll us).2.applyAll vs).1,
        ((s.applyAll us).2.applyAll vs).2)) ∧
    (∀ us : List (Update κ),
      ((s.applyAll us).1.created ↔
        ∃ before u, before ++ [u] <+: us ∧ (s.turn before u).created) ∧
      ((s.applyAll us).1.retracted ↔
        ∃ before u, before ++ [u] <+: us ∧ (s.turn before u).retracted) ∧
      ((s.applyAll us).1.stale ↔ ∃ before u, before ++ [u] <+: us ∧ (s.turn before u).stale) ∧
      ∀ e, (s.applyAll us).1.evicted = some e ↔ ∃ before u, before ++ [u] <+: us ∧
        (s.turn before u).evicted = some e ∧ ∀ later v, later ++ [v] <+: us →
          before.length < later.length → (s.turn later v).evicted = none) ∧
    ∀ (key : κ) (old new : Option Entry),
      s.applyChange key old new = s.applyAll (Update.replacing key old new) ∧
      (s.applyChange key old new).1.evicted = ((s.chart key).replace old new).1 ∧
      (∀ a, (s.applyChange key old new).2.get? a =
        if key = a ∧ (old.isSome ∨ new.isSome) then some ((s.chart key).replace old new).2
        else s.get? a) ∧
      ((s.applyChange key old new).1.created ↔
        s.get? key = none ∧ (old.isSome ∨ new.isSome)) := by
  refine ⟨Store.applyAll_append s, fun us => ⟨?_, ?_, ?_, Store.evicted_applyAll s us⟩,
    fun key old new => ⟨Store.applyChange_eq_applyAll s key old new,
      Store.evicted_applyChange s key old new, Store.get?_applyChange_eq s key old new,
      Store.created_applyChange s key old new⟩⟩
  · exact Store.flag_applyAll Outcome.created rfl (fun _ _ => rfl) s us
  · exact Store.flag_applyAll Outcome.retracted rfl (fun _ _ => rfl) s us
  · exact Store.flag_applyAll Outcome.stale rfl (fun _ _ => rfl) s us

/-- A batch with an eviction in each half, and two changes of a value, one of a new key. -/
theorem batches_compose_evictions :
    let s : Store Nat 1 := (Store.empty.applyAll [⟨1, .add, ⟨7, 5⟩⟩]).2
    let us : List (Update Nat) := [⟨1, .add, ⟨8, 9⟩⟩, ⟨2, .remove, ⟨7, 5⟩⟩]
    let vs : List (Update Nat) := [⟨1, .add, ⟨9, 1⟩⟩, ⟨1, .remove, ⟨8, 9⟩⟩]
    (s.applyAll (us ++ vs)).2 = ((s.applyAll us).2.applyAll vs).2 ∧
      (s.applyAll (us ++ vs)).1 = ⟨true, true, true, some ⟨9, 1⟩⟩ ∧
      (∃ before u, before ++ [u] <+: us ++ vs ∧ (s.turn before u).evicted = some ⟨9, 1⟩) ∧
      (s.applyChange 1 (some ⟨7, 5⟩) (some ⟨8, 2⟩)).2.get? 1 =
        some ((s.chart 1).replace (some ⟨7, 5⟩) (some ⟨8, 2⟩)).2 ∧
      (s.applyChange 3 none (some ⟨8, 2⟩)).1.created := by
  intro s us vs
  obtain ⟨happend, houtcome, hchange⟩ := batches_compose s
  have hreport : (s.applyAll (us ++ vs)).1 = ⟨true, true, true, some ⟨9, 1⟩⟩ := by decide
  obtain ⟨-, -, -, hevicted⟩ := houtcome (us ++ vs)
  obtain ⟨before, u, hprefix, hu, -⟩ := (hevicted ⟨9, 1⟩).1 (hreport ▸ rfl)
  refine ⟨by rw [happend], hreport, ⟨before, u, hprefix, hu⟩, ?_, ?_⟩
  · exact ((hchange 1 _ _).2.2.1 1).trans (if_pos ⟨rfl, .inl rfl⟩)
  · exact (hchange 3 _ _).2.2.2.2 ⟨by decide, .inr rfl⟩

end TopCharts
