import Mathlib.Data.Multiset.Filter
import TopCharts.Proofs.Collection.Totals
import TopCharts.Proofs.Pipeline.History

/-!
# What a tracker sends amounts to what it holds

* `replay` : updates, applied to a multiset of values. An addition puts in one copy of its value and
  a retraction takes out one copy, which must be there;
* `Tracker.values` : the values that a tracker holds, one for each record;
* `Moves.replay_updates` : the updates of a change turn the values held before it into those held
  after it. `Moves.updates_eq_nil_iff` : there are none exactly if nothing has changed;
* `Outbox υ γ` : a tracker, all that it has sent, and the values that it forgot;
* `Outbox.Settled` : what was sent amounts to the values held and those forgotten. Every action
  keeps this (`Settled.perform`, `Settled.performTally`);
* `Outbox.sent_amounts_to_held` : so it is after every run of a table, and of tallies.
-/

namespace TopCharts

open Std (TransOrd LawfulEqOrd)

variable {υ γ : Type}

/-! ## Replaying updates -/

def Update.value (u : Update γ) : γ × Entry :=
  (u.key, u.entry)

/-- Puts in one copy of the value of an update, or takes out one that is there. -/
def Update.replay [DecidableEq γ] (s : Multiset (γ × Entry)) (u : Update γ) :
    Option (Multiset (γ × Entry)) :=
  match u.change with
  | .add => some (u.value ::ₘ s)
  | .remove => if u.value ∈ s then some (s.erase u.value) else none

/-- What updates amount to, one after the other, from nothing. -/
def replay [DecidableEq γ] (us : List (Update γ)) : Option (Multiset (γ × Entry)) :=
  us.foldlM Update.replay 0

/-- The updates of a step take out what it takes back, and put in what it delivers. -/
theorem Tracker.Step.replay_updates [DecidableEq γ] (step : Tracker.Step γ)
    (s : Multiset (γ × Entry)) :
    step.updates.foldlM Update.replay (.ofList step.retracted.toList + s) =
      some (.ofList step.upserted.toList + s) := by
  obtain ⟨retracted, upserted⟩ := step
  rcases retracted with _ | v <;> rcases upserted with _ | w <;>
    simp [updates, Update.replay, Update.value]

/-! ## The values of a tracker -/

namespace Tracker

variable [Ord υ] [TransOrd υ]

def values (t : Tracker υ γ) : Multiset (γ × Entry) :=
  .ofList (t.held.toList.map Prod.snd)

theorem values_empty : (empty : Tracker υ γ).values = 0 := by
  have htoList : (∅ : Std.ExtTreeMap υ (γ × Entry)).toList = [] :=
    List.eq_nil_of_length_eq_zero (by simp)
  change Multiset.ofList (List.map _ (∅ : Std.ExtTreeMap υ (γ × Entry)).toList) = 0
  rw [htoList]
  rfl

theorem values_forget (t : Tracker υ γ) (keep : γ → Bool) :
    (t.forget keep).values = t.values.filter fun v => keep v.1 := by
  change Multiset.ofList (List.map _ (t.held.filter _).toList) = _
  rw [values, Std.ExtTreeMap.toList_filter, Multiset.filter_coe, List.filter_map]
  simp [Function.comp_def]

variable [LawfulEqOrd υ]

theorem nodup_toList (t : Tracker υ γ) : t.held.toList.Nodup := by
  refine Std.ExtTreeMap.distinct_keys_toList.imp ?_
  rintro a b hne rfl
  exact hne Std.ReflOrd.compare_self

theorem values_eq_add (t : Tracker υ γ) (record : υ) :
    t.values = .ofList (t.held[record]?).toList + (⟨t.held.erase record⟩ : Tracker υ γ).values := by
  have hperm : t.held.toList.Perm
      ((t.held[record]?).toList.map (record, ·) ++ (t.held.erase record).toList) := by
    refine (List.perm_ext_iff_of_nodup t.nodup_toList (List.nodup_append.2 ⟨?_, ?_, ?_⟩)).2 ?_
    · cases t.held[record]? <;> simp
    · exact (⟨t.held.erase record⟩ : Tracker υ γ).nodup_toList
    · rintro a ha b hb rfl
      obtain ⟨v, -, rfl⟩ := List.mem_map.1 ha
      rw [Std.ExtTreeMap.mem_toList_iff_getElem?_eq_some,
        Std.ExtTreeMap.getElem?_erase_self] at hb
      cases hb
    · rintro ⟨r, v⟩
      rw [List.mem_append, List.mem_map, Std.ExtTreeMap.mem_toList_iff_getElem?_eq_some,
        Std.ExtTreeMap.mem_toList_iff_getElem?_eq_some, Std.ExtTreeMap.getElem?_erase]
      simp only [LawfulEqOrd.compare_eq_iff_eq, Option.mem_toList, Prod.mk.injEq]
      by_cases hr : record = r
      · subst hr
        simp
      · simp [hr]
  rw [values, Multiset.coe_eq_coe.2 (hperm.map Prod.snd), List.map_append, List.map_map,
    ← Multiset.coe_add]
  simp [values, Function.comp_def]

variable {t : Tracker υ γ} {record : υ} {change : Step γ × Tracker υ γ}

/-- **A change of one record** turns the values held before it into those held after it. -/
theorem Moves.replay_updates [DecidableEq γ] (h : t.Moves record change)
    (s : Multiset (γ × Entry)) :
    change.1.updates.foldlM Update.replay (t.values + s) = some (change.2.values + s) := by
  rw [t.values_eq_add record, change.2.values_eq_add record, h.erase_eq, add_assoc, add_assoc]
  rcases h.step with ⟨hstep, -⟩ | ⟨hstep, hsame⟩
  · rw [hstep]
    exact Step.replay_updates ⟨t.held[record]?, change.2.held[record]?⟩ _
  · rw [hstep, hsame]
    rfl

/-- A change sends nothing exactly if it leaves what is held as it was. -/
theorem Moves.updates_eq_nil_iff (h : t.Moves record change) :
    change.1.updates = [] ↔ change.2.held = t.held := by
  constructor
  · intro hnone
    apply Std.ExtTreeMap.ext_getElem?
    intro r
    by_cases hr : r = record
    · subst hr
      rcases h.step with ⟨hstep, hne⟩ | ⟨-, hsame⟩
      · rw [hstep] at hnone
        cases hold : t.held[r]? <;> cases hnew : change.2.held[r]? <;>
          simp [Step.updates, hold, hnew] at hnone hne
      · exact hsame
    · exact h.others r hr
  · intro hsame
    rcases h.step with ⟨-, hne⟩ | ⟨hstep, -⟩
    · exact absurd (congrArg (·[record]?) hsame) hne
    · rw [hstep]
      rfl

/-- **A count that overflows** is refused for this reason, and no other count is. -/
theorem increment_eq_error_iff [Ord γ] [TransOrd γ] [DecidableEq γ] {t : Tracker (Tally γ) γ}
    {group : γ} {identity delta : Int64} {fault : Fault} :
    t.increment group identity delta = .error fault ↔
      fault = .addOverflow ∧ ¬ IsWord ((t.score group identity).toInt + delta.toInt) := by
  rw [increment_eq, Attempt.bind_eq_error, addInt_eq_error_iff, or_iff_left]
  rintro ⟨score, -, h⟩
  cases h

end Tracker

/-! ## All that a tracker sends -/

/-- A tracker, with all updates that it has sent and the values that it has forgotten. -/
structure Outbox (υ γ : Type) [Ord υ] where
  tracker : Tracker υ γ
  sent : List (Update γ)
  forgotten : Multiset (γ × Entry)

namespace Outbox

variable [Ord υ] [TransOrd υ]

def start : Outbox υ γ := ⟨.empty, [], 0⟩

/-- Takes up a change of a record: its updates are sent. -/
def take (o : Outbox υ γ) (change : Tracker.Step γ × Tracker υ γ) : Outbox υ γ :=
  ⟨change.2, o.sent ++ change.1.updates, o.forgotten⟩

def forget (o : Outbox υ γ) (keep : γ → Bool) : Outbox υ γ :=
  ⟨o.tracker.forget keep, o.sent, o.forgotten + o.tracker.values.filter fun v => ¬ keep v.1⟩

variable [DecidableEq γ]

def perform (o : Outbox υ γ) : Action υ γ → Outbox υ γ
  | .upsert record group e => o.take (o.tracker.upsert record group e)
  | .retract record => o.take (o.tracker.retract record)
  | .expire keep => o.forget keep

/-- What an action on tallies does. A count that overflows is refused and changes nothing. -/
def performTally [Ord γ] [TransOrd γ] (o : Outbox (Tally γ) γ) :
    TallyAction γ → Outbox (Tally γ) γ
  | .table a => o.perform a
  | .increment group identity delta =>
    match o.tracker.increment group identity delta with
    | .ok change => o.take change
    | .error _ => o

def run (actions : List (Action υ γ)) : Outbox υ γ :=
  actions.foldl perform start

def runTally [Ord γ] [TransOrd γ] (actions : List (TallyAction γ)) : Outbox (Tally γ) γ :=
  actions.foldl performTally start

/-- What was sent amounts to the values held and the values forgotten. -/
def Settled (o : Outbox υ γ) : Prop :=
  replay o.sent = some (o.tracker.values + o.forgotten)

/-- What was sent amounts to the values held. If groups are forgotten, it amounts to the values still
held and those that were held in the groups. -/
structure Exact (o : Outbox υ γ) : Prop where
  held : replay o.sent = some o.tracker.values
  forget : ∀ keep, replay (o.forget keep).sent =
    some ((o.forget keep).tracker.values + o.tracker.values.filter fun v => ¬ keep v.1)

variable {o : Outbox υ γ}

theorem settled_start : (start : Outbox υ γ).Settled := by
  rw [Settled, start, Tracker.values_empty]
  rfl

theorem Settled.forget (h : o.Settled) (keep : γ → Bool) : (o.forget keep).Settled := by
  have hvalues := Multiset.filter_add_not (fun v : γ × Entry => keep v.1) o.tracker.values
  change replay o.sent = some ((o.tracker.forget keep).values + (_ + _))
  rw [h, Tracker.values_forget, add_left_comm, hvalues, add_comm]

theorem Settled.exact (h : o.Settled) (hnone : o.forgotten = 0) : o.Exact where
  held := by
    rw [h, hnone, add_zero]
  forget keep := by
    have hforgotten : (o.forget keep).forgotten = o.tracker.values.filter fun v => ¬ keep v.1 := by
      rw [Outbox.forget, hnone, zero_add]
    rw [h.forget keep, hforgotten]

variable [LawfulEqOrd υ]

theorem Settled.take (h : o.Settled) {record : υ} {change : Tracker.Step γ × Tracker υ γ}
    (hmoves : o.tracker.Moves record change) : (o.take change).Settled := by
  change (o.sent ++ change.1.updates).foldlM Update.replay 0 = _
  rw [List.foldlM_append]
  change (replay o.sent).bind _ = _
  rw [h, Option.bind_some]
  exact hmoves.replay_updates o.forgotten

omit [DecidableEq γ] in
theorem sent_take_iff {record : υ} {change : Tracker.Step γ × Tracker υ γ}
    (hmoves : o.tracker.Moves record change) :
    (o.take change).sent = o.sent ↔ (o.take change).tracker.held = o.tracker.held := by
  change o.sent ++ change.1.updates = o.sent ↔ change.2.held = o.tracker.held
  rw [List.append_right_eq_self, hmoves.updates_eq_nil_iff]

theorem perform_eq_take (o : Outbox υ γ) {a : Action υ γ} (ha : a.expires = false) :
    ∃ record change, o.tracker.Moves record change ∧ o.perform a = o.take change := by
  cases a with
  | upsert record group e => exact ⟨record, _, o.tracker.upsert_moves record group e, rfl⟩
  | retract record => exact ⟨record, _, o.tracker.retract_moves record, rfl⟩
  | expire keep => cases ha

/-- **Every action on a table** keeps that what was sent amounts to what is held. -/
theorem Settled.perform (h : o.Settled) (a : Action υ γ) : (o.perform a).Settled := by
  cases a with
  | upsert record group e => exact h.take (o.tracker.upsert_moves record group e)
  | retract record => exact h.take (o.tracker.retract_moves record)
  | expire keep => exact h.forget keep

theorem settled_run (actions : List (Action υ γ)) : (run actions).Settled :=
  List.foldlRecOn actions _ settled_start fun _ h a _ => h.perform a

theorem forgotten_run {actions : List (Action υ γ)} (h : ∀ a ∈ actions, a.expires = false) :
    (run actions).forgotten = 0 := by
  refine List.foldlRecOn (motive := fun o => o.forgotten = 0) actions perform ?_ fun o ho a ha => ?_
  · rfl
  · obtain ⟨record, change, -, hperform⟩ := o.perform_eq_take (h a ha)
    rw [hperform]
    exact ho

section

variable [Ord γ] [TransOrd γ] [LawfulEqOrd γ] {o : Outbox (Tally γ) γ}

theorem performTally_eq_take (o : Outbox (Tally γ) γ) {a : TallyAction γ}
    (ha : a.expires = false) :
    ∃ record change, o.tracker.Moves record change ∧ o.performTally a = o.take change := by
  cases a with
  | table a => exact o.perform_eq_take ha
  | increment group identity delta =>
    refine ⟨_, _, o.tracker.increment_moves group identity delta, ?_⟩
    rw [performTally]
    cases o.tracker.increment group identity delta with
    | ok change => rfl
    | error fault => exact congrArg (mk o.tracker · o.forgotten) (List.append_nil o.sent).symm

/-- **Every action on tallies** keeps that what was sent amounts to what is held. -/
theorem Settled.performTally (h : o.Settled) (a : TallyAction γ) : (o.performTally a).Settled := by
  cases a with
  | table a => exact h.perform a
  | increment group identity delta =>
    obtain ⟨record, change, hmoves, hperform⟩ :=
      o.performTally_eq_take (a := .increment group identity delta) rfl
    rw [hperform]
    exact h.take hmoves

theorem settled_runTally (actions : List (TallyAction γ)) : (runTally actions).Settled :=
  List.foldlRecOn actions _ settled_start fun _ h a _ => h.performTally a

theorem forgotten_runTally {actions : List (TallyAction γ)} (h : ∀ a ∈ actions, a.expires = false) :
    (runTally actions).forgotten = 0 := by
  refine List.foldlRecOn (motive := fun o => o.forgotten = 0) actions performTally ?_
    fun o ho a ha => ?_
  · rfl
  · obtain ⟨record, change, -, hperform⟩ := o.performTally_eq_take (h a ha)
    rw [hperform]
    exact ho

end

/-- **What a tracker sends amounts to what it holds.** Replayed from nothing, the updates that a table
or tallies have sent never take out a value that is not there, and they amount to the values held,
one for each record, and those forgotten. Until groups expire that is what is held, and as soon as
they do, it is more by the values that were held in them.

An action sends nothing exactly if it leaves what is held as it was. A count is refused exactly if
its sum is no word, and then nothing changes. -/
theorem sent_amounts_to_held (υ γ : Type) [Ord υ] [TransOrd υ] [LawfulEqOrd υ] [Ord γ] [TransOrd γ]
    [LawfulEqOrd γ] [DecidableEq γ] :
    ((∀ actions : List (Action υ γ), (run actions).Settled ∧
        ((∀ a ∈ actions, a.expires = false) → (run actions).Exact)) ∧
      ∀ actions : List (TallyAction γ), (runTally actions).Settled ∧
        ((∀ a ∈ actions, a.expires = false) → (runTally actions).Exact)) ∧
    ((∀ (o : Outbox υ γ) (a : Action υ γ), a.expires = false →
        ((o.perform a).sent = o.sent ↔ (o.perform a).tracker.held = o.tracker.held)) ∧
      ∀ (o : Outbox (Tally γ) γ) (a : TallyAction γ), a.expires = false →
        ((o.performTally a).sent = o.sent ↔ (o.performTally a).tracker.held = o.tracker.held)) ∧
    ∀ (o : Outbox (Tally γ) γ) (group : γ) (identity delta : Int64),
      let sum := (o.tracker.score group identity).toInt + delta.toInt
      (∀ fault, o.tracker.increment group identity delta = .error fault ↔
        fault = .addOverflow ∧ ¬ IsWord sum) ∧
      (¬ IsWord sum → o.performTally (.increment group identity delta) = o) := by
  refine ⟨⟨fun actions => ?_, fun actions => ?_⟩, ⟨fun o a ha => ?_, fun o a ha => ?_⟩, ?_⟩
  · exact ⟨settled_run actions, fun h => (settled_run actions).exact (forgotten_run h)⟩
  · exact ⟨settled_runTally actions, fun h => (settled_runTally actions).exact (forgotten_runTally h)⟩
  · obtain ⟨record, change, hmoves, hperform⟩ := o.perform_eq_take ha
    rw [hperform]
    exact sent_take_iff hmoves
  · obtain ⟨record, change, hmoves, hperform⟩ := o.performTally_eq_take ha
    rw [hperform]
    exact sent_take_iff hmoves
  · intro o group identity delta sum
    refine ⟨fun fault => Tracker.increment_eq_error_iff, fun hsum => ?_⟩
    rw [performTally, Tracker.increment_eq_error_iff.2 ⟨rfl, hsum⟩]

/-- Two records hold one value; one of them changes its group, its identity and its score and comes
back to its former value, and the other is deleted. A tally is held under a group that is not its
own, is counted from there, and is counted too far. -/
theorem sent_amounts_to_held_moves :
    let table : List (Action Nat Nat) := [.upsert 1 10 ⟨7, 5⟩, .upsert 2 10 ⟨7, 5⟩,
      .upsert 1 20 ⟨8, 6⟩, .upsert 1 20 ⟨8, 6⟩, .upsert 1 10 ⟨7, 5⟩, .retract 2, .retract 3,
      .upsert 4 20 ⟨9, 1⟩]
    let tallies : List (TallyAction Nat) := [.increment 10 7 5, .table (.upsert ⟨10, 7⟩ 20 ⟨7, 9⟩),
      .increment 10 7 2, .increment 10 8 1]
    let greatest := Int64.maxValue
    (∀ a ∈ table, a.expires = false) ∧ (∀ a ∈ tallies, a.expires = false) ∧
      ((run table).sent.length = 8 ∧ (run table).tracker.values = {(10, ⟨7, 5⟩), (20, ⟨9, 1⟩)} ∧
        (run table).Exact) ∧
      ((runTally tallies).tracker.values = {(10, ⟨7, 11⟩), (10, ⟨8, 1⟩)} ∧
        (runTally tallies).Exact) ∧
      (run (table ++ [.expire (· = 10), .upsert 4 20 ⟨9, 1⟩])).Settled ∧
      ((run table).perform (.retract 3)).sent = (run table).sent ∧
      ((runTally tallies).performTally (.increment 10 7 0)).sent = (runTally tallies).sent ∧
      ¬ IsWord (((runTally tallies).tracker.score 10 7).toInt + greatest.toInt) ∧
      (runTally tallies).performTally (.increment 10 7 greatest) = runTally tallies := by
  intro table tallies greatest
  obtain ⟨⟨htable, htallies⟩, ⟨hsilent, hsilentTally⟩, hcount⟩ := sent_amounts_to_held Nat Nat
  have hexpires : ∀ a ∈ table, a.expires = false := by decide
  have hexpiresTally : ∀ a ∈ tallies, a.expires = false := by decide
  have hsum : ¬ IsWord (((runTally tallies).tracker.score 10 7).toInt + greatest.toInt) := by
    decide +kernel
  refine ⟨hexpires, hexpiresTally, ⟨by decide +kernel, by decide +kernel, ?_⟩,
    ⟨by decide +kernel, ?_⟩, (htable _).1, ?_, ?_, hsum, (hcount _ _ _ _).2 hsum⟩
  · exact (htable table).2 hexpires
  · exact (htallies tallies).2 hexpiresTally
  · refine (hsilent (run table) (.retract 3) rfl).2 (Std.ExtTreeMap.ext_toList ?_)
    decide +kernel
  · refine (hsilentTally (runTally tallies) (.increment 10 7 0) rfl).2
      (Std.ExtTreeMap.ext_toList ?_)
    decide +kernel

end Outbox

end TopCharts
