import TopCharts.Attempt
import TopCharts.Proofs.Store.View
import TopCharts.Tracker

/-!
# A tracker that feeds a store

* `Pipeline υ γ k` : a tracker, and the store that all its updates are applied to, in order;
* `Pipeline.feed` : what a change of a record does to both;
* `Action`, `perform`, `run` : setting a record, deleting one, and letting groups expire in both;
  `TallyAction`, `performTally`, `runTally` : the same where the records are tallies, which can also
  be counted up (`increment`);
* `Tracker.Moves t record change` : all that a change of one record can be. The other records keep
  their values, and the step takes back the old value and delivers the new one, or is empty because
  they are equal (`upsert_moves`, `retract_moves`, `increment_moves`). `Moves.retracted_iff`,
  `Moves.upserted_iff` : so it takes back what the record holds no longer, and delivers what it did
  not hold;
* `chart_feed` : the charts after a change. Only those of the groups that its step names change.
-/

namespace TopCharts

open Std (TransOrd LawfulEqOrd)

structure Pipeline (υ γ : Type) (k : Nat) [Ord υ] [Ord γ] where
  tracker : Tracker υ γ
  store : Store γ k

/-- What can happen to the records of a table. -/
inductive Action (υ γ : Type) where
  | upsert (record : υ) (group : γ) (e : Entry)
  | retract (record : υ)
  /-- The groups that fail `keep` are dropped. -/
  | expire (keep : γ → Bool)

/-- What can happen to records that are tallies: they are a table, and they can be counted up. -/
inductive TallyAction (γ : Type) where
  | table (a : Action (Tally γ) γ)
  | increment (group : γ) (identity delta : Int64)

namespace Pipeline

variable {υ γ : Type} [Ord υ] [TransOrd υ] [Ord γ] [TransOrd γ] {k : Nat}

def start : Pipeline υ γ k := ⟨.empty, .empty⟩

/-- Takes up a change of a record: its updates go to the store. -/
def feed (p : Pipeline υ γ k) (change : Tracker.Step γ × Tracker υ γ) : Pipeline υ γ k :=
  ⟨change.2, (p.store.applyAll change.1.updates).2⟩

def expire (p : Pipeline υ γ k) (keep : γ → Bool) : Pipeline υ γ k :=
  ⟨p.tracker.forget keep, (p.store.retain keep).2⟩

variable [DecidableEq γ]

def perform (p : Pipeline υ γ k) : Action υ γ → Pipeline υ γ k
  | .upsert record group e => p.feed (p.tracker.upsert record group e)
  | .retract record => p.feed (p.tracker.retract record)
  | .expire keep => p.expire keep

def increment (p : Pipeline (Tally γ) γ k) (group : γ) (identity delta : Int64) :
    Except Fault (Pipeline (Tally γ) γ k) := do
  return p.feed (← p.tracker.increment group identity delta)

/-- What an action on tallies does. A count that overflows is refused and changes nothing. -/
def performTally (p : Pipeline (Tally γ) γ k) : TallyAction γ → Pipeline (Tally γ) γ k
  | .table a => p.perform a
  | .increment group identity delta => (p.increment group identity delta).toOption.getD p

def run (actions : List (Action υ γ)) : Pipeline υ γ k :=
  actions.foldl perform start

def runTally (actions : List (TallyAction γ)) : Pipeline (Tally γ) γ k :=
  actions.foldl performTally start

end Pipeline

/-! ## What a change of a record can be -/

namespace Tracker.Step

variable {γ : Type} {s : Step γ} {group : γ} {e : Entry}

theorem remove_mem_updates : ⟨group, .remove, e⟩ ∈ s.updates ↔ s.retracted = some (group, e) := by
  obtain ⟨retracted, upserted⟩ := s
  rcases retracted with _ | ⟨g, a⟩ <;> rcases upserted with _ | ⟨g', a'⟩ <;>
    simp [updates, eq_comm]

theorem add_mem_updates : ⟨group, .add, e⟩ ∈ s.updates ↔ s.upserted = some (group, e) := by
  obtain ⟨retracted, upserted⟩ := s
  rcases retracted with _ | ⟨g, a⟩ <;> rcases upserted with _ | ⟨g', a'⟩ <;>
    simp [updates, eq_comm]

theorem pairwise_updates (s : Step γ) :
    s.updates.Pairwise fun u v => u.change = .add → v.change = .add := by
  obtain ⟨retracted, upserted⟩ := s
  rcases retracted with _ | ⟨g, a⟩ <;> rcases upserted with _ | ⟨g', a'⟩ <;> simp [updates]

theorem nodup_updates (s : Step γ) : s.updates.Nodup := by
  obtain ⟨retracted, upserted⟩ := s
  rcases retracted with _ | ⟨g, a⟩ <;> rcases upserted with _ | ⟨g', a'⟩ <;> simp [updates]

end Tracker.Step

namespace Tracker

variable {υ γ : Type} [Ord υ] [TransOrd υ]

/-- One record has changed: its old value is taken back and its new one delivered, unless they are
equal and nothing is. -/
structure Moves (t : Tracker υ γ) (record : υ) (change : Step γ × Tracker υ γ) : Prop where
  others : ∀ r, r ≠ record → change.2.held[r]? = t.held[r]?
  step : change.1 = ⟨t.held[record]?, change.2.held[record]?⟩ ∧
      change.2.held[record]? ≠ t.held[record]? ∨
    change.1 = {} ∧ change.2.held[record]? = t.held[record]?

section

variable {t : Tracker υ γ} {record : υ} {change : Step γ × Tracker υ γ}

theorem Moves.retracted_iff (h : t.Moves record change) {v : γ × Entry} :
    change.1.retracted = some v ↔ t.held[record]? = some v ∧ change.2.held[record]? ≠ some v := by
  rcases h.step with ⟨hstep, hne⟩ | ⟨hstep, hsame⟩
  · rw [hstep]
    exact ⟨fun hold => ⟨hold, hold ▸ hne⟩, And.left⟩
  · rw [hstep, hsame]
    exact ⟨nofun, fun h => absurd h.1 h.2⟩

theorem Moves.upserted_iff (h : t.Moves record change) {v : γ × Entry} :
    change.1.upserted = some v ↔ change.2.held[record]? = some v ∧ t.held[record]? ≠ some v := by
  rcases h.step with ⟨hstep, hne⟩ | ⟨hstep, hsame⟩
  · rw [hstep]
    exact ⟨fun hnew => ⟨hnew, hnew ▸ hne.symm⟩, And.left⟩
  · rw [hstep, hsame]
    exact ⟨nofun, fun h => absurd h.1 h.2⟩

/-- If every value names its record, a step takes back exactly what is held no longer, and delivers
exactly what was not held. -/
theorem Moves.step_iff (h : t.Moves record change) {home : γ × Entry → υ}
    (home_old : ∀ r v, t.held[r]? = some v → home v = r)
    (home_new : ∀ r v, change.2.held[r]? = some v → home v = r) (v : γ × Entry) :
    (change.1.retracted = some v ↔
        t.held[home v]? = some v ∧ change.2.held[home v]? ≠ some v) ∧
      (change.1.upserted = some v ↔
        change.2.held[home v]? = some v ∧ t.held[home v]? ≠ some v) := by
  rw [h.retracted_iff, h.upserted_iff]
  by_cases hv : home v = record
  · rw [hv]
    exact ⟨.rfl, .rfl⟩
  · rw [h.others _ hv]
    refine ⟨⟨fun hold => ?_, fun h => absurd h.1 h.2⟩, ⟨fun hnew => ?_, fun h => absurd h.1 h.2⟩⟩
    · exact absurd (home_old record v hold.1) hv
    · exact absurd (home_new record v hnew.1) hv

theorem Moves.erase_eq [LawfulEqOrd υ] (h : t.Moves record change) :
    change.2.held.erase record = t.held.erase record := by
  apply Std.ExtTreeMap.ext_getElem?
  intro r
  rw [Std.ExtTreeMap.getElem?_erase, Std.ExtTreeMap.getElem?_erase]
  split
  · rfl
  · rename_i hne
    exact h.others r fun heq => hne (heq ▸ Std.ReflOrd.compare_self)

end

variable [LawfulEqOrd υ]

theorem upsert_moves [DecidableEq γ] (t : Tracker υ γ) (record : υ) (group : γ) (e : Entry) :
    t.Moves record (t.upsert record group e) := by
  have hself : (t.held.insert record (group, e))[record]? = some (group, e) :=
    Std.ExtTreeMap.getElem?_insert_self
  refine ⟨?_, ?_⟩
  · intro r hr
    show (t.held.insert record (group, e))[r]? = _
    rw [Std.ExtTreeMap.getElem?_insert,
      if_neg fun h => hr (LawfulEqOrd.eq_of_compare h).symm]
  · show (if t.held[record]? = some (group, e) then ({} : Step γ) else
      ⟨t.held[record]?, some (group, e)⟩) = ⟨_, (t.held.insert record (group, e))[record]?⟩ ∧
        (t.held.insert record (group, e))[record]? ≠ _ ∨
      _ ∧ (t.held.insert record (group, e))[record]? = _
    rw [hself]
    by_cases hold : t.held[record]? = some (group, e)
    · exact .inr ⟨if_pos hold, hold.symm⟩
    · exact .inl ⟨if_neg hold, Ne.symm hold⟩

theorem retract_moves (t : Tracker υ γ) (record : υ) : t.Moves record (t.retract record) := by
  refine ⟨?_, ?_⟩
  · intro r hr
    show (t.held.erase record)[r]? = _
    rw [Std.ExtTreeMap.getElem?_erase, if_neg fun h => hr (LawfulEqOrd.eq_of_compare h).symm]
  · show (⟨t.held[record]?, none⟩ : Step γ) = ⟨_, (t.held.erase record)[record]?⟩ ∧
        (t.held.erase record)[record]? ≠ _ ∨
      (⟨t.held[record]?, none⟩ : Step γ) = {} ∧ (t.held.erase record)[record]? = _
    rw [Std.ExtTreeMap.getElem?_erase_self]
    cases t.held[record]? with
    | none => exact .inr ⟨rfl, rfl⟩
    | some value => exact .inl ⟨rfl, nofun⟩

theorem getElem?_forget (t : Tracker υ γ) (keep : γ → Bool) (record : υ) :
    (t.forget keep).held[record]? = t.held[record]?.filter fun value => keep value.1 := by
  show (t.held.filter _)[record]? = _
  rw [Std.ExtTreeMap.getElem?_filter']

variable [Ord γ] [TransOrd γ]

def score (t : Tracker (Tally γ) γ) (group : γ) (identity : Int64) : Int64 :=
  match t.held[(⟨group, identity⟩ : Tally γ)]? with
  | some (_, e) => e.score
  | none => 0

variable [DecidableEq γ] {t : Tracker (Tally γ) γ} {group : γ} {identity delta : Int64}

theorem increment_eq :
    t.increment group identity delta =
      Checked.addInt (t.score group identity) delta >>= fun score =>
        pure (t.upsert ⟨group, identity⟩ group ⟨identity, score⟩) :=
  rfl

theorem increment_eq_ok_iff {change : Step γ × Tracker (Tally γ) γ} :
    t.increment group identity delta = .ok change ↔
      ∃ score, (t.score group identity).toInt + delta.toInt = score.toInt ∧
        t.upsert ⟨group, identity⟩ group ⟨identity, score⟩ = change := by
  rw [increment_eq, Attempt.bind_eq_ok]
  simp only [Checked.addInt_eq_ok_iff, Attempt.pure_eq_ok]

theorem increment_moves [LawfulEqOrd γ] (t : Tracker (Tally γ) γ) (group : γ)
    (identity delta : Int64) :
    t.Moves ⟨group, identity⟩ ((t.increment group identity delta).toOption.getD ({}, t)) := by
  cases h : t.increment group identity delta with
  | ok change =>
    obtain ⟨score, -, rfl⟩ := increment_eq_ok_iff.1 h
    exact t.upsert_moves _ _ _
  | error fault => exact ⟨fun _ _ => rfl, .inr ⟨rfl, rfl⟩⟩

end Tracker

/-! ## The charts after a change -/

/-- The entry of a value that belongs to a group. -/
def Tracker.inGroup {γ : Type} [DecidableEq γ] (group : γ) (value : Option (γ × Entry)) :
    Option Entry :=
  (value.filter (·.1 = group)).map Prod.snd

theorem Tracker.inGroup_some {γ : Type} [DecidableEq γ] (group g : γ) (e : Entry) :
    Tracker.inGroup group (some (g, e)) = if g = group then some e else none := by
  rw [Tracker.inGroup, Option.filter_some]
  simp only [decide_eq_true_iff]
  split <;> rfl

theorem Tracker.inGroup_eq_some {γ : Type} [DecidableEq γ] {group : γ}
    {value : Option (γ × Entry)} {e : Entry} :
    Tracker.inGroup group value = some e ↔ value = some (group, e) := by
  rcases value with _ | ⟨g, a⟩
  · exact ⟨nofun, nofun⟩
  · rw [Tracker.inGroup_some]
    split
    · rename_i hg
      rw [hg, Option.some_inj, Option.some_inj, Prod.mk.injEq, eq_self, true_and]
    · rename_i hg
      refine ⟨nofun, ?_⟩
      rintro ⟨⟩
      exact absurd rfl hg

namespace Pipeline

variable {υ γ : Type} [Ord υ] [Ord γ] [TransOrd γ] [LawfulEqOrd γ] [DecidableEq γ] {k : Nat}

/-- A change of a record replaces, in the chart of each group, what it takes back from the group by
what it delivers to it. -/
theorem chart_feed (p : Pipeline υ γ k) (change : Tracker.Step γ × Tracker υ γ) (group : γ) :
    (p.feed change).store.chart group = ((p.store.chart group).replace
      (Tracker.inGroup group change.1.retracted) (Tracker.inGroup group change.1.upserted)).2 := by
  have hfeed : (p.feed change).store = (p.store.applyEach change.1.updates).2 := rfl
  rw [hfeed, Store.chart_applyEach]
  obtain ⟨⟨retracted, upserted⟩, t⟩ := change
  have addressed (v : Option (γ × Entry)) (change : Change) :
      Store.addressed group (v.map fun value => (⟨value.1, change, value.2⟩ : Update γ)).toList =
        ((Tracker.inGroup group v).map fun e => (⟨group, change, e⟩ : Update γ)).toList := by
    rcases v with _ | ⟨g, e⟩
    · rfl
    · rw [Tracker.inGroup_some, Option.map_some, Option.toList_some, Store.addressed_cons]
      by_cases hg : g = group
      · rw [if_pos hg, if_pos hg, hg]
        rfl
      · rw [if_neg hg, if_neg hg]
        rfl
  have happend (us vs : List (Update γ)) :
      Store.addressed group (us ++ vs) = Store.addressed group us ++ Store.addressed group vs :=
    List.filter_append us vs
  rw [Tracker.Step.updates, happend, addressed, addressed]
  cases Tracker.inGroup group retracted <;> cases Tracker.inGroup group upserted <;> rfl

omit [LawfulEqOrd γ] in
theorem performTally_cases (p : Pipeline (Tally γ) γ k) (a : TallyAction γ) :
    p.performTally a = p ∨ ∃ b, p.performTally a = p.perform b := by
  cases a with
  | table b => exact .inr ⟨b, rfl⟩
  | increment group identity delta =>
    cases h : p.tracker.increment group identity delta with
    | error fault =>
      left
      rw [performTally, increment, h]
      rfl
    | ok change =>
      obtain ⟨score, -, rfl⟩ := Tracker.increment_eq_ok_iff.1 h
      refine .inr ⟨.upsert ⟨group, identity⟩ group ⟨identity, score⟩, ?_⟩
      rw [performTally, increment, h]
      rfl

end Pipeline

end TopCharts
