import TopCharts.Proofs.Pipeline.RankedHeld
import TopCharts.Proofs.Store.Report

/-!
# Histories of a pipeline

* `Pipeline.Changes p us q` : one record changes, and its updates `us` lead from `p` to `q`;
* `Pipeline.sends`, `Pipeline.sendsTally` : the updates that an action sends to the store;
* `ActionKind` : a kind of actions, each of which changes one record or lets groups expire.
  `ActionKind.table` and `ActionKind.tallies` are the two kinds there are;
* `ActionKind.after`, `ActionKind.journal` : the pipeline after the first actions of a history, and
  all that its store has reported by then;
* `Tracker.OneHolder` : no two records hold one identity in one group.
-/

namespace TopCharts

open Std (TransOrd LawfulEqOrd)

/-! ## One record for each identity of a group -/

namespace Tracker

variable {υ γ : Type} [Ord υ] [TransOrd υ]

/-- No two records hold one identity in one group. -/
def OneHolder (t : Tracker υ γ) : Prop :=
  ∀ (r r' : υ) (a b : γ × Entry), t.held[r]? = some a → t.held[r']? = some b → a.1 = b.1 →
    a.2.identity = b.2.identity → r = r'

instance [LawfulEqOrd υ] [DecidableEq υ] [DecidableEq γ] (t : Tracker υ γ) :
    Decidable t.OneHolder :=
  decidable_of_iff (∀ a ∈ t.held.toList, ∀ b ∈ t.held.toList, a.2.1 = b.2.1 →
    a.2.2.identity = b.2.2.identity → a.1 = b.1) <| by
  constructor
  · intro h r r' a b hr hr'
    rw [← Std.ExtTreeMap.mem_toList_iff_getElem?_eq_some] at hr hr'
    exact h _ hr _ hr'
  · rintro h ⟨r, a⟩ hr ⟨r', b⟩ hr'
    rw [Std.ExtTreeMap.mem_toList_iff_getElem?_eq_some] at hr hr'
    exact h r r' a b hr hr'

end Tracker

/-! ## The updates of an action -/

def Action.expires {υ γ : Type} : Action υ γ → Bool
  | .expire _ => true
  | _ => false

def TallyAction.expires {γ : Type} : TallyAction γ → Bool
  | .table a => a.expires
  | .increment _ _ _ => false

namespace Pipeline

variable {υ γ : Type} [Ord υ] [TransOrd υ] [Ord γ] [TransOrd γ] {k : Nat}

def Changes (p : Pipeline υ γ k) (us : List (Update γ)) (q : Pipeline υ γ k) : Prop :=
  ∃ record change, p.tracker.Moves record change ∧ us = change.1.updates ∧ q = p.feed change

variable [DecidableEq γ]

def sends (p : Pipeline υ γ k) : Action υ γ → List (Update γ)
  | .upsert record group e => (p.tracker.upsert record group e).1.updates
  | .retract record => (p.tracker.retract record).1.updates
  | .expire _ => []

/-- The updates that an action on tallies sends: none, if it is a count that overflows. -/
def sendsTally (p : Pipeline (Tally γ) γ k) : TallyAction γ → List (Update γ)
  | .table a => p.sends a
  | .increment group identity delta =>
    match p.tracker.increment group identity delta with
    | .ok change => change.1.updates
    | .error _ => []

theorem perform_changes [LawfulEqOrd υ] (p : Pipeline υ γ k) {a : Action υ γ}
    (ha : a.expires = false) : p.Changes (p.sends a) (p.perform a) := by
  cases a with
  | upsert record group e => exact ⟨record, _, p.tracker.upsert_moves record group e, rfl, rfl⟩
  | retract record => exact ⟨record, _, p.tracker.retract_moves record, rfl, rfl⟩
  | expire keep => cases ha

theorem perform_expire (p : Pipeline υ γ k) {a : Action υ γ} (ha : a.expires = true) :
    p.sends a = [] ∧ ∃ keep, p.perform a = p.expire keep := by
  cases a with
  | upsert record group e => cases ha
  | retract record => cases ha
  | expire keep => exact ⟨rfl, keep, rfl⟩

theorem performTally_changes [LawfulEqOrd γ] (p : Pipeline (Tally γ) γ k) {a : TallyAction γ}
    (ha : a.expires = false) : p.Changes (p.sendsTally a) (p.performTally a) := by
  cases a with
  | table a => exact p.perform_changes ha
  | increment group identity delta =>
    refine ⟨_, _, p.tracker.increment_moves group identity delta, ?_⟩
    rw [sendsTally, performTally, increment]
    cases p.tracker.increment group identity delta with
    | ok change => exact ⟨rfl, rfl⟩
    | error fault => exact ⟨rfl, rfl⟩

theorem performTally_expire (p : Pipeline (Tally γ) γ k) {a : TallyAction γ}
    (ha : a.expires = true) : p.sendsTally a = [] ∧ ∃ keep, p.performTally a = p.expire keep := by
  cases a with
  | table a => exact p.perform_expire ha
  | increment group identity delta => cases ha

end Pipeline

/-! ## Histories -/

/-- Actions of one kind: what each does to a pipeline, and the updates it sends to the store. -/
structure ActionKind (α υ γ : Type) (k : Nat) [Ord υ] [TransOrd υ] [Ord γ] [TransOrd γ] where
  perform : Pipeline υ γ k → α → Pipeline υ γ k
  sends : Pipeline υ γ k → α → List (Update γ)
  expires : α → Bool
  changes : ∀ (p : Pipeline υ γ k) a, expires a = false → p.Changes (sends p a) (perform p a)
  expire : ∀ (p : Pipeline υ γ k) a, expires a = true →
    sends p a = [] ∧ ∃ keep, perform p a = p.expire keep

namespace ActionKind

section

variable {υ γ : Type} [Ord υ] [TransOrd υ] [Ord γ] [TransOrd γ] [LawfulEqOrd γ] [DecidableEq γ]

def table [LawfulEqOrd υ] (k : Nat) : ActionKind (Action υ γ) υ γ k where
  perform := Pipeline.perform
  sends := Pipeline.sends
  expires := Action.expires
  changes p _ := p.perform_changes
  expire p _ := p.perform_expire

def tallies (k : Nat) : ActionKind (TallyAction γ) (Tally γ) γ k where
  perform := Pipeline.performTally
  sends := Pipeline.sendsTally
  expires := TallyAction.expires
  changes p _ := p.performTally_changes
  expire p _ := p.performTally_expire

end

variable {α υ γ : Type} {k : Nat} [Ord υ] [TransOrd υ] [Ord γ] [TransOrd γ]
  (kind : ActionKind α υ γ k) (actions : List α)

def after (n : Nat) : Pipeline υ γ k :=
  (actions.take n).foldl kind.perform .start

/-- The updates of action `n`, each with what the store reported of it. -/
def reportAt (n : Nat) : List (Update γ × Outcome) :=
  match actions[n]? with
  | some a => (kind.after actions n).store.report (kind.sends (kind.after actions n) a)
  | none => []

def journal (n : Nat) : List (Update γ × Outcome) :=
  (List.range n).flatMap (kind.reportAt actions)

variable {kind actions} {n : Nat}

theorem after_succ (hn : n < actions.length) :
    kind.after actions (n + 1) = kind.perform (kind.after actions n) actions[n] := by
  rw [after, List.take_succ_eq_append_getElem hn, List.foldl_append]
  rfl

theorem journal_succ (n : Nat) :
    kind.journal actions (n + 1) = kind.journal actions n ++ kind.reportAt actions n := by
  rw [journal, List.range_succ, List.flatMap_append, List.flatMap_singleton]
  rfl

end ActionKind

end TopCharts
