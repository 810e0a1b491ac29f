import TopCharts.Arithmetic
import TopCharts.Update

/-!
# Trackers: from latest values to updates

A table reports only the new value of a record. A chart needs the old value taken back before the
new one is delivered, possibly under another group, so a tracker remembers what it last delivered
for each record.

* `Tracker υ γ` : the group and entry held for each record;
* `Tracker.Step` : what one change of a record takes back and delivers; `Step.updates`;
* `upsert`, `retract`, `forget`;
* `Tally` and `increment` : records that count an identity within a group.
-/

namespace TopCharts

open Std (ExtTreeMap TransOrd LawfulEqOrd)

/-- The group and entry last delivered for each record. -/
structure Tracker (υ γ : Type) [Ord υ] where
  held : ExtTreeMap υ (γ × Entry)

namespace Tracker

/-- What one change of a record takes back and delivers. -/
structure Step (γ : Type) where
  retracted : Option (γ × Entry) := none
  upserted : Option (γ × Entry) := none
  deriving DecidableEq

namespace Step

variable {γ : Type}

def isEmpty (s : Step γ) : Bool :=
  s.retracted.isNone && s.upserted.isNone

/-- The updates of a change, the retraction first. -/
def updates (s : Step γ) : List (Update γ) :=
  (s.retracted.map fun (group, e) => ⟨group, .remove, e⟩).toList
    ++ (s.upserted.map fun (group, e) => ⟨group, .add, e⟩).toList

end Step

variable {υ γ : Type} [Ord υ] [TransOrd υ]

def empty : Tracker υ γ := ⟨∅⟩

instance : Inhabited (Tracker υ γ) := ⟨empty⟩

/-- Sets the value of a record; an unchanged value produces nothing. -/
def upsert [DecidableEq γ] (t : Tracker υ γ) (record : υ) (group : γ) (e : Entry) :
    Step γ × Tracker υ γ :=
  let old := t.held[record]?
  let step := if old = some (group, e) then {} else ⟨old, some (group, e)⟩
  (step, ⟨t.held.insert record (group, e)⟩)

/-- Deletes a record, taking back what was last delivered for it. -/
def retract (t : Tracker υ γ) (record : υ) : Step γ × Tracker υ γ :=
  (⟨t.held[record]?, none⟩, ⟨t.held.erase record⟩)

/-- Forgets every record whose group fails `keep` and takes nothing back: the charts of those groups
are dropped as a whole. -/
def forget (t : Tracker υ γ) (keep : γ → Bool) : Tracker υ γ :=
  ⟨t.held.filter fun _ (group, _) => keep group⟩

def size (t : Tracker υ γ) : Nat :=
  t.held.size

def isEmpty (t : Tracker υ γ) : Bool :=
  t.held.isEmpty

end Tracker

/-! ## Counting -/

/-- A record that counts an identity within a group. -/
@[ext] structure Tally (γ : Type) where
  group : γ
  identity : Int64
  deriving DecidableEq

namespace Tally

variable {γ : Type} [Ord γ]

instance : Ord (Tally γ) where
  compare := compareLex (compareOn group) (compareOn identity)

instance [TransOrd γ] : TransOrd (Tally γ) :=
  inferInstanceAs (Std.TransCmp (compareLex (compareOn group) (compareOn identity)))

instance [TransOrd γ] [LawfulEqOrd γ] : LawfulEqOrd (Tally γ) where
  eq_of_compare h := by
    obtain ⟨hg, hi⟩ := compareLex_eq_eq.1 h
    exact Tally.ext (LawfulEqOrd.eq_of_compare hg) (LawfulEqOrd.eq_of_compare hi)

end Tally

/-- Counts `delta` more of an identity within a group. -/
def Tracker.increment {γ : Type} [Ord γ] [TransOrd γ] [DecidableEq γ] (t : Tracker (Tally γ) γ)
    (group : γ) (identity delta : Int64) :
    Except Fault (Tracker.Step γ × Tracker (Tally γ) γ) := do
  let held := match t.held[(⟨group, identity⟩ : Tally γ)]? with
    | some (_, e) => e.score
    | none => 0
  let score ← Checked.addInt held delta
  return t.upsert ⟨group, identity⟩ group ⟨identity, score⟩

end TopCharts
