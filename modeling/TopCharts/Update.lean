import TopCharts.Entry

/-!
# Updates of a feed

* `Change` : whether a value is taken back or delivered; `remove` is ordered before `add`, so that
  sorting puts retractions first;
* `Keyed` : an entry under a key; ordered by key, then rank;
* `Update` : a change of one entry, addressed to a key; ordered by key, then change, then rank.
-/

namespace TopCharts

open Std (TransOrd LawfulEqOrd)

/-- What an update does with its entry. -/
inductive Change where
  /-- Takes back a value delivered before. -/
  | remove
  /-- Delivers a value. -/
  | add
  deriving DecidableEq, Repr

namespace Change

/-- The position of a change: retractions come first. -/
def position : Change → Nat
  | remove => 0
  | add => 1

instance : Ord Change where
  compare := compareOn position

instance : TransOrd Change :=
  inferInstanceAs (Std.TransCmp (compareOn position))

instance : LawfulEqOrd Change where
  eq_of_compare {a b} h := by
    have : position a = position b := LawfulEqOrd.eq_of_compare h
    cases a <;> cases b <;> simp_all [position]

end Change

@[ext] structure Keyed (κ : Type) where
  key : κ
  entry : Entry
  deriving DecidableEq

namespace Keyed

variable {κ : Type}

instance [Ord κ] : Ord (Keyed κ) where
  compare := compareLex (compareOn key) (compareOn entry)

instance [Ord κ] [TransOrd κ] : TransOrd (Keyed κ) :=
  inferInstanceAs (Std.TransCmp (compareLex (compareOn key) (compareOn entry)))

instance [Ord κ] [TransOrd κ] [LawfulEqOrd κ] : LawfulEqOrd (Keyed κ) where
  eq_of_compare h := by
    obtain ⟨hk, he⟩ := compareLex_eq_eq.1 h
    exact Keyed.ext (LawfulEqOrd.eq_of_compare hk) (LawfulEqOrd.eq_of_compare he)

end Keyed

/-- A change of one entry, addressed to a key. -/
@[ext] structure Update (κ : Type) where
  key : κ
  change : Change
  entry : Entry
  deriving DecidableEq

namespace Update

variable {κ : Type}

instance [Ord κ] : Ord (Update κ) where
  compare := compareLex (compareOn key) (compareLex (compareOn change) (compareOn entry))

instance [Ord κ] [TransOrd κ] : TransOrd (Update κ) :=
  inferInstanceAs (Std.TransCmp
    (compareLex (compareOn key) (compareLex (compareOn change) (compareOn entry))))

instance [Ord κ] [TransOrd κ] [LawfulEqOrd κ] : LawfulEqOrd (Update κ) where
  eq_of_compare h := by
    obtain ⟨hk, hc⟩ := compareLex_eq_eq.1 h
    obtain ⟨hc, he⟩ := compareLex_eq_eq.1 hc
    exact Update.ext (LawfulEqOrd.eq_of_compare hk) (LawfulEqOrd.eq_of_compare hc)
      (LawfulEqOrd.eq_of_compare he)

end Update

end TopCharts
