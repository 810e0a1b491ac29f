import Std.Data.ExtTreeMap

/-!
# Entries and their rank order

* `Entry` : an identity paired with its current score;
* `compare` on entries is the **rank order**: higher scores first, equal scores by ascending
  identity. It is total, and only equal entries compare equal (`TransOrd`, `LawfulEqOrd`);
* `Entry.text` : the entry as `identity=score`.
-/

namespace TopCharts

open Std (TransOrd LawfulEqOrd)

/-- An identity paired with its current score. -/
@[ext] structure Entry where
  identity : Int64
  score : Int64
  deriving DecidableEq, Repr

namespace Entry

/-- The rank order: higher scores first, equal scores by ascending identity. -/
instance : Ord Entry where
  compare := compareLex (fun a b => compareOn score b a) (compareOn identity)

instance : TransOrd Entry :=
  have : Std.TransCmp fun a b : Entry => compareOn score b a := .opposite
  inferInstanceAs (Std.TransCmp (compareLex (fun a b => compareOn score b a) (compareOn identity)))

instance : LawfulEqOrd Entry where
  eq_of_compare {a b} h := by
    obtain ⟨hs, hi⟩ := compareLex_eq_eq.1 h
    exact Entry.ext (Std.LawfulEqOrd.eq_of_compare hi) (Std.LawfulEqOrd.eq_of_compare hs).symm

/-- The entry as `identity=score`. -/
def text (e : Entry) : String :=
  s!"{e.identity.toInt}={e.score.toInt}"

end Entry

end TopCharts
