import Std.Data.ExtTreeMap
import TopCharts.Arithmetic
import TopCharts.Attempt

/-!
# Collections: multisets of records with weights

A collection is a list of records with weights, and the multiplicity of a record is the sum of its
weights. Weights may be negative: the difference of two collections is one.

* `Collection`, `Collection.multiplicity`;
* `filter`, `map`, `flatMap`, `append`, `negate` : record by record;
* `join` : the pairs of records with one key, their weights multiplied;
* `support` : the records that have a row;
* `table` : the multiplicities that are not zero, by record;
* `consolidate` : each such record once, in order; `count` : each with its multiplicity;
* `settle`, `checked` : for weights that are to be words. `settle` consolidates a collection and
  fails if a sum on the way is no word, `checked` fails if a weight is no word.
-/

namespace TopCharts

open Std (ExtTreeMap TransOrd)

/-- Records with weights. -/
structure Collection (α : Type) where
  rows : List (α × Int)
  deriving DecidableEq

namespace Collection

variable {α β κ : Type}

def empty : Collection α := ⟨[]⟩

instance : Inhabited (Collection α) := ⟨empty⟩

def ofList (records : List α) : Collection α :=
  ⟨records.map fun a => (a, 1)⟩

/-- The sum of the weights of a record. -/
def multiplicity [DecidableEq α] (c : Collection α) (a : α) : Int :=
  c.rows.foldr (fun row sum => if row.1 = a then row.2 + sum else sum) 0

/-! ## Record by record -/

def filter (p : α → Bool) (c : Collection α) : Collection α :=
  ⟨c.rows.filter fun row => p row.1⟩

def map (f : α → β) (c : Collection α) : Collection β :=
  ⟨c.rows.map fun (a, w) => (f a, w)⟩

def flatMap (f : α → List β) (c : Collection α) : Collection β :=
  ⟨c.rows.flatMap fun (a, w) => (f a).map fun b => (b, w)⟩

def append (c d : Collection α) : Collection α :=
  ⟨c.rows ++ d.rows⟩

instance : Append (Collection α) := ⟨append⟩

def negate (c : Collection α) : Collection α :=
  ⟨c.rows.map fun (a, w) => (a, -w)⟩

/-! ## Joining -/

/-- The rows of each key, in their order. -/
def index [Ord κ] [TransOrd κ] (c : Collection (κ × β)) : ExtTreeMap κ (List (β × Int)) :=
  c.rows.foldr (fun ((key, b), w) m => m.insert key ((b, w) :: m.getD key [])) ∅

/-- The pairs of records with one key, their weights multiplied. -/
def join [Ord κ] [TransOrd κ] (c : Collection (κ × α)) (d : Collection (κ × β)) :
    Collection (κ × α × β) :=
  let byKey := d.index
  ⟨c.rows.flatMap fun ((key, a), w) =>
    (byKey.getD key []).map fun (b, v) => ((key, a, b), w * v)⟩

/-! ## Multiplicities -/

/-- Sets a multiplicity in a table; zero is no entry. -/
def assign [Ord α] [TransOrd α] (m : ExtTreeMap α Int) (a : α) (sum : Int) : ExtTreeMap α Int :=
  if sum = 0 then m.erase a else m.insert a sum

/-- The multiplicities that are not zero. -/
def table [Ord α] [TransOrd α] (c : Collection α) : ExtTreeMap α Int :=
  c.rows.foldl (fun m (a, w) => assign m a (m.getD a 0 + w)) ∅

/-- The records that have a row. -/
def support [Ord α] [TransOrd α] (c : Collection α) : ExtTreeMap α Unit :=
  .ofList (c.rows.map fun (a, _) => (a, ()))

/-- Each record with a multiplicity once, in order. -/
def consolidate [Ord α] [TransOrd α] (c : Collection α) : Collection α :=
  ⟨c.table.toList⟩

def count [Ord α] [TransOrd α] (c : Collection α) : Collection (α × Int) :=
  ofList c.table.toList

/-! ## Weights that are words -/

section

variable [Ord α] [TransOrd α]

def addRow (m : ExtTreeMap α Int) (row : α × Int) : Except Fault (ExtTreeMap α Int) := do
  return assign m row.1 (← Checked.int .addOverflow (m.getD row.1 0 + row.2))

/-- Each record with a multiplicity once, if every sum is a word as the rows are added up. -/
def settle (c : Collection α) : Except Fault (Collection α) := do
  return ⟨(← c.rows.foldlM addRow ∅).toList⟩

end

/-- The collection, if its weights are words. -/
def checked (overflow : Fault) (c : Collection α) : Except Fault (Collection α) := do
  return ⟨← c.rows.mapM fun (a, w) => return (a, ← Checked.int overflow w)⟩

open Attempt in
/-- Settling a collection consolidates it. -/
theorem eq_consolidate_of_settle [Ord α] [TransOrd α] {c d : Collection α}
    (h : c.settle = .ok d) : d = c.consolidate := by
  have fold (rows : List (α × Int)) (m t : ExtTreeMap α Int) (h : rows.foldlM addRow m = .ok t) :
      t = rows.foldl (fun m (a, w) => assign m a (m.getD a 0 + w)) m := by
    induction rows generalizing m with
    | nil => exact (pure_eq_ok.1 h).symm
    | cons row rows ih =>
      rw [List.foldlM_cons] at h
      obtain ⟨m', hm, h⟩ := bind_eq_ok.1 h
      obtain ⟨sum, hs, hm⟩ := bind_eq_ok.1 hm
      rw [pure_eq_ok] at hm
      rw [ih m' h, ← hm, ← (Checked.int_eq_ok_iff.1 hs).1, List.foldl_cons]
  obtain ⟨t, ht, h⟩ := bind_eq_ok.1 h
  rw [pure_eq_ok] at h
  rw [← h, fold _ _ _ ht, consolidate, table]

end Collection

end TopCharts
