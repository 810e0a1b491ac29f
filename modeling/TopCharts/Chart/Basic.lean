import TopCharts.Entry

/-!
# Charts: the `k` best entries of one key

A chart is driven by additions and retractions. It keeps its entries twice: by identity, to find
the entry an addition replaces, and in rank order, to find the entry that falls out.

* `Chart k` : the two views; `Chart.empty`, `Chart.ofList`;
* `add`, `remove`, `replace` : the changes, each with what it reports and the chart it leaves;
* `get?`, `toList`, `size`, `text` : the observations;
* `wellFormed` : the check that the two views agree and no more than `k` entries are ranked.

An entry that falls out of the `k` best is forgotten: the gap that a later retraction leaves stays
open until an addition fills it.
-/

namespace TopCharts

open Std (ExtTreeMap)

/-- The `k` best entries of one key. -/
structure Chart (k : Nat) where
  /-- The live entry of each identity. -/
  members : ExtTreeMap Int64 Entry
  /-- The live entries in rank order. -/
  ranking : List Entry
  deriving DecidableEq

/-- Puts `e` at its rank in a ranked list; a listed entry is not listed twice. -/
def Entry.insertRanked (e : Entry) : List Entry → List Entry
  | [] => [e]
  | x :: xs =>
    match compare e x with
    | .lt => e :: x :: xs
    | .eq => x :: xs
    | .gt => x :: insertRanked e xs

namespace Chart

variable {k : Nat}

def empty : Chart k := ⟨∅, []⟩

instance : Inhabited (Chart k) := ⟨empty⟩

/-! ## Changes -/

/-- Delivers `e`, which replaces the entry held for its identity. Reports the entry pushed out of
the `k` best, which may be `e` itself. -/
def add (c : Chart k) (e : Entry) : Option Entry × Chart k :=
  let kept := match c.members[e.identity]? with
    | some old => c.ranking.erase old
    | none => c.ranking
  let ranking := e.insertRanked kept
  let members := c.members.insert e.identity e
  match if k < ranking.length then ranking.getLast? else none with
  | some last => (some last, ⟨members.erase last.identity, ranking.dropLast⟩)
  | none => (none, ⟨members, ranking⟩)

/-- Takes back exactly `e`: an older score of a live identity and an unknown entry change nothing.
Reports whether `e` was ranked. -/
def remove (c : Chart k) (e : Entry) : Bool × Chart k :=
  let members := match c.members[e.identity]? with
    | some live => if live.score = e.score then c.members.erase e.identity else c.members
    | none => c.members
  (c.ranking.contains e, ⟨members, c.ranking.erase e⟩)

/-- Changes a value from `old` to `new`: the retraction always comes first. Reports what the
addition pushed out. -/
def replace (c : Chart k) (old new : Option Entry) : Option Entry × Chart k :=
  let c := match old with
    | some e => (c.remove e).2
    | none => c
  match new with
  | some e => c.add e
  | none => (none, c)

/-- The chart of entries added in turn. -/
def ofList (entries : List Entry) : Chart k :=
  entries.foldl (fun c e => (c.add e).2) empty

/-! ## Observations -/

def get? (c : Chart k) (identity : Int64) : Option Entry :=
  c.members[identity]?

def toList (c : Chart k) : List Entry :=
  c.ranking

def size (c : Chart k) : Nat :=
  c.ranking.length

def isEmpty (c : Chart k) : Bool :=
  c.ranking.isEmpty

/-- The ranking as `[2=2, 1=1]`. -/
def text (c : Chart k) : String :=
  "[" ++ ", ".intercalate (c.ranking.map Entry.text) ++ "]"

/-- At most `k` entries are ranked, each the live entry of an identity of its own, and a live entry
that is not ranked would rank below all that are. -/
def wellFormed (c : Chart k) : Bool :=
  c.ranking.length ≤ k
    && (c.ranking.map Entry.identity).Nodup
    && c.ranking.all (fun e => c.members[e.identity]? = some e)
    && match c.ranking.getLast? with
      | some lowest =>
        c.members.toList.all fun (_, e) => c.ranking.contains e || compare lowest e = .lt
      | none => c.members.isEmpty

end Chart

end TopCharts
