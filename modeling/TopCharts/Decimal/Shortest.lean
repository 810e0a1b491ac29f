/-!
# Shortest decimals of floating-point numbers

A finite positive float is `m · 2^q`. The reals that round to it form an interval around it, which
reaches half way to either neighbour and holds its ends exactly when `m` is even. The shortest
decimal of the float is the point `d · 10^p` of that interval on the coarsest decimal grid that
has one, and of two such points the nearer.

* `Binary` : the pair `m`, `q`; `Binary.ofBits` reads it off the bits of a float;
* `Binary.reads d p` : whether `d · 10^p` lies in the interval;
* `Decimal` : the pair `d`, `p`; `Binary.shortest` : the shortest decimal.

If a grid has a point in the interval then it has one next to the value, so only the two
neighbours of the value are looked at. All comparisons are made on whole numbers.
-/

namespace TopCharts

/-- The positive number `mantissa · 2^exponent`. -/
structure Binary where
  mantissa : Nat
  exponent : Int
  deriving DecidableEq, Repr

/-- The number `digits · 10^exponent`. -/
structure Decimal where
  digits : Nat
  exponent : Int
  deriving DecidableEq, Repr

namespace Binary

/-- The magnitude of the finite float with the given bits. -/
def ofBits (bits : UInt64) : Binary :=
  let fraction := (bits &&& 0xfffffffffffff).toNat
  let exponent := (bits >>> 52 &&& 0x7ff).toNat
  if exponent = 0 then ⟨fraction, -1074⟩ else ⟨0x10000000000000 + fraction, exponent - 1075⟩

/-- Compares `a · 10^p` with `b · 2^q`. -/
def compareScaled (a : Nat) (p : Int) (b : Nat) (q : Int) : Ordering :=
  compare (a * Nat.pow 10 p.toNat * Nat.pow 2 (-q).toNat)
    (b * Nat.pow 2 q.toNat * Nat.pow 10 (-p).toNat)

/-- How far the interval reaches below `x`, in quarters of the unit `2^q`: two, but one where the
float below is only half a unit away. Above `x` it always reaches two. -/
def reachBelow (x : Binary) : Nat :=
  if x.mantissa = 0x10000000000000 ∧ -1074 < x.exponent then 1 else 2

/-- Whether `d · 10^p` lies in the interval of the reals that round to `x`. -/
def reads (x : Binary) (d : Nat) (p : Int) : Bool :=
  let low := compareScaled d p (4 * x.mantissa - x.reachBelow) (x.exponent - 2)
  let high := compareScaled d p (4 * x.mantissa + 2) (x.exponent - 2)
  if x.mantissa % 2 = 0 then low.isGE && high.isLE else low.isGT && high.isLT

/-- The greatest number of the grid of `10^p` at or below `x`, in steps of the grid. -/
def stepsBelow (x : Binary) (p : Int) : Nat :=
  x.mantissa * Nat.pow 2 x.exponent.toNat * Nat.pow 10 (-p).toNat /
    (Nat.pow 10 p.toNat * Nat.pow 2 (-x.exponent).toNat)

/-- The point of the grid of `10^p` that lies in the interval, the one nearest to `x` if there are
two; a tie goes to the even number of steps. -/
def onGrid? (x : Binary) (p : Int) : Option Nat :=
  let d := x.stepsBelow p
  match x.reads d p, x.reads (d + 1) p with
  | true, true =>
    match compareScaled (2 * d + 1) p (2 * x.mantissa) x.exponent with
    | .gt => some d
    | .lt => some (d + 1)
    | .eq => if d % 2 = 0 then some d else some (d + 1)
  | true, false => some d
  | false, true => some (d + 1)
  | false, false => none

/-- The shortest decimal on the grids of `10^p`, `10^(p - 1)`, …, for `n` grids. -/
def search (x : Binary) : (n : Nat) → (p : Int) → Option Decimal
  | 0, _ => none
  | n + 1, p =>
    match x.onGrid? p with
    | some d => some ⟨d, p⟩
    | none => search x n (p - 1)

/-- The shortest decimal that reads back as `x`. Grids from `10^309`, above every float, down to
`10^(-340)`, below the least one, are tried. -/
def shortest (x : Binary) : Decimal :=
  (x.search 650 309).getD ⟨0, 0⟩

end Binary

end TopCharts
