import TopCharts.Arithmetic

/-!
# Generated records

The records of an epoch are numbered from zero, and each is computed from its number. A record
whose computation fails ends the epoch with its fault; the ones after it are not looked at.

* `generate` : the first records of a numbered sequence;
* `pick` : an element of a list by a number that goes round.
-/

namespace TopCharts.Demo

variable {α : Type}

/-- The first `n` records of a sequence. -/
def generate (n : Nat) (record : UInt64 → Except Fault α) : Except Fault (List α) :=
  go n 0 []
where
  /-- The records before number `i` are kept from last to first. -/
  go : Nat → UInt64 → List α → Except Fault (List α)
    | 0, _, done => .ok done.reverse
    | n + 1, i, done => do go n (i + 1) ((← record i) :: done)

def pick (names : List String) (n : UInt64) : String :=
  names.getD (n.toNat % names.length) ""

end TopCharts.Demo
