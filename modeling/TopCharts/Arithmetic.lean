/-!
# Machine arithmetic that does not wrap

Counts and times are 64-bit words. An operation that leaves their range is a fault, or stops at
the end of the range, but never gives a wrapped result.

* `Fault` : the ways an operation fails, with their `message`s;
* `Checked.add`, `mul`, `rem` : on unsigned words; `Checked.addInt`, `negInt` : on signed words.
  Each succeeds exactly when the exact result exists and fits (`add_eq_ok_iff` and its fellows);
* `Checked.int` : an exact result that was reached in another way, if it is a signed word;
* `Saturating.sub`, `mul` : the exact result, or the end of the range that it lies beyond.
-/

namespace TopCharts

/-- A failed arithmetic operation. -/
inductive Fault where
  | addOverflow
  | mulOverflow
  | negOverflow
  | remainderByZero
  deriving DecidableEq, Repr

def Fault.message : Fault → String
  | .addOverflow => "attempt to add with overflow"
  | .mulOverflow => "attempt to multiply with overflow"
  | .negOverflow => "attempt to negate with overflow"
  | .remainderByZero => "attempt to calculate the remainder with a divisor of zero"

namespace Checked

/-! ## Unsigned words -/

def add (a b : UInt64) : Except Fault UInt64 :=
  if a.toNat + b.toNat < UInt64.size then .ok (a + b) else .error .addOverflow

def mul (a b : UInt64) : Except Fault UInt64 :=
  if a.toNat * b.toNat < UInt64.size then .ok (a * b) else .error .mulOverflow

def rem (a b : UInt64) : Except Fault UInt64 :=
  if b = 0 then .error .remainderByZero else .ok (a % b)

theorem add_eq_ok_iff {a b c : UInt64} : add a b = .ok c ↔ a.toNat + b.toNat = c.toNat := by
  unfold add UInt64.size
  split
  · rename_i h
    simp only [Except.ok.injEq, ← UInt64.toNat_inj, UInt64.toNat_add]
    omega
  · have := c.toNat_lt
    simp only [reduceCtorEq, false_iff]
    omega

theorem mul_eq_ok_iff {a b c : UInt64} : mul a b = .ok c ↔ a.toNat * b.toNat = c.toNat := by
  unfold mul UInt64.size
  split
  · rename_i h
    simp only [Except.ok.injEq, ← UInt64.toNat_inj, UInt64.toNat_mul, Nat.reducePow,
      Nat.mod_eq_of_lt h]
  · have := c.toNat_lt
    simp only [reduceCtorEq, false_iff]
    omega

/-! ## Signed words -/

/-- An exact result, if it is a signed word. -/
def int (overflow : Fault) (n : Int) : Except Fault Int :=
  if Int64.minValue.toInt ≤ n ∧ n ≤ Int64.maxValue.toInt then .ok n else .error overflow

def addInt (a b : Int64) : Except Fault Int64 :=
  let sum := a.toInt + b.toInt
  if Int64.minValue.toInt ≤ sum ∧ sum ≤ Int64.maxValue.toInt then .ok (Int64.ofInt sum)
  else .error .addOverflow

/-- The negation of a signed word: only the least one has none. -/
def negInt (a : Int64) : Except Fault Int64 :=
  if a = Int64.minValue then .error .negOverflow else .ok (-a)

theorem int_eq_ok_iff {overflow : Fault} {m n : Int} :
    int overflow n = .ok m ↔
      n = m ∧ Int64.minValue.toInt ≤ n ∧ n ≤ Int64.maxValue.toInt := by
  unfold int
  split
  · rename_i h
    simp only [Except.ok.injEq, h, and_self, and_true]
  · rename_i h
    simp only [reduceCtorEq, h, and_false]

theorem addInt_eq_ok_iff {a b c : Int64} : addInt a b = .ok c ↔ a.toInt + b.toInt = c.toInt := by
  unfold addInt
  have lo := c.le_toInt
  have hi := c.toInt_lt
  dsimp only
  split
  · rename_i h
    rw [Int64.toInt_minValue, Int64.toInt_maxValue] at h
    simp only [Except.ok.injEq, ← Int64.toInt_inj]
    rw [Int64.toInt_ofInt_of_le h.1 (by omega)]
  · rename_i h
    rw [Int64.toInt_minValue, Int64.toInt_maxValue] at h
    simp only [reduceCtorEq, false_iff]
    omega

end Checked

/-! ## Saturating operations -/

namespace Saturating

/-- The difference of two words, or zero if it is negative. -/
def sub (a b : UInt64) : UInt64 :=
  if b ≤ a then a - b else 0

/-- The product of two words, or the greatest word if it is greater. -/
def mul (a b : UInt64) : UInt64 :=
  if a.toNat * b.toNat < UInt64.size then a * b else 0xffffffffffffffff

theorem toNat_sub (a b : UInt64) : (sub a b).toNat = a.toNat - b.toNat := by
  unfold sub
  split
  · rename_i h
    exact UInt64.toNat_sub_of_le a b h
  · rename_i h
    rw [UInt64.le_iff_toNat_le] at h
    show 0 = _
    omega

theorem toNat_mul (a b : UInt64) : (mul a b).toNat = min (a.toNat * b.toNat) (UInt64.size - 1) := by
  unfold mul UInt64.size
  split
  · rename_i h
    simp only [UInt64.toNat_mul, Nat.reducePow, Nat.mod_eq_of_lt h]
    omega
  · rename_i h
    show 18446744073709551615 = _
    omega

end Saturating

end TopCharts
