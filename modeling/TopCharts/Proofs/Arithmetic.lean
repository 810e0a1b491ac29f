import Mathlib.Algebra.Group.Nat.Defs
import TopCharts.Arithmetic

/-!
# Machine arithmetic that does not fail

* `toNat_max_one` : a word that counts as one if it is zero;
* `toInt_toInt64` : a word that is read as a signed one;
* `Checked.exists_add_eq_ok`, `Checked.exists_mul_eq_ok` : exact results that fit are words.
-/

namespace TopCharts

theorem toNat_max_one (n : UInt64) : (max n 1).toNat = max n.toNat 1 := by
  show (if n ≤ 1 then 1 else n).toNat = _
  split
  · rename_i h
    exact (Nat.max_eq_right (UInt64.le_iff_toNat_le.1 h)).symm
  · rename_i h
    rw [UInt64.le_iff_toNat_le, Nat.not_le] at h
    exact (Nat.max_eq_left (Nat.le_of_lt h)).symm

theorem toNat_max_one_pos (n : UInt64) : 0 < (max n 1).toNat := by
  rw [toNat_max_one]
  exact Nat.le_max_right _ _

theorem toInt_toInt64 {n : UInt64} (h : n.toNat < 2 ^ 63) : n.toInt64.toInt = n.toNat := by
  show n.toBitVec.toInt = n.toBitVec.toNat
  exact BitVec.toInt_eq_toNat_of_lt (by simpa using by omega)

namespace Checked

variable {a b : UInt64}

theorem exists_add_eq_ok (h : a.toNat + b.toNat < UInt64.size) :
    ∃ c, add a b = .ok c ∧ c.toNat = a.toNat + b.toNat := by
  refine ⟨a + b, if_pos h, ?_⟩
  rw [UInt64.toNat_add]
  exact Nat.mod_eq_of_lt h

theorem exists_mul_eq_ok (h : a.toNat * b.toNat < UInt64.size) :
    ∃ c, mul a b = .ok c ∧ c.toNat = a.toNat * b.toNat := by
  refine ⟨a * b, if_pos h, ?_⟩
  rw [UInt64.toNat_mul]
  exact Nat.mod_eq_of_lt h

end Checked

end TopCharts
