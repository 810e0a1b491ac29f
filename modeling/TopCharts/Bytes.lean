/-!
# Words as bytes

* `littleEndian n v` : the `n` low base-256 digits of `v`, least first; `ofLittleEndian` adds
  them up again (`ofLittleEndian_littleEndian`), and every list of digits comes from the number it
  adds up to (`littleEndian_ofLittleEndian`);
* `bigEndian n v` : the same digits, greatest first.
-/

namespace TopCharts.Bytes

/-- The `n` low base-256 digits of `v`, least first. -/
def littleEndian : Nat → Nat → List UInt8
  | 0, _ => []
  | n + 1, v => UInt8.ofNat (v % 256) :: littleEndian n (v / 256)

def ofLittleEndian : List UInt8 → Nat
  | [] => 0
  | b :: bs => b.toNat + 256 * ofLittleEndian bs

def bigEndian (n v : Nat) : List UInt8 :=
  (littleEndian n v).reverse

def ofBigEndian (bs : List UInt8) : Nat :=
  ofLittleEndian bs.reverse

@[simp] theorem length_littleEndian (n v : Nat) : (littleEndian n v).length = n := by
  induction n generalizing v with
  | zero => rfl
  | succ n ih => simp [littleEndian, ih]

@[simp] theorem length_bigEndian (n v : Nat) : (bigEndian n v).length = n := by
  simp [bigEndian]

theorem ofLittleEndian_littleEndian (n v : Nat) :
    ofLittleEndian (littleEndian n v) = v % Nat.pow 256 n := by
  induction n generalizing v with
  | zero => simp [littleEndian, ofLittleEndian, Nat.mod_one]
  | succ n ih =>
    have digit : (UInt8.ofNat (v % 256)).toNat = v % 256 := by
      rw [UInt8.toNat_ofNat']
      exact Nat.mod_mod ..
    rw [Nat.pow_eq] at ih ⊢
    rw [littleEndian, ofLittleEndian, ih, digit, Nat.pow_succ', Nat.mod_mul]

theorem ofLittleEndian_lt (bs : List UInt8) : ofLittleEndian bs < Nat.pow 256 bs.length := by
  rw [Nat.pow_eq]
  induction bs with
  | nil => exact Nat.zero_lt_one
  | cons b bs ih =>
    have := b.toNat_lt
    rw [ofLittleEndian, List.length_cons, Nat.pow_succ]
    omega

theorem littleEndian_ofLittleEndian (bs : List UInt8) :
    littleEndian bs.length (ofLittleEndian bs) = bs := by
  induction bs with
  | nil => rfl
  | cons b bs ih =>
    have := b.toNat_lt
    have hdigit : (b.toNat + 256 * ofLittleEndian bs) % 256 = b.toNat := by omega
    have hrest : (b.toNat + 256 * ofLittleEndian bs) / 256 = ofLittleEndian bs := by omega
    rw [List.length_cons, ofLittleEndian, littleEndian, hdigit, hrest, ih, UInt8.ofNat_toNat]

theorem ofBigEndian_bigEndian (n v : Nat) : ofBigEndian (bigEndian n v) = v % Nat.pow 256 n := by
  simp [ofBigEndian, bigEndian, ofLittleEndian_littleEndian]

theorem ofBigEndian_lt (bs : List UInt8) : ofBigEndian bs < Nat.pow 256 bs.length := by
  rw [ofBigEndian, ← List.length_reverse]
  exact ofLittleEndian_lt bs.reverse

theorem bigEndian_ofBigEndian (bs : List UInt8) : bigEndian bs.length (ofBigEndian bs) = bs := by
  rw [bigEndian, ofBigEndian, ← List.length_reverse, littleEndian_ofLittleEndian,
    List.reverse_reverse]

end TopCharts.Bytes
