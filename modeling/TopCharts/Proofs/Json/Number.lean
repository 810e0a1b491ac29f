import Mathlib.Algebra.Group.Nat.Defs
import TopCharts.Json.Format
import TopCharts.Proofs.Json.Text

/-!
# Reading a written number back

* `Ends r` : a text that does not go on with a number that stands before it;
* `Signed p` : digits, with a minus or without, whole or cut;
* `scan_toDigits`, `scan_neg_toDigits` : the decimal digits of a number are scanned as they are
  written, with a minus or without;
* `read_natural`, `read_negative` : so unsigned words, and signed words below zero, are read back;
* `Number.eq_nil_of_read` : of digits and a minus nothing is left, should they be a number.
-/

namespace TopCharts.Json

open Attempt

def Ends (r : List Char) : Prop :=
  ∀ c ∈ r.head?, c.isDigit = false ∧ c ≠ '.' ∧ c ≠ 'e' ∧ c ≠ 'E'

theorem ends_nil : Ends [] := by
  intro c hc
  cases hc

theorem ends_cons {c : Char} {r : List Char} (h : c.isDigit = false)
    (hc : c ≠ '.' ∧ c ≠ 'e' ∧ c ≠ 'E') : Ends (c :: r) := by
  intro d hd
  cases hd
  exact ⟨h, hc⟩

/-- Digits, with a minus before them or without. -/
def Signed (p : List Char) : Prop :=
  ∃ s, (∀ c ∈ s, c.isDigit) ∧ (p = s ∨ p = '-' :: s)

theorem Signed.head {c : Char} {s : List Char} (h : Signed (c :: s)) : c = '-' ∨ c.isDigit := by
  obtain ⟨ds, hds, rfl | h⟩ := h
  · exact .inr (hds c List.mem_cons_self)
  · exact .inl (List.cons.inj h).1

theorem Signed.of_cut {p s : List Char} (hs : Signed s) (hp : Cut p s) : Signed p := by
  obtain ⟨ds, hds, rfl | rfl⟩ := hs
  · exact ⟨p, fun c hc => hds c (hp.mem hc), .inl rfl⟩
  · rcases hp.cons with rfl | ⟨q, rfl, hq⟩
    · exact ⟨[], fun c hc => absurd hc List.not_mem_nil, .inl rfl⟩
    · exact ⟨q, fun c hc => hds c (hq.mem hc), .inr rfl⟩

/-! ## Decimal digits -/

def digits (s : List Char) : List Nat :=
  s.map fun c => c.toNat - 48

theorem ofDigits_digits_toDigits (n : Nat) : Numeral.ofDigits (digits (Nat.toDigits 10 n)) = n := by
  have hfold := Nat.ofDigitChars_toDigits (b := 10) (n := n) (by decide) (by decide)
  rw [Nat.ofDigitChars_eq_foldl] at hfold
  rw [Numeral.ofDigits, digits, List.foldl_map]
  refine Eq.trans ?_ hfold
  simp only [Nat.mul_comm]
  rfl

theorem isDigit_toDigits (n : Nat) : ∀ c ∈ Nat.toDigits 10 n, c.isDigit :=
  fun _ => Nat.isDigit_of_mem_toDigits (by decide) (by decide)

theorem head?_toDigits {n : Nat} (h : 0 < n) : (Nat.toDigits 10 n).head? ≠ some '0' := by
  induction n using Nat.strongRecOn with
  | ind n ih =>
    rw [Nat.toDigits_eq_if (by decide)]
    split
    · rename_i hlt
      have hdigit : ∀ d < 10, 0 < d → d.digitChar ≠ '0' := by decide
      rw [List.head?_cons, ne_eq, Option.some_inj]
      exact hdigit n hlt h
    · have hhead := ih (n / 10) (by omega) (by omega)
      cases hdigits : Nat.toDigits 10 (n / 10) with
      | nil => exact absurd hdigits Nat.toDigits_ne_nil
      | cons c cs => rwa [hdigits] at hhead

theorem absorb_eq {ds : List Nat} {n : Nat}
    (h : ds.foldl (fun n d => n * 10 + d) n < UInt64.size) :
    Numeral.absorb n ds = (ds.foldl (fun n d => n * 10 + d) n, ds.length) := by
  induction ds generalizing n with
  | nil => rfl
  | cons d ds ih =>
    have hle : ∀ (ds : List Nat) (n : Nat), n ≤ ds.foldl (fun n d => n * 10 + d) n := by
      intro ds
      induction ds with
      | nil => exact fun n => Nat.le_refl n
      | cons d ds ih =>
        intro n
        have := ih (n * 10 + d)
        rw [List.foldl_cons]
        omega
    rw [List.foldl_cons] at h
    rw [Numeral.absorb, if_pos (Nat.lt_of_le_of_lt (hle ds _) h), ih h]
    rfl

/-! ## Numerals -/

namespace Numeral

theorem spanDigits_append {s r : List Char} (hs : ∀ c ∈ s, c.isDigit)
    (hr : ∀ c ∈ r.head?, c.isDigit = false) : spanDigits (s ++ r) = (digits s, r) := by
  have hr' : r.takeWhile Char.isDigit = [] ∧ r.dropWhile Char.isDigit = r := by
    cases r with
    | nil => exact ⟨rfl, rfl⟩
    | cons c r =>
      have hc := hr c rfl
      rw [List.takeWhile_cons, List.dropWhile_cons, hc]
      exact ⟨rfl, rfl⟩
  rw [spanDigits, List.takeWhile_append_of_pos hs, List.dropWhile_append_of_pos hs, hr'.1, hr'.2,
    List.append_nil]
  rfl

theorem scanDigits_append {s r : List Char} (hs : ∀ c ∈ s, c.isDigit) (hne : s ≠ [])
    (hr : ∀ c ∈ r.head?, c.isDigit = false) : scanDigits (s ++ r) = .ok (digits s, r) := by
  obtain ⟨c, s, rfl⟩ := List.exists_cons_of_ne_nil hne
  rw [scanDigits, spanDigits_append hs hr]
  rfl

theorem scanFraction_of_noPoint {r : List Char} (hr : ∀ c ∈ r.head?, c ≠ '.') :
    scanFraction r = .ok ([], r) := by
  unfold scanFraction
  split
  · exact absurd rfl (hr '.' rfl)
  · rfl

theorem scanExponent_of_ends {r : List Char} (hr : Ends r) : scanExponent r = .ok (none, r) := by
  unfold scanExponent
  split
  · rename_i c r
    obtain ⟨-, -, he, hE⟩ := hr c rfl
    rw [if_neg]
    simp [he, hE]
  · rfl

/-- A text of digits that does not start with a zero, or is only that, is scanned as it stands. -/
theorem scanWhole_append {s r : List Char} (hs : ∀ c ∈ s, c.isDigit) (hne : s ≠ [])
    (hzero : s.head? = some '0' → s = ['0']) (hr : ∀ c ∈ r.head?, c.isDigit = false) :
    scanWhole (s ++ r) = .ok (digits s, r) := by
  cases s with
  | nil => exact absurd rfl hne
  | cons c s =>
    rw [scanWhole, scanDigits_append hs hne hr]
    dsimp only [bind, Except.bind]
    split
    · rename_i d ds _ heq
      obtain ⟨hd, hds⟩ := List.cons.inj (Prod.mk.inj heq).1
      have hd : c.toNat - 48 = 0 := hd
      have h0 : c = '0' := by
        have hc := (Char.isDigit_iff_toNat.1 (hs c List.mem_cons_self)).1
        have h48 : '0'.toNat = 48 := rfl
        rw [← Char.toNat_inj]
        omega
      have hnil := (List.cons.inj (hzero (h0 ▸ rfl))).2
      rw [hnil] at hds
      cases hds
    · rename_i heq
      exact congrArg Except.ok heq.symm

theorem scanWhole_toDigits (n : Nat) {r : List Char} (hr : Ends r) :
    scanWhole (Nat.toDigits 10 n ++ r) = .ok (digits (Nat.toDigits 10 n), r) := by
  refine scanWhole_append (isDigit_toDigits n) Nat.toDigits_ne_nil (fun h => ?_)
    fun c hc => (hr c hc).1
  cases n with
  | zero => rfl
  | succ n => exact absurd h (head?_toDigits (Nat.succ_pos n))

def ofNat (isNegative : Bool) (n : Nat) : Numeral where
  isNegative := isNegative
  whole := digits (Nat.toDigits 10 n)
  fraction := []
  exponent := none

theorem scan_toDigits (n : Nat) {r : List Char} (hr : Ends r) :
    scan (Nat.toDigits 10 n ++ r) = .ok (ofNat false n, r) := by
  unfold scan
  split
  rename_i sign t heq
  split at heq
  · rename_i t' hminus
    exfalso
    cases hdigits : Nat.toDigits 10 n with
    | nil => exact absurd hdigits Nat.toDigits_ne_nil
    | cons c cs =>
      have hc := isDigit_toDigits n c (hdigits ▸ List.mem_cons_self)
      rw [hdigits] at hminus
      rw [(List.cons.inj hminus).1] at hc
      exact absurd hc (by decide)
  · obtain ⟨rfl, rfl⟩ := Prod.mk.inj heq
    rw [scanWhole_toDigits n hr]
    show (scanFraction r >>= _) = _
    rw [scanFraction_of_noPoint fun c hc => (hr c hc).2.1]
    show (scanExponent r >>= _) = _
    rw [scanExponent_of_ends hr]
    rfl

theorem scan_neg_toDigits (n : Nat) {r : List Char} (hr : Ends r) :
    scan ('-' :: (Nat.toDigits 10 n ++ r)) = .ok (ofNat true n, r) := by
  rw [scan]
  dsimp only
  rw [scanWhole_toDigits n hr]
  show (scanFraction r >>= _) = _
  rw [scanFraction_of_noPoint fun c hc => (hr c hc).2.1]
  show (scanExponent r >>= _) = _
  rw [scanExponent_of_ends hr]
  rfl

theorem absorb_digits {n : Nat} (h : n < UInt64.size) :
    absorb 0 (digits (Nat.toDigits 10 n)) = (n, (digits (Nat.toDigits 10 n)).length) := by
  have hvalue : (digits (Nat.toDigits 10 n)).foldl (fun n d => n * 10 + d) 0 = n :=
    ofDigits_digits_toDigits n
  rw [absorb_eq (by rw [hvalue]; exact h), hvalue]

theorem value_ofNat {n : Nat} (h : n < UInt64.size) :
    (ofNat false n).value = some (.natural (UInt64.ofNat n)) := by
  rw [value, ofNat]
  dsimp only
  rw [absorb_digits h]
  simp

theorem value_ofNat_neg {n : Nat} (hpos : 0 < n) (h : n ≤ 2 ^ 63) :
    (ofNat true n).value = some (.negative (Int64.ofInt (-n))) := by
  rw [value, ofNat]
  dsimp only
  rw [absorb_digits (show n < 18446744073709551616 by omega)]
  simp [hpos]
  omega

/-! ## Numerals that are cut -/

theorem eq_nil_of_scanWhole {s r : List Char} {ds : List Nat} (hs : ∀ c ∈ s, c.isDigit)
    (h : scanWhole s = .ok (ds, r)) : r = [] := by
  have hspan : spanDigits s = (digits s, []) := by
    have := spanDigits_append (r := []) hs fun c hc => nomatch hc
    rwa [List.append_nil] at this
  obtain ⟨⟨ds', r'⟩, hdigits, h⟩ := bind_eq_ok.1 h
  have hr' : r' = [] := by
    unfold scanDigits at hdigits
    rw [hspan] at hdigits
    split at hdigits
    · cases hdigits
    · cases hdigits
    · rename_i heq
      cases hdigits
      exact (Prod.mk.inj heq).2.symm
  split at h
  · cases h
  · rename_i heq
    cases h
    rw [← hr']
    exact (Prod.mk.inj heq).2.symm

theorem eq_nil_of_scan {p r : List Char} {x : Numeral} (hp : Signed p)
    (h : scan p = .ok (x, r)) : r = [] := by
  obtain ⟨s, hs, hp⟩ := hp
  unfold scan at h
  split at h
  rename_i sign t heq
  have ht : ∀ c ∈ t, c.isDigit := by
    split at heq
    · obtain ⟨-, rfl⟩ := Prod.mk.inj heq
      rcases hp with rfl | hp
      · exact fun c hc => hs c (List.mem_cons_of_mem '-' hc)
      · exact (List.cons.inj hp).2 ▸ hs
    · rename_i hminus
      obtain ⟨-, rfl⟩ := Prod.mk.inj heq
      rcases hp with rfl | rfl
      · exact hs
      · exact absurd rfl (hminus s)
  obtain ⟨⟨whole, r₁⟩, h₁, h⟩ := bind_eq_ok.1 h
  cases eq_nil_of_scanWhole ht h₁
  obtain ⟨⟨fraction, r₂⟩, h₂, h⟩ := bind_eq_ok.1 h
  cases h₂
  obtain ⟨⟨exponent, r₃⟩, h₃, h⟩ := bind_eq_ok.1 h
  cases h₃
  cases h
  rfl

end Numeral

/-! ## Numbers -/

theorem Number.read_of_scan {x : Numeral} {n : Number} {s r : List Char}
    (hscan : Numeral.scan s = .ok (x, r)) (hvalue : x.value = some n) : read s = .ok (n, r) := by
  rw [read, hscan]
  dsimp only [bind, Except.bind]
  rw [hvalue]

theorem Number.read_natural {n : Nat} (h : n < UInt64.size) {r : List Char} (hr : Ends r) :
    read (Nat.toDigits 10 n ++ r) = .ok (.natural (UInt64.ofNat n), r) :=
  read_of_scan (Numeral.scan_toDigits n hr) (Numeral.value_ofNat h)

theorem Number.read_negative {n : Nat} (hpos : 0 < n) (h : n ≤ 2 ^ 63) {r : List Char}
    (hr : Ends r) :
    read ('-' :: (Nat.toDigits 10 n ++ r)) = .ok (.negative (Int64.ofInt (-n)), r) :=
  read_of_scan (Numeral.scan_neg_toDigits n hr) (Numeral.value_ofNat_neg hpos h)

theorem Number.eq_nil_of_read {p r : List Char} {n : Number} (hp : Signed p)
    (h : read p = .ok (n, r)) : r = [] := by
  obtain ⟨⟨x, r'⟩, hscan, h⟩ := bind_eq_ok.1 h
  cases Numeral.eq_nil_of_scan hp hscan
  dsimp only at h
  split at h
  · cases h
    rfl
  · cases h

end TopCharts.Json
