import TopCharts.Json.Error

/-!
# Numbers in a JSON text

* `Numeral` : a number as it is spelled; `Numeral.scan` takes one off a text;
* `Number` : what a numeral denotes. A numeral without fraction and exponent is a word if it fits
  one, all others are floats;
* `Numeral.value` : the number a numeral denotes, if a float can hold it;
* `Number.read` : both steps.

The float of a numeral is the product or quotient of two floats: its leading digits, as far as
they fit a 64-bit word, and a power of ten.
-/

namespace TopCharts.Json

open Attempt

inductive Number where
  | natural (n : UInt64)
  | negative (n : Int64)
  | real (x : Float)

/-- A number as it is spelled: a sign, digits, the digits after a point if there is one, and an
exponent if there is one. -/
structure Numeral where
  isNegative : Bool
  whole : List Nat
  fraction : List Nat
  /-- Whether the exponent is negative, and its digits. -/
  exponent : Option (Bool × List Nat)
  deriving DecidableEq, Repr

namespace Numeral

/-! ## Spelling -/

/-- The digits at the start of a text and the text after them. -/
def spanDigits (s : List Char) : List Nat × List Char :=
  ((s.takeWhile Char.isDigit).map fun c => c.toNat - 48, s.dropWhile Char.isDigit)

def scanDigits (s : List Char) : Except ReadError (List Nat × List Char) :=
  match spanDigits s with
  | ([], []) => .error .truncated
  | ([], _ :: _) => .error .malformed
  | (d :: ds, r) => .ok (d :: ds, r)

/-- Takes the digits before the point off a text: a leading zero stands alone. -/
def scanWhole (s : List Char) : Except ReadError (List Nat × List Char) := do
  match ← scanDigits s with
  | (0 :: _ :: _, _) => .error .malformed
  | (ds, r) => .ok (ds, r)

/-- Takes a point and the digits after it off a text, if there is a point. -/
def scanFraction : List Char → Except ReadError (List Nat × List Char)
  | '.' :: r => scanDigits r
  | s => .ok ([], s)

/-- Takes an exponent off a text, if there is one. -/
def scanExponent (s : List Char) : Except ReadError (Option (Bool × List Nat) × List Char) :=
  match s with
  | c :: r =>
    if c = 'e' || c = 'E' then do
      let (isNegative, r) := match r with
        | '+' :: r => (false, r)
        | '-' :: r => (true, r)
        | r => (false, r)
      let (ds, r) ← scanDigits r
      return (some (isNegative, ds), r)
    else .ok (none, s)
  | [] => .ok (none, s)

def scan (s : List Char) : Except ReadError (Numeral × List Char) := do
  let (isNegative, r) := match s with
    | '-' :: r => (true, r)
    | r => (false, r)
  let (whole, r) ← scanWhole r
  let (fraction, r) ← scanFraction r
  let (exponent, r) ← scanExponent r
  return ({ isNegative, whole, fraction, exponent }, r)

/-! ## Value -/

/-- Appends digits to a number as long as it stays a 64-bit word, and counts them. -/
def absorb (n : Nat) : List Nat → Nat × Nat
  | [] => (n, 0)
  | d :: ds =>
    if n * 10 + d < UInt64.size then
      let (m, taken) := absorb (n * 10 + d) ds
      (m, taken + 1)
    else (n, 0)

def ofDigits (ds : List Nat) : Nat :=
  ds.foldl (fun n d => n * 10 + d) 0

def tenTo (e : Nat) : Float :=
  Float.ofScientific 1 false e

/-- Divides by `10^e`, by `10^308` at a time while `e` is greater. -/
def shrink (x : Float) (e : Nat) : Float :=
  if e ≤ 308 then x / tenTo e
  else if x == 0 then x
  else shrink (x / tenTo 308) (e - 308)
termination_by e

/-- The float nearest to `n` times the float `10^e`, unless it is too great. -/
def scale (n : Nat) (e : Int) : Option Float :=
  let x := (UInt64.ofNat n).toFloat
  if e < 0 then some (shrink x e.natAbs)
  else if e ≤ 308 then
    let y := x * tenTo e.toNat
    if y.isInf then none else some y
  else if n = 0 then some x
  else none

/-- The float a numeral denotes, without its sign. -/
def magnitude (x : Numeral) : Option Float :=
  let (n, taken) := absorb 0 x.whole
  let (n, below) := absorb n x.fraction
  let shift : Int := match x.exponent with
    | some (true, ds) => -ofDigits ds
    | some (false, ds) => ofDigits ds
    | none => 0
  scale n ((x.whole.length - taken : Nat) - below + shift)

/-- The number a numeral denotes, unless it is too great. The negative of zero is a float. -/
def value (x : Numeral) : Option Number :=
  let (n, taken) := absorb 0 x.whole
  let isWord := x.fraction.isEmpty && x.exponent.isNone && taken = x.whole.length
  if isWord && !x.isNegative then some (.natural (UInt64.ofNat n))
  else if isWord && 0 < n && Int64.minValue.toInt ≤ -n then some (.negative (Int64.ofInt (-n)))
  else x.magnitude.map fun y => .real (if x.isNegative then -y else y)

/-! ## Lengths -/

theorem length_of_scanDigits {s r : List Char} {ds : List Nat} (h : scanDigits s = .ok (ds, r)) :
    r.length < s.length := by
  unfold scanDigits at h
  split at h
  · simp at h
  · simp at h
  · rename_i d ds' r' hs
    simp only [Except.ok.injEq, Prod.mk.injEq] at h
    rw [← h.2]
    simp only [spanDigits, Prod.mk.injEq] at hs
    have hlen := congrArg List.length (List.takeWhile_append_dropWhile (p := Char.isDigit) (l := s))
    have htake := congrArg List.length hs.1
    simp only [List.length_append, List.length_map, List.length_cons, hs.2] at hlen htake
    omega

theorem length_of_scanWhole {s r : List Char} {ds : List Nat} (h : scanWhole s = .ok (ds, r)) :
    r.length < s.length := by
  obtain ⟨⟨ds', r'⟩, hd, h⟩ := bind_eq_ok.1 h
  have := length_of_scanDigits hd
  split at h
  · simp at h
  · simp_all

theorem length_of_scanFraction {s r : List Char} {ds : List Nat}
    (h : scanFraction s = .ok (ds, r)) : r.length ≤ s.length := by
  unfold scanFraction at h
  split at h
  · have := length_of_scanDigits h
    simp only [List.length_cons]
    omega
  · simp_all

theorem length_of_scanExponent {s r : List Char} {e : Option (Bool × List Nat)}
    (h : scanExponent s = .ok (e, r)) : r.length ≤ s.length := by
  unfold scanExponent at h
  split at h
  · split at h
    · obtain ⟨⟨ds, r'⟩, hd, h⟩ := bind_eq_ok.1 h
      have := length_of_scanDigits hd
      simp only [pure_eq_ok, Prod.mk.injEq] at h
      rw [← h.2, List.length_cons]
      split at this <;> simp_all <;> omega
    · simp_all
  · simp_all

theorem length_of_scan {s r : List Char} {x : Numeral} (h : scan s = .ok (x, r)) :
    r.length < s.length := by
  obtain ⟨⟨whole, r₁⟩, h₁, h⟩ := bind_eq_ok.1 h
  obtain ⟨⟨fraction, r₂⟩, h₂, h⟩ := bind_eq_ok.1 h
  obtain ⟨⟨exponent, r₃⟩, h₃, h⟩ := bind_eq_ok.1 h
  have := length_of_scanWhole h₁
  have := length_of_scanFraction h₂
  have := length_of_scanExponent h₃
  simp only [pure_eq_ok, Prod.mk.injEq] at h
  rw [← h.2]
  split at * <;> simp_all <;> omega

end Numeral

/-- Takes a number off a text; one too great for a float is refused like a malformed one. -/
def Number.read (s : List Char) : Except ReadError (Number × List Char) := do
  let (x, r) ← Numeral.scan s
  match x.value with
  | some n => .ok (n, r)
  | none => .error .malformed

theorem Number.length_of_read {s r : List Char} {n : Number} (h : read s = .ok (n, r)) :
    r.length < s.length := by
  obtain ⟨⟨x, r'⟩, hx, h⟩ := bind_eq_ok.1 h
  have := Numeral.length_of_scan hx
  dsimp only at h
  split at h
  · simp_all
  · simp at h

def Number.found : Number → Found
  | .natural n => .natural n
  | .negative n => .negative n
  | .real x => .real x

def Number.toWord (wanted : String) : Number → Except ReadError UInt64
  | .natural n => .ok n
  | .negative n => .error (.mismatch (.outOfRange (.negative n) wanted))
  | .real x => .error (.mismatch (.wrongKind (.real x) wanted))

def Number.toInt (wanted : String) : Number → Except ReadError Int64
  | .natural n =>
    if n ≤ 0x7fffffffffffffff then .ok n.toInt64
    else .error (.mismatch (.outOfRange (.natural n) wanted))
  | .negative n => .ok n
  | .real x => .error (.mismatch (.wrongKind (.real x) wanted))

end TopCharts.Json
