import TopCharts.Json.Error

/-!
# Strings in a JSON text

* `writeText` : a string as a JSON string. The quote, the backslash and the control characters are
  escaped, all others stand for themselves;
* `readText` : takes the rest of a JSON string, after its opening quote, off a text. Every escape
  of the grammar is understood, and a pair of surrogate escapes is one character;
* `skipText` : passes over the rest of a JSON string. Surrogates need not come in pairs there.
-/

namespace TopCharts.Json

open Attempt

/-! ## Writing -/

/-- One character inside a JSON string. -/
def writeChar (c : Char) : List Char :=
  match c with
  | '"' => ['\\', '"']
  | '\\' => ['\\', '\\']
  | '\x08' => ['\\', 'b']
  | '\t' => ['\\', 't']
  | '\n' => ['\\', 'n']
  | '\x0c' => ['\\', 'f']
  | '\r' => ['\\', 'r']
  | c =>
    if c.toNat < 0x20 then
      ['\\', 'u', '0', '0', Nat.digitChar (c.toNat / 16), Nat.digitChar (c.toNat % 16)]
    else [c]

def writeText (s : String) : List Char :=
  '"' :: s.toList.flatMap writeChar ++ ['"']

/-! ## Escapes -/

def hexValue (c : Char) : Option Nat :=
  if '0' ≤ c && c ≤ '9' then some (c.toNat - 48)
  else if 'a' ≤ c && c ≤ 'f' then some (c.toNat - 87)
  else if 'A' ≤ c && c ≤ 'F' then some (c.toNat - 55)
  else none

/-- Takes four hexadecimal digits off a text. A text of fewer than four bytes ends too early. -/
def readQuad (s : List Char) : Except ReadError (Nat × List Char) :=
  match s with
  | a :: b :: c :: d :: r =>
    match hexValue a, hexValue b, hexValue c, hexValue d with
    | some a, some b, some c, some d => .ok (((a * 16 + b) * 16 + c) * 16 + d, r)
    | _, _, _, _ => .error .malformed
  | s => .error (if (String.ofList s).utf8ByteSize < 4 then .truncated else .malformed)

/-- Whether a code unit is the first of a surrogate pair. -/
def isHighSurrogate (n : Nat) : Bool :=
  0xd800 ≤ n && n < 0xdc00

def isLowSurrogate (n : Nat) : Bool :=
  0xdc00 ≤ n && n < 0xe000

/-- Takes the digits of a code point escape off a text, and with the first of a surrogate pair
also the escape of the second. -/
def readCodePoint (s : List Char) : Except ReadError (Char × List Char) := do
  let (n, r) ← readQuad s
  if isLowSurrogate n then .error .malformed
  else if isHighSurrogate n then
    match r with
    | [] | ['\\'] => .error .truncated
    | '\\' :: 'u' :: r => do
      let (m, r) ← readQuad r
      if isLowSurrogate m then
        return (Char.ofNat (0x10000 + (n - 0xd800) * 0x400 + (m - 0xdc00)), r)
      else .error .malformed
    | _ => .error .malformed
  else return (Char.ofNat n, r)

def escaped : Char → Option Char
  | '"' => some '"'
  | '\\' => some '\\'
  | '/' => some '/'
  | 'b' => some '\x08'
  | 'f' => some '\x0c'
  | 'n' => some '\n'
  | 'r' => some '\r'
  | 't' => some '\t'
  | _ => none

/-- Takes an escape, after its backslash, off a text. -/
def readEscape : List Char → Except ReadError (Char × List Char)
  | [] => .error .truncated
  | c :: r =>
    if c = 'u' then readCodePoint r
    else match escaped c with
      | some d => .ok (d, r)
      | none => .error .malformed

def skipEscape : List Char → Except ReadError (List Char)
  | [] => .error .truncated
  | c :: r =>
    if c = 'u' then (readQuad r).map Prod.snd
    else if (escaped c).isSome then .ok r
    else .error .malformed

theorem length_of_readQuad {s r : List Char} {n : Nat} (h : readQuad s = .ok (n, r)) :
    s.length = r.length + 4 := by
  unfold readQuad at h
  split at h
  · split at h <;> simp_all
  · simp at h

theorem length_of_readCodePoint {s r : List Char} {c : Char} (h : readCodePoint s = .ok (c, r)) :
    r.length < s.length := by
  obtain ⟨⟨n, r'⟩, hq, h⟩ := bind_eq_ok.1 h
  have hn := length_of_readQuad hq
  dsimp only at h
  split at h
  · simp at h
  · split at h
    · split at h
      · simp at h
      · simp at h
      · obtain ⟨⟨m, r''⟩, hq', h⟩ := bind_eq_ok.1 h
        have hm := length_of_readQuad hq'
        simp only [List.length_cons] at hn
        split at h
        · simp only [pure_eq_ok, Prod.mk.injEq] at h
          rw [← h.2]
          omega
        · simp at h
      · simp at h
    · simp only [pure_eq_ok, Prod.mk.injEq] at h
      rw [← h.2]
      omega

theorem length_of_readEscape {s r : List Char} {c : Char} (h : readEscape s = .ok (c, r)) :
    r.length < s.length := by
  unfold readEscape at h
  split at h
  · simp at h
  · split at h
    · have := length_of_readCodePoint h
      simp only [List.length_cons]
      omega
    · split at h <;> simp_all

theorem length_of_skipEscape {s r : List Char} (h : skipEscape s = .ok r) :
    r.length < s.length := by
  unfold skipEscape at h
  split at h
  · simp at h
  · split at h
    · rename_i c t hc
      cases hq : readQuad t with
      | error e => simp [hq, Except.map] at h
      | ok p =>
        have := length_of_readQuad hq
        simp only [hq, Except.map, Except.ok.injEq] at h
        simp only [List.length_cons, ← h]
        omega
    · split at h <;> simp_all

/-! ## Strings -/

/-- Takes the rest of a JSON string, after its opening quote, off a text. -/
def readText (s : List Char) : Except ReadError (String × List Char) :=
  go [] s
where
  /-- The characters read so far are kept from right to left. -/
  go (done : List Char) (s : List Char) : Except ReadError (String × List Char) :=
    match s with
    | [] => .error .truncated
    | '"' :: r => .ok (String.ofList done.reverse, r)
    | '\\' :: r =>
      match h : readEscape r with
      | .ok (c, t) =>
        have := length_of_readEscape h
        go (c :: done) t
      | .error e => .error e
    | c :: r => if c.toNat < 0x20 then .error .malformed else go (c :: done) r
  termination_by s.length

/-- Passes over the rest of a JSON string, after its opening quote. -/
def skipText (s : List Char) : Except ReadError (List Char) :=
  match s with
  | [] => .error .truncated
  | '"' :: r => .ok r
  | '\\' :: r =>
    match h : skipEscape r with
    | .ok t =>
      have := length_of_skipEscape h
      skipText t
    | .error e => .error e
  | c :: r => if c.toNat < 0x20 then .error .malformed else skipText r
termination_by s.length

theorem length_of_readText_go {done s r : List Char} {t : String}
    (h : readText.go done s = .ok (t, r)) : r.length < s.length := by
  fun_induction readText.go done s with
  | case1 => simp at h
  | case2 done r' => simp_all
  | case3 done r' c t' he this ih =>
    have := ih h
    simp only [List.length_cons]
    omega
  | case4 => simp at h
  | case5 => simp at h
  | case6 done c r' _ _ _ ih =>
    have := ih h
    simp only [List.length_cons]
    omega

theorem length_of_readText {s r : List Char} {t : String} (h : readText s = .ok (t, r)) :
    r.length < s.length :=
  length_of_readText_go h

theorem length_of_skipText {s r : List Char} (h : skipText s = .ok r) :
    r.length < s.length := by
  fun_induction skipText s with
  | case1 => simp at h
  | case2 r' => simp_all
  | case3 r' t he this ih =>
    have := ih h
    simp only [List.length_cons]
    omega
  | case4 => simp at h
  | case5 => simp at h
  | case6 c r' _ _ _ ih =>
    have := ih h
    simp only [List.length_cons]
    omega

end TopCharts.Json
