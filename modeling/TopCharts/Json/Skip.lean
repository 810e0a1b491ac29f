import TopCharts.Json.Number
import TopCharts.Json.Text

/-!
# Passing over a JSON value

The value of a member that nobody asked for is checked for its grammar and nothing else: its
numbers may have any size and its strings lone surrogates. Brackets may be nested to any depth; the
ones that are open are kept in a list, the innermost first.

* `skipScalar` passes over a value that is no array and no object;
* `Skip.Due` : what is due next, inside the open brackets; `Skip.step` passes over one thing and
  says what is due then, `Skip.run` goes on until nothing is;
* `skipValue` passes over a value.
-/

namespace TopCharts.Json

open Attempt

inductive Bracket where
  | square
  | curly
  deriving DecidableEq, Repr

def Bracket.closing : Bracket → Char
  | .square => ']'
  | .curly => '}'

/-- Passes over a word, a number or a string. All that is wrong with a number is malformed. -/
def skipScalar : List Char → Except ReadError (List Char)
  | 'n' :: r => takeWord ['u', 'l', 'l'] r
  | 't' :: r => takeWord ['r', 'u', 'e'] r
  | 'f' :: r => takeWord ['a', 'l', 's', 'e'] r
  | '"' :: r => skipText r
  | c :: r =>
    if c = '-' || c.isDigit then
      match Numeral.scan (c :: r) with
      | .ok (_, t) => .ok t
      | .error _ => .error .malformed
    else .error .malformed
  | [] => .error .truncated

def takeColon (s : List Char) : Except ReadError (List Char) :=
  match skipBlanks s with
  | ':' :: r => .ok r
  | _ :: _ => .error .malformed
  | [] => .error .truncated

/-- Passes over a member's name and the colon after it. -/
def skipKey (s : List Char) : Except ReadError (List Char) :=
  match skipBlanks s with
  | '"' :: r => do takeColon (← skipText r)
  | _ :: _ => .error .malformed
  | [] => .error .truncated

theorem length_of_skipScalar {s r : List Char} (h : skipScalar s = .ok r) :
    r.length < s.length := by
  unfold skipScalar at h
  split at h
  · have := length_of_takeWord h
    grind
  · have := length_of_takeWord h
    grind
  · have := length_of_takeWord h
    grind
  · have := length_of_skipText h
    simp only [List.length_cons]
    omega
  · split at h
    · split at h
      · rename_i hs
        have := Numeral.length_of_scan hs
        simp_all
      · simp at h
    · simp at h
  · simp at h

theorem length_of_takeColon {s r : List Char} (h : takeColon s = .ok r) :
    r.length < s.length := by
  have := length_skipBlanks_le s
  unfold takeColon at h
  split at h
  · grind
  · simp at h
  · simp at h

theorem length_of_skipKey {s r : List Char} (h : skipKey s = .ok r) : r.length < s.length := by
  have := length_skipBlanks_le s
  unfold skipKey at h
  split at h
  · obtain ⟨t, ht, h⟩ := bind_eq_ok.1 h
    have := length_of_skipText ht
    have := length_of_takeColon h
    grind
  · simp at h
  · simp at h

namespace Skip

/-- What a thing in a bracket starts with. -/
inductive Part where
  | value
  /-- The name of a member with its colon, before a value. -/
  | name
  deriving DecidableEq, Repr

inductive Due where
  | part (p : Part)
  /-- The first thing in a bracket, or its end. -/
  | first (b : Bracket)
  /-- A comma and another thing in a bracket, or its end. -/
  | more (b : Bracket)
  deriving DecidableEq, Repr

/-- What the things in a bracket start with. -/
def content : Bracket → Part
  | .square => .value
  | .curly => .name

/-- What is due after a value inside the given brackets; nothing after one that stands alone. -/
def next? : List Bracket → Option (Due × List Bracket)
  | [] => none
  | b :: outer => some (.more b, outer)

/-- Passes over an opening bracket or a scalar, or over a name and its colon. -/
def start (p : Part) (stack : List Bracket) (s : List Char) :
    Except ReadError (Option (Due × List Bracket) × List Char) :=
  match p with
  | .name => do return (some (.part .value, stack), ← skipKey s)
  | .value =>
    match skipBlanks s with
    | '[' :: r => .ok (some (.first .square, stack), r)
    | '{' :: r => .ok (some (.first .curly, stack), r)
    | r => do return (next? stack, ← skipScalar r)

/-- Passes over one thing. `stack` holds the open brackets, apart from one that `due` names. -/
def step (due : Due) (stack : List Bracket) (s : List Char) :
    Except ReadError (Option (Due × List Bracket) × List Char) :=
  match due with
  | .part p => start p stack s
  | .first b =>
    match skipBlanks s with
    | [] => .error .truncated
    | c :: r => if c = b.closing then .ok (next? stack, r) else start (content b) (b :: stack) s
  | .more b =>
    match skipBlanks s with
    | [] => .error .truncated
    | c :: r =>
      if c = b.closing then .ok (next? stack, r)
      else if c = ',' then .ok (some (.part (content b), b :: stack), r)
      else .error .malformed

theorem length_of_start {p : Part} {stack : List Bracket} {s r : List Char}
    {next : Option (Due × List Bracket)} (h : start p stack s = .ok (next, r)) :
    r.length < s.length := by
  have hs := length_skipBlanks_le s
  unfold start at h
  split at h
  · obtain ⟨t, ht, h⟩ := bind_eq_ok.1 h
    simp only [pure_eq_ok, Prod.mk.injEq] at h
    exact h.2 ▸ length_of_skipKey ht
  · split at h
    · grind
    · grind
    · obtain ⟨t, ht, h⟩ := bind_eq_ok.1 h
      simp only [pure_eq_ok, Prod.mk.injEq] at h
      exact h.2 ▸ Nat.lt_of_lt_of_le (length_of_skipScalar ht) hs

theorem length_of_step {due : Due} {stack : List Bracket} {s r : List Char}
    {next : Option (Due × List Bracket)} (h : step due stack s = .ok (next, r)) :
    r.length < s.length := by
  have hs := length_skipBlanks_le s
  unfold step at h
  split at h
  · exact length_of_start h
  · split at h
    · simp at h
    · split at h
      · grind
      · exact length_of_start h
  · split at h
    · simp at h
    · split at h
      · grind
      · split at h
        · grind
        · simp at h

/-- Goes on until nothing is due. -/
def run (due : Due) (stack : List Bracket) (s : List Char) : Except ReadError (List Char) :=
  match h : step due stack s with
  | .ok (some (due, stack), r) =>
    have := length_of_step h
    run due stack r
  | .ok (none, r) => .ok r
  | .error e => .error e
termination_by s.length

theorem length_of_run {due : Due} {stack : List Bracket} {s r : List Char}
    (h : run due stack s = .ok r) : r.length < s.length := by
  fun_induction run due stack s with
  | case1 due stack s due' stack' t ht this ih => exact Nat.lt_trans (ih h) this
  | case2 due stack s t ht =>
    simp only [Except.ok.injEq] at h
    exact h ▸ length_of_step ht
  | case3 => simp at h

end Skip

def skipValue (s : List Char) : Except ReadError (List Char) :=
  Skip.run (.part .value) [] s

theorem length_of_skipValue {s r : List Char} (h : skipValue s = .ok r) : r.length < s.length :=
  Skip.length_of_run h

end TopCharts.Json
