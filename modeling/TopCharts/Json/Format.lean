import TopCharts.Json.Skip

/-!
# Forms of JSON values

* `Reader` : takes a value of a known form off a text; what is left is always shorter;
* `Format` : how the values of a type are written, and a reader for them;
* `Format.text`, `Format.parse` : a whole text for a value and back. Blanks may surround a value,
  nothing else may follow it;
* `Format.int`, `Format.word`, `Format.string` : numbers and strings;
* `Format.choice` : one of a few named values, written as its name; it is also read from an object
  with the name as its only member, with the value `null`.

A reader that meets a value of another kind names it; strings and numbers are read in full first,
so that what is wrong inside them is reported instead.
-/

namespace TopCharts.Json

open Attempt

structure Reader (α : Type) where
  run : List Char → Except ReadError (α × List Char)
  shrinks : ∀ {s r a}, run s = .ok (a, r) → r.length < s.length

/-- How values are written and read. -/
structure Format (α : Type) where
  write : α → List Char
  reader : Reader α

/-! ## Whole texts -/

def Format.text {α : Type} (f : Format α) (a : α) : String :=
  String.ofList (f.write a)

def Format.parse {α : Type} (f : Format α) (s : List Char) : Except ReadError α := do
  let (a, r) ← f.reader.run s
  if (skipBlanks r).isEmpty then return a else .error .malformed

def writeArray (items : List (List Char)) : List Char :=
  '[' :: [','].intercalate items ++ [']']

def writeObject (members : List (String × List Char)) : List Char :=
  '\x7b' :: [','].intercalate (members.map fun (name, value) => writeText name ++ ':' :: value)
    ++ ['\x7d']

/-- A value that may be absent. -/
def writeOption {α : Type} (write : α → List Char) : Option α → List Char
  | some a => write a
  | none => ['n', 'u', 'l', 'l']

/-! ## The value in place of another -/

/-- Why a value that starts `s` is refused where another kind is wanted. -/
def wrongKind (wanted : String) (s : List Char) : ReadError :=
  let found (x : Found) : ReadError := .mismatch (.wrongKind x wanted)
  let word (letters r : List Char) (x : Found) : ReadError :=
    match takeWord letters r with
    | .ok _ => found x
    | .error e => e
  match s with
  | 'n' :: r => word ['u', 'l', 'l'] r .null
  | 't' :: r => word ['r', 'u', 'e'] r (.boolean true)
  | 'f' :: r => word ['a', 'l', 's', 'e'] r (.boolean false)
  | '[' :: _ => found .sequence
  | '{' :: _ => found .map
  | '"' :: r =>
    match readText r with
    | .ok (t, _) => found (.text t)
    | .error e => e
  | c :: _ =>
    if c = '-' || c.isDigit then
      match Number.read s with
      | .ok (n, _) => found n.found
      | .error e => e
    else .malformed
  | [] => .truncated

/-! ## Numbers -/

/-- Takes a number off a text and converts it. -/
def Reader.number {α : Type} (wanted : String) (convert : Number → Except ReadError α) :
    Reader α where
  run s :=
    match skipBlanks s with
    | [] => .error .truncated
    | c :: r =>
      if c = '-' || c.isDigit then do
        let (n, t) ← Number.read (c :: r)
        return (← convert n, t)
      else .error (wrongKind wanted (c :: r))
  shrinks {s r a} h := by
    have hs := length_skipBlanks_le s
    split at h
    · simp at h
    · rename_i hb
      rw [hb] at hs
      split at h
      · obtain ⟨⟨n, t⟩, hn, h⟩ := bind_eq_ok.1 h
        obtain ⟨b, hb, h⟩ := bind_eq_ok.1 h
        simp only [pure_eq_ok, Prod.mk.injEq] at h
        rw [← h.2]
        exact Nat.lt_of_lt_of_le (Number.length_of_read hn) hs
      · simp at h

def Format.int : Format Int64 where
  write n := (toString n.toInt).toList
  reader := .number "i64" (Number.toInt "i64")

/-- Unsigned words; `wanted` is what a message calls them. -/
def Format.word (wanted : String) : Format UInt64 where
  write n := (toString n.toNat).toList
  reader := .number wanted (Number.toWord wanted)

/-! ## Strings -/

def Reader.string : Reader String where
  run s :=
    match skipBlanks s with
    | [] => .error .truncated
    | '"' :: r => readText r
    | r => .error (wrongKind "a string" r)
  shrinks {s r a} h := by
    have hs := length_skipBlanks_le s
    split at h
    · simp at h
    · rename_i hb
      rw [hb, List.length_cons] at hs
      have := length_of_readText h
      omega
    · simp at h

def Format.string : Format String where
  write := writeText
  reader := .string

/-! ## Choices -/

def takeNull (s : List Char) : Except ReadError (List Char) :=
  match skipBlanks s with
  | [] => .error .truncated
  | 'n' :: r => takeWord ['u', 'l', 'l'] r
  | r => .error (wrongKind "unit" r)

def takeQuote (s : List Char) : Except ReadError (List Char) :=
  match skipBlanks s with
  | [] => .error .truncated
  | '"' :: r => .ok r
  | _ :: _ => .error .malformed

def takeBrace (s : List Char) : Except ReadError (List Char) :=
  match skipBlanks s with
  | [] => .error .truncated
  | '}' :: r => .ok r
  | _ :: _ => .error .malformed

/-- The value of a name. -/
def chosen {α : Type} (choices : List (String × α)) (name : String) : Except ReadError α :=
  match choices.lookup name with
  | some a => .ok a
  | none => .error (.mismatch (.unknownVariant name (choices.map Prod.fst)))

theorem length_of_takeNull {s r : List Char} (h : takeNull s = .ok r) : r.length < s.length := by
  have hs := length_skipBlanks_le s
  unfold takeNull at h
  split at h
  · simp at h
  · rename_i hb
    rw [hb, List.length_cons] at hs
    have := length_of_takeWord h
    omega
  · simp at h

theorem length_of_takeQuote {s r : List Char} (h : takeQuote s = .ok r) : r.length < s.length := by
  have hs := length_skipBlanks_le s
  unfold takeQuote at h
  split at h
  · simp at h
  · rename_i hb
    rw [hb, List.length_cons] at hs
    simp only [Except.ok.injEq] at h
    rw [← h]
    omega
  · simp at h

theorem length_of_takeBrace {s r : List Char} (h : takeBrace s = .ok r) : r.length < s.length := by
  have hs := length_skipBlanks_le s
  unfold takeBrace at h
  split at h
  · simp at h
  · rename_i hb
    rw [hb, List.length_cons] at hs
    simp only [Except.ok.injEq] at h
    rw [← h]
    omega
  · simp at h

/-- Takes one of a few named values off a text. -/
def Reader.choice {α : Type} (choices : List (String × α)) : Reader α where
  run s :=
    match skipBlanks s with
    | [] => .error .truncated
    | '"' :: r => do
      let (name, r) ← readText r
      return (← chosen choices name, r)
    | '{' :: r => do
      let (name, r) ← readText (← takeQuote r)
      let a ← chosen choices name
      return (a, ← takeBrace (← takeNull (← takeColon r)))
    | _ :: _ => .error .malformed
  shrinks {s r a} h := by
    have hs := length_skipBlanks_le s
    split at h
    · simp at h
    · rename_i hb
      rw [hb, List.length_cons] at hs
      obtain ⟨⟨name, t⟩, ht, h⟩ := bind_eq_ok.1 h
      obtain ⟨b, _, h⟩ := bind_eq_ok.1 h
      simp only [pure_eq_ok, Prod.mk.injEq] at h
      have := length_of_readText ht
      rw [← h.2]
      omega
    · rename_i hb
      rw [hb, List.length_cons] at hs
      obtain ⟨q, hq, h⟩ := bind_eq_ok.1 h
      obtain ⟨⟨name, t⟩, ht, h⟩ := bind_eq_ok.1 h
      obtain ⟨b, _, h⟩ := bind_eq_ok.1 h
      obtain ⟨u, hu, h⟩ := bind_eq_ok.1 h
      obtain ⟨v, hv, h⟩ := bind_eq_ok.1 h
      obtain ⟨w, hw, h⟩ := bind_eq_ok.1 h
      simp only [pure_eq_ok, Prod.mk.injEq] at h
      have : q.length < _ := length_of_takeQuote hq
      have : t.length < q.length := length_of_readText ht
      have : u.length < t.length := length_of_takeColon hu
      have : v.length < u.length := length_of_takeNull hv
      have : w.length < v.length := length_of_takeBrace hw
      rw [← h.2]
      omega
    · simp at h

/-- One of a few named values, written as its name. -/
def Format.choice {α : Type} (choices : List (String × α)) (name : α → String) : Format α where
  write a := writeText (name a)
  reader := .choice choices

end TopCharts.Json
