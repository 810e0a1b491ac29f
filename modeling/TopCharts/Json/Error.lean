import TopCharts.Attempt
import TopCharts.Decimal.Layout
import TopCharts.Text.Quoted

/-!
# Why a JSON text is refused

A text is read from left to right for a value of a known form, and the first thing wrong is
reported.

* `Found` : the value that stood in the text, as a message shows it;
* `Mismatch` : a well-written part that does not fit the form;
* `ReadError` : a mismatch, or text that is not JSON (`malformed`), or that ends too early
  (`truncated`).
-/

namespace TopCharts.Json

inductive Found where
  | natural (n : UInt64)
  | negative (n : Int64)
  | real (x : Float)
  | text (s : String)
  | boolean (b : Bool)
  | null
  | sequence
  | map

/-- Floats are shown without an exponent from `0.00001` up to sixteen digits. -/
def Found.layout : Layout := ⟨-5, 15⟩

def Found.message : Found → String
  | .natural n => s!"integer `{n}`"
  | .negative n => s!"integer `{n.toInt}`"
  | .real x => s!"floating point `{layout.text x}`"
  | .text s => s!"string {Text.quoted s}"
  | .boolean b => s!"boolean `{b}`"
  | .null => "null"
  | .sequence => "sequence"
  | .map => "map"

/-- A part of the text that does not fit the form that is read. -/
inductive Mismatch where
  /-- An object without a member that has no default. -/
  | missingField (name : String)
  /-- An object with a member twice. -/
  | duplicateField (name : String)
  /-- A value of the wrong kind. -/
  | wrongKind (found : Found) (wanted : String)
  /-- A number beyond the range that is wanted. -/
  | outOfRange (found : Found) (wanted : String)
  /-- An array that ends before a field that has no default. -/
  | shortArray (length : Nat) (record : String) (fields : Nat)
  /-- A word that is none of the choices. -/
  | unknownVariant (name : String) (choices : List String)

def Mismatch.message : Mismatch → String
  | .missingField name => s!"missing field `{name}`"
  | .duplicateField name => s!"duplicate field `{name}`"
  | .wrongKind found wanted => s!"invalid type: {found.message}, expected {wanted}"
  | .outOfRange found wanted => s!"invalid value: {found.message}, expected {wanted}"
  | .shortArray length record fields =>
    s!"invalid length {length}, expected struct {record} with {fields} elements"
  | .unknownVariant name choices =>
    s!"unknown variant `{name}`, expected " ++
      " or ".intercalate (choices.map fun c => s!"`{c}`")

inductive ReadError where
  | malformed
  | truncated
  | mismatch (m : Mismatch)

def ReadError.message : ReadError → String
  | .malformed => "Syntax"
  | .truncated => "Eof"
  | .mismatch m => m.message

def isBlank (c : Char) : Bool :=
  c = ' ' || c = '\n' || c = '\t' || c = '\r'

def skipBlanks (s : List Char) : List Char :=
  s.dropWhile isBlank

theorem length_skipBlanks_le (s : List Char) : (skipBlanks s).length ≤ s.length :=
  (List.dropWhile_suffix _).length_le

/-- Takes the given word off the text. -/
def takeWord : (word s : List Char) → Except ReadError (List Char)
  | [], s => .ok s
  | _ :: _, [] => .error .truncated
  | c :: word, d :: s => if c = d then takeWord word s else .error .malformed

theorem length_of_takeWord {word s r : List Char} (h : takeWord word s = .ok r) :
    s.length = word.length + r.length := by
  induction word generalizing s with
  | nil => simp_all [takeWord]
  | cons c word ih =>
    cases s with
    | nil => simp [takeWord] at h
    | cons d s =>
      rw [takeWord] at h
      split at h
      · have := ih h
        simp only [List.length_cons]
        omega
      · simp at h

end TopCharts.Json
