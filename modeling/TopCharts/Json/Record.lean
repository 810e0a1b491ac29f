import TopCharts.Json.Format

/-!
# Records as JSON

One description of a record's fields serves to write it and to read it. A record is written as an
object with its fields in the order of their declaration. It is read from an object, whose members
may stand in any order and among unknown ones, or from an array of the fields in order. A field
with a default may be missing from an object, and from the end of an array.

* `Field`, `Fields` : the name, format and default of each field;
* `Values`, `Slots` : a value for every field, and the values met so far;
* `Fields.write`, `Fields.readMembers`, `Fields.readItems` : the members and items;
* `Record` : the fields of a type, with its conversion to their values and back;
* `Record.format`.

A field that is met twice is refused at its second name; missing fields are reported when the
object ends, the first in the order of declaration. What is wrong with a field comes before what is
wrong with the end of its record.
-/

namespace TopCharts.Json

open Attempt

/-! ## Fields -/

structure Field (α : Type) where
  name : String
  format : Format α
  default : Option α := none

/-- The fields of a record in the order of declaration. -/
inductive Fields : List Type → Type 1 where
  | nil : Fields []
  | cons {α : Type} {αs : List Type} (f : Field α) (fs : Fields αs) : Fields (α :: αs)

@[reducible] def Values : List Type → Type
  | [] => Unit
  | α :: αs => α × Values αs

@[reducible] def Slots : List Type → Type
  | [] => Unit
  | α :: αs => Option α × Slots αs

namespace Fields

def count : {αs : List Type} → Fields αs → Nat
  | _, nil => 0
  | _, cons _ fs => fs.count + 1

def noSlots : {αs : List Type} → Fields αs → Slots αs
  | _, nil => ()
  | _, cons _ fs => (none, fs.noSlots)

def write : {αs : List Type} → Fields αs → Values αs → List (String × List Char)
  | _, nil, () => []
  | _, cons f fs, (a, as) => (f.name, f.format.write a) :: fs.write as

/-! ## Objects -/

/-- Takes the colon and the value of the member `name` off a text. -/
def readMember : {αs : List Type} → Fields αs → (name : String) → Slots αs → List Char →
    Except ReadError (Slots αs × List Char)
  | _, nil, _, (), s => do return ((), ← skipValue (← takeColon s))
  | _, cons f fs, name, (slot, slots), s =>
    if f.name = name then
      match slot with
      | some _ => .error (.mismatch (.duplicateField name))
      | none => do
        let (a, r) ← f.format.reader.run (← takeColon s)
        return ((some a, slots), r)
    else do
      let (slots, r) ← fs.readMember name slots s
      return ((slot, slots), r)

/-- Takes the name of a member off a text. -/
def nextName : List Char → Except ReadError (Option String × List Char)
  | '"' :: r => do
    let (name, r) ← readText r
    return (some name, r)
  | _ :: _ => .error .malformed
  | [] => .error .truncated

/-- Takes the name of the next member off a text, or the brace that ends the object. -/
def nextMember (first : Bool) (s : List Char) : Except ReadError (Option String × List Char) :=
  match skipBlanks s with
  | [] => .error .truncated
  | '}' :: r => .ok (none, r)
  | c :: r =>
    if first then nextName (c :: r)
    else if c = ',' then nextName (skipBlanks r)
    else .error .malformed

/-- The value of every field, once the object has ended. -/
def complete : {αs : List Type} → Fields αs → Slots αs → Except ReadError (Values αs)
  | _, nil, () => .ok ()
  | _, cons f fs, (slot, slots) => do
    match slot <|> f.default with
    | some a => return (a, ← fs.complete slots)
    | none => .error (.mismatch (.missingField f.name))

/-! ## Arrays -/

/-- Finds the next item of an array; there is none at the bracket that ends it. -/
def nextItem (first : Bool) (s : List Char) : Except ReadError (Option (List Char)) :=
  match skipBlanks s with
  | [] => .error .truncated
  | ']' :: _ => .ok none
  | c :: r =>
    if first then .ok (some (c :: r))
    else if c = ',' then
      match skipBlanks r with
      | [] => .error .truncated
      | ']' :: _ => .error .malformed
      | r => .ok (some r)
    else .error .malformed

/-- Takes the items of an array, after its opening bracket, off a text. `index` fields have been
read before, of the record that a message calls `record`. -/
def readItems (record : String) (total : Nat) : {αs : List Type} → Fields αs → (index : Nat) →
    (first : Bool) → List Char → Except ReadError (Values αs × List Char)
  | _, nil, _, _, s => .ok ((), s)
  | _, cons f fs, index, first, s => do
    match ← nextItem first s with
    | some r =>
      let (a, r) ← f.format.reader.run r
      let (as, r) ← fs.readItems record total (index + 1) false r
      return ((a, as), r)
    | none =>
      match f.default with
      | some a =>
        let (as, r) ← fs.readItems record total (index + 1) first s
        return ((a, as), r)
      | none => .error (.mismatch (.shortArray index record total))

def takeBracket (s : List Char) : Except ReadError (List Char) :=
  match skipBlanks s with
  | [] => .error .truncated
  | ']' :: r => .ok r
  | _ :: _ => .error .malformed

/-! ## Lengths -/

variable {αs : List Type}

theorem length_of_readMember {fs : Fields αs} {name : String} {slots slots' : Slots αs}
    {s r : List Char} (h : fs.readMember name slots s = .ok (slots', r)) :
    r.length < s.length := by
  induction fs generalizing r with
  | nil =>
    obtain ⟨t, ht, h⟩ := bind_eq_ok.1 h
    obtain ⟨u, hu, h⟩ := bind_eq_ok.1 h
    simp only [pure_eq_ok, Prod.mk.injEq] at h
    have := length_of_takeColon ht
    have := length_of_skipValue hu
    rw [← h.2]
    omega
  | cons f fs ih =>
    obtain ⟨slot, slots⟩ := slots
    unfold readMember at h
    split at h
    · cases slot with
      | some b => simp at h
      | none =>
        obtain ⟨t, ht, h⟩ := bind_eq_ok.1 h
        obtain ⟨⟨a, u⟩, hu, h⟩ := bind_eq_ok.1 h
        simp only [pure_eq_ok, Prod.mk.injEq] at h
        have := length_of_takeColon ht
        have := f.format.reader.shrinks hu
        rw [← h.2]
        omega
    · obtain ⟨⟨slots'', t⟩, ht, h⟩ := bind_eq_ok.1 h
      simp only [pure_eq_ok, Prod.mk.injEq] at h
      rw [← h.2]
      exact ih ht

theorem length_of_nextName {s r : List Char} {name : Option String}
    (h : nextName s = .ok (name, r)) : r.length < s.length := by
  unfold nextName at h
  split at h
  · obtain ⟨⟨t, u⟩, ht, h⟩ := bind_eq_ok.1 h
    simp only [pure_eq_ok, Prod.mk.injEq] at h
    rw [← h.2, List.length_cons]
    exact Nat.lt_succ_of_lt (length_of_readText ht)
  · simp at h
  · simp at h

theorem length_of_nextMember {first : Bool} {s r : List Char} {name : Option String}
    (h : nextMember first s = .ok (name, r)) : r.length < s.length := by
  have hs := length_skipBlanks_le s
  unfold nextMember at h
  split at h
  · simp at h
  · grind
  · rename_i c t _ hb
    rw [hb] at hs
    split at h
    · exact Nat.lt_of_lt_of_le (length_of_nextName h) hs
    · split at h
      · have := length_of_nextName h
        have := length_skipBlanks_le t
        simp only [List.length_cons] at hs
        omega
      · simp at h

theorem length_of_nextItem {first : Bool} {s r : List Char}
    (h : nextItem first s = .ok (some r)) : r.length ≤ s.length := by
  have hs := length_skipBlanks_le s
  unfold nextItem at h
  split at h
  · simp at h
  · simp at h
  · rename_i c t _ hb
    rw [hb] at hs
    split at h
    · simp only [Except.ok.injEq, Option.some.injEq] at h
      exact h ▸ hs
    · split at h
      · have ht := length_skipBlanks_le t
        simp only [List.length_cons] at hs
        split at h
        · simp at h
        · simp at h
        · simp only [Except.ok.injEq, Option.some.injEq] at h
          rw [← h]
          omega
      · simp at h

theorem length_of_readItems {record : String} {total index : Nat} {first : Bool} {fs : Fields αs}
    {as : Values αs} {s r : List Char} (h : fs.readItems record total index first s = .ok (as, r)) :
    r.length ≤ s.length := by
  induction fs generalizing index first s r with
  | nil =>
    simp only [readItems, Except.ok.injEq, Prod.mk.injEq] at h
    exact Nat.le_of_eq (congrArg List.length h.2.symm)
  | cons f fs ih =>
    obtain ⟨next, hn, h⟩ := bind_eq_ok.1 h
    cases next with
    | some t =>
      obtain ⟨⟨a, u⟩, hu, h⟩ := bind_eq_ok.1 h
      obtain ⟨⟨as', v⟩, hv, h⟩ := bind_eq_ok.1 h
      simp only [pure_eq_ok, Prod.mk.injEq] at h
      have := length_of_nextItem hn
      have := f.format.reader.shrinks hu
      have : v.length ≤ u.length := ih hv
      rw [← h.2]
      omega
    | none =>
      dsimp only at h
      split at h
      · obtain ⟨⟨as', v⟩, hv, h⟩ := bind_eq_ok.1 h
        simp only [pure_eq_ok, Prod.mk.injEq] at h
        rw [← h.2]
        exact ih hv
      · simp at h

theorem length_of_takeBracket {s r : List Char} (h : takeBracket s = .ok r) :
    r.length < s.length := by
  have hs := length_skipBlanks_le s
  unfold takeBracket at h
  split at h
  · simp at h
  · grind
  · simp at h

/-! ## Members -/

/-- Takes the members of an object, after its opening brace, off a text, with the brace that ends
it. -/
def readMembers (fs : Fields αs) (first : Bool) (slots : Slots αs) (s : List Char) :
    Except ReadError (Slots αs × List Char) :=
  match hn : nextMember first s with
  | .error e => .error e
  | .ok (none, r) => .ok (slots, r)
  | .ok (some name, r) =>
    match hm : fs.readMember name slots r with
    | .error e => .error e
    | .ok (slots, t) =>
      have := Nat.lt_trans (length_of_readMember hm) (length_of_nextMember hn)
      fs.readMembers false slots t
termination_by s.length

theorem length_of_readMembers {fs : Fields αs} {first : Bool} {slots slots' : Slots αs}
    {s r : List Char} (h : fs.readMembers first slots s = .ok (slots', r)) :
    r.length < s.length := by
  fun_induction readMembers fs first slots s with
  | case1 => simp at h
  | case2 first slots s t hn =>
    simp only [Except.ok.injEq, Prod.mk.injEq] at h
    exact h.2 ▸ length_of_nextMember hn
  | case3 => simp at h
  | case4 first slots s name t hn slots'' u hm this ih => exact Nat.lt_trans (ih h) this

end Fields

/-! ## Records -/

structure Record (α : Type) where
  /-- What a message calls the type. -/
  name : String
  types : List Type
  fields : Fields types
  toValues : α → Values types
  ofValues : Values types → α
  ofValues_toValues : ∀ a, ofValues (toValues a) = a := by intro a; rfl

namespace Record

variable {α : Type}

def reader (d : Record α) : Reader α where
  run s :=
    match skipBlanks s with
    | [] => .error .truncated
    | '{' :: r => do
      let (slots, r) ← d.fields.readMembers true d.fields.noSlots r
      return (d.ofValues (← d.fields.complete slots), r)
    | '[' :: r => do
      let (values, r) ← d.fields.readItems d.name d.fields.count 0 true r
      return (d.ofValues values, ← Fields.takeBracket r)
    | r => .error (wrongKind s!"struct {d.name}" r)
  shrinks {s r a} h := by
    have hs := length_skipBlanks_le s
    split at h
    · simp at h
    · rename_i hb
      rw [hb, List.length_cons] at hs
      obtain ⟨⟨slots, t⟩, ht, h⟩ := bind_eq_ok.1 h
      obtain ⟨values, _, h⟩ := bind_eq_ok.1 h
      simp only [pure_eq_ok, Prod.mk.injEq] at h
      have := Fields.length_of_readMembers ht
      rw [← h.2]
      omega
    · rename_i hb
      rw [hb, List.length_cons] at hs
      obtain ⟨⟨values, t⟩, ht, h⟩ := bind_eq_ok.1 h
      obtain ⟨u, hu, h⟩ := bind_eq_ok.1 h
      simp only [pure_eq_ok, Prod.mk.injEq] at h
      have := Fields.length_of_readItems ht
      have : u.length < t.length := Fields.length_of_takeBracket hu
      rw [← h.2]
      omega
    · simp at h

def format (d : Record α) : Format α where
  write a := writeObject (d.fields.write (d.toValues a))
  reader := d.reader

end Record

end TopCharts.Json
