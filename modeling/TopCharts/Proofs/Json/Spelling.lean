import TopCharts.Proofs.Json.Grammar

/-!
# How numbers, strings and choices may be spelled

A value may be spelled in several ways, of which one is written. All are read as the value.

* `Spelling` : the texts of each value; `Padded` : a text between blanks;
* `Format.Takes f s a` : the text `s` is read as `a`, with the blanks before it and whatever follows
  that cannot belong to a number. `Format.Accepts f spells` : so is every spelling of every value;
* `Written` : numbers have one spelling only, the written one;
* `SpellsText` : the characters of a string stand for themselves, or are escaped by a letter, by the
  digits of their code point, or by those of a surrogate pair;
* `SpellsChoice` : a choice is its name, or an object with the name as its only member;
* `accepts_int`, `accepts_word`, `accepts_string`, `accepts_choice`.
-/

namespace TopCharts.Json

open Attempt

variable {α : Type}

def Spelling (α : Type) : Type :=
  α → List Char → Prop

def Padded (p : List Char → Prop) (s : List Char) : Prop :=
  ∃ w t w', Blanks w ∧ p t ∧ Blanks w' ∧ s = w ++ t ++ w'

structure Format.Takes (f : Format α) (s : List Char) (a : α) : Prop where
  starts : Starts s
  run_append : ∀ {w r}, Blanks w → Ends r → f.reader.run (w ++ s ++ r) = .ok (a, r)

def Format.Accepts (f : Format α) (spells : Spelling α) : Prop :=
  ∀ {a s}, spells a s → f.Takes s a

theorem Blanks.ends {w : List Char} (hw : Blanks w) : Ends w := by
  have hends := ends_nil.append_blanks hw
  rwa [List.append_nil] at hends

/-- A text that is read as a value has it, between blanks. -/
theorem Format.Takes.parse {f : Format α} {s : List Char} {a : α} (h : f.Takes s a)
    {w w' : List Char} (hw : Blanks w) (hw' : Blanks w') : f.parse (w ++ s ++ w') = .ok a := by
  have hrest : skipBlanks w' = [] := by
    rw [← List.append_nil w', skipBlanks_append hw']
    rfl
  rw [Format.parse, h.run_append hw hw'.ends]
  dsimp only [bind, Except.bind]
  rw [hrest]
  rfl

theorem Format.parse_of_error {f : Format α} {s : List Char} {e : ReadError}
    (h : f.reader.run s = .error e) : f.parse s = .error e := by
  rw [Format.parse, h]
  rfl

/-! ## Numbers -/

/-- The one spelling of a value that is written. -/
def Written (f : Format α) : Spelling α :=
  fun a s => s = f.write a

section Numbers

variable {wanted : String} {convert : Number → Except ReadError α}

theorem Reader.run_number_append {w : List Char} (hw : Blanks w) (s : List Char) :
    (Reader.number wanted convert).run (w ++ s) = (Reader.number wanted convert).run s := by
  rw [Reader.number]
  dsimp only
  rw [skipBlanks_append hw]

theorem starts_of_signed {s : List Char} (hs : Signed s) (hne : s ≠ []) : Starts s := by
  obtain ⟨c, t, rfl⟩ := List.exists_cons_of_ne_nil hne
  have hc := hs.head
  exact ⟨c, t, rfl, isBlank_of_isDigit hc, by rintro rfl; revert hc; decide⟩

end Numbers

theorem Format.accepts_word (wanted : String) :
    (Format.word wanted).Accepts (Written (.word wanted)) := by
  rintro n s rfl
  refine ⟨?_, fun {w r} hw hr => ?_⟩
  · rw [Format.write_word]
    exact starts_of_signed (signed_toDigits _) Nat.toDigits_ne_nil
  · rw [List.append_assoc]
    exact (Reader.run_number_append hw _).trans ((faithful_word wanted).read_write n hr)

theorem Format.accepts_int : Format.int.Accepts (Written .int) := by
  rintro n s rfl
  have hne : Format.int.write n ≠ [] := by
    rw [Format.write_int]
    split
    · exact Nat.toDigits_ne_nil
    · exact List.cons_ne_nil _ _
  refine ⟨starts_of_signed (signed_write_int n) hne, fun {w r} hw hr => ?_⟩
  rw [List.append_assoc]
  exact (Reader.run_number_append hw _).trans (faithful_int.read_write n hr)

/-! ## Strings -/

def SpellsText : Spelling String :=
  fun t s => ∃ ps, List.Forall₂ SpellsChar t.toList ps ∧ s = '"' :: (ps.flatten ++ ['"'])

theorem spellsText_writeText (t : String) : SpellsText t (writeText t) := by
  refine ⟨t.toList.map writeChar, forall₂_writeChar t.toList, ?_⟩
  rw [writeText, List.flatMap_def, List.cons_append]

theorem Format.accepts_string : Format.string.Accepts SpellsText := by
  rintro t s ⟨ps, hps, rfl⟩
  refine ⟨⟨'"', _, rfl, by decide⟩, fun {w r} hw hr => ?_⟩
  have hread := readText_of_spells hps r
  show Reader.string.run _ = _
  rw [Reader.string, List.append_assoc, List.cons_append, List.append_assoc]
  dsimp only
  rw [skipBlanks_append_cons hw rfl]
  exact hread

/-! ## Choices -/

inductive SpellsChoice (name : α → String) (a : α) : List Char → Prop where
  | name {s : List Char} (hs : SpellsText (name a) s) : SpellsChoice name a s
  | member {label value : List Char} (hlabel : Padded (SpellsText (name a)) label)
      (hvalue : Padded (· = ['n', 'u', 'l', 'l']) value) :
      SpellsChoice name a ('\x7b' :: (label ++ ':' :: value ++ ['\x7d']))

theorem takeQuote_append {w : List Char} (hw : Blanks w) (r : List Char) :
    takeQuote (w ++ '"' :: r) = .ok r := by
  rw [takeQuote, skipBlanks_append_cons hw rfl]
  rfl

theorem takeNull_append {w : List Char} (hw : Blanks w) (r : List Char) :
    takeNull (w ++ 'n' :: 'u' :: 'l' :: 'l' :: r) = .ok r := by
  rw [takeNull, skipBlanks_append_cons hw rfl]
  rfl

theorem takeBrace_append {w : List Char} (hw : Blanks w) (r : List Char) :
    takeBrace (w ++ '\x7d' :: r) = .ok r := by
  rw [takeBrace, skipBlanks_append_cons hw rfl]
  rfl

theorem Format.accepts_choice {choices : List (String × α)} {name : α → String}
    (h : ∀ a, choices.lookup (name a) = some a) :
    (Format.choice choices name).Accepts (SpellsChoice name) := by
  intro a s hs
  have hchosen : chosen choices (name a) = .ok a := by rw [chosen, h]
  cases hs with
  | name hs =>
    obtain ⟨ps, hps, rfl⟩ := hs
    refine ⟨⟨'"', _, rfl, by decide⟩, fun {w r} hw hr => ?_⟩
    have hread := readText_of_spells hps r
    show (Reader.choice choices).run _ = _
    rw [Reader.choice, List.append_assoc, List.cons_append, List.append_assoc]
    dsimp only
    rw [skipBlanks_append_cons hw rfl]
    exact bind_eq_ok.2 ⟨_, hread, bind_eq_ok.2 ⟨a, hchosen, rfl⟩⟩
  | member hlabel hvalue =>
    obtain ⟨w₁, t, w₂, hw₁, ⟨ps, hps, rfl⟩, hw₂, rfl⟩ := hlabel
    obtain ⟨w₃, t, w₄, hw₃, rfl, hw₄, rfl⟩ := hvalue
    refine ⟨⟨'\x7b', _, rfl, by decide⟩, fun {w r} hw hr => ?_⟩
    show (Reader.choice choices).run _ = _
    simp only [List.append_assoc, List.cons_append, List.nil_append]
    rw [Reader.choice]
    dsimp only
    rw [skipBlanks_append_cons hw rfl]
    exact bind_eq_ok.2 ⟨_, takeQuote_append hw₁ _, bind_eq_ok.2 ⟨_, readText_of_spells hps _,
      bind_eq_ok.2 ⟨a, hchosen, bind_eq_ok.2 ⟨_, takeColon_append hw₂ _,
        bind_eq_ok.2 ⟨_, takeNull_append hw₃ _, bind_eq_ok.2 ⟨_, takeBrace_append hw₄ _, rfl⟩⟩⟩⟩⟩⟩

end TopCharts.Json
