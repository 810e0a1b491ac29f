import TopCharts.Proofs.Json.Format

/-!
# The grammar of JSON, and passing over a value

* `Blanks` : blanks between the tokens of a text;
* `IsNumeral`, `IsText`, `IsScalar` : the values without brackets. Numbers may have any size, and
  strings lone surrogates;
* `Valid` : what the grammar derives; `IsValue` : the values, nested to any depth;
* `scan_numeral`, `skipText_pieces`, `skipScalar_append` : numbers, strings and all scalars are
  passed over up to their ends;
* `Skip.passed` : so are all values and what stands in their brackets, by induction on the
  derivation. What is due after a value depends on the open brackets alone;
* `skipValue_append` : a value is passed over, whatever follows that cannot belong to a number.
-/

namespace TopCharts.Json

open Attempt

/-! ## Blanks -/

def Blanks (s : List Char) : Prop :=
  s.all isBlank

instance (s : List Char) : Decidable (Blanks s) :=
  inferInstanceAs (Decidable (s.all isBlank = true))

theorem Blanks.nil : Blanks [] :=
  rfl

theorem skipBlanks_append {w : List Char} (hw : Blanks w) (s : List Char) :
    skipBlanks (w ++ s) = skipBlanks s :=
  List.dropWhile_append_of_pos (List.all_eq_true.1 hw)

theorem skipBlanks_append_cons {w : List Char} {c : Char} (hw : Blanks w) (hc : isBlank c = false)
    (s : List Char) : skipBlanks (w ++ c :: s) = c :: s := by
  rw [skipBlanks_append hw, skipBlanks_cons hc]

theorem takeColon_append {w : List Char} (hw : Blanks w) (r : List Char) :
    takeColon (w ++ ':' :: r) = .ok r := by
  rw [takeColon, skipBlanks_append_cons hw rfl]
  rfl

theorem Ends.append_blanks {r w : List Char} (hr : Ends r) (hw : Blanks w) : Ends (w ++ r) := by
  cases w with
  | nil => exact hr
  | cons c w =>
    have hc := List.all_eq_true.1 hw c List.mem_cons_self
    simp only [isBlank, Bool.or_eq_true, decide_eq_true_eq] at hc
    obtain ((rfl | rfl) | rfl) | rfl := hc <;> exact ends_cons rfl (by decide)

/-! ## Numbers -/

def IsDigits (s : List Char) : Prop :=
  s ≠ [] ∧ s.all Char.isDigit

/-- The digits before the point: a zero does not stand before others. -/
def IsWhole (s : List Char) : Prop :=
  IsDigits s ∧ (s.head? = some '0' → s = ['0'])

/-- A point with digits, or nothing. -/
def IsFraction (s : List Char) : Prop :=
  s = [] ∨ ∃ ds, IsDigits ds ∧ s = '.' :: ds

/-- An exponent with a sign or without, or nothing. -/
def IsExponent (s : List Char) : Prop :=
  s = [] ∨ ∃ e sign ds, (e = 'e' ∨ e = 'E') ∧ (sign = [] ∨ sign = ['+'] ∨ sign = ['-']) ∧
    IsDigits ds ∧ s = e :: (sign ++ ds)

def IsNumeral (s : List Char) : Prop :=
  ∃ sign whole fraction exponent, (sign = [] ∨ sign = ['-']) ∧ IsWhole whole ∧
    IsFraction fraction ∧ IsExponent exponent ∧ s = sign ++ whole ++ fraction ++ exponent

theorem head_isDigits {s : List Char} (h : IsDigits s) : ∃ c t, s = c :: t ∧ c.isDigit := by
  obtain ⟨c, t, rfl⟩ := List.exists_cons_of_ne_nil h.1
  exact ⟨c, t, rfl, List.all_eq_true.1 h.2 c List.mem_cons_self⟩

theorem head_isNumeral {s : List Char} (h : IsNumeral s) :
    ∃ c t, s = c :: t ∧ (c = '-' ∨ c.isDigit) := by
  obtain ⟨sign, whole, fraction, exponent, rfl | rfl, hwhole, -, -, rfl⟩ := h
  · obtain ⟨c, t, rfl, hc⟩ := head_isDigits hwhole.1
    exact ⟨c, _, rfl, .inr hc⟩
  · exact ⟨'-', _, rfl, .inl rfl⟩

def EndsFraction (r : List Char) : Prop :=
  ∀ c ∈ r.head?, c.isDigit = false ∧ c ≠ '.'

theorem endsFraction_exponent {s r : List Char} (h : IsExponent s) (hr : Ends r) :
    EndsFraction (s ++ r) := by
  obtain rfl | ⟨e, sign, ds, he, -, -, rfl⟩ := h
  · exact fun c hc => ⟨(hr c hc).1, (hr c hc).2.1⟩
  · intro c hc
    cases hc
    rcases he with rfl | rfl <;> decide

theorem noDigit_fraction {s r : List Char} (h : IsFraction s) (hr : EndsFraction r) :
    ∀ c ∈ (s ++ r).head?, c.isDigit = false := by
  obtain rfl | ⟨ds, -, rfl⟩ := h
  · exact fun c hc => (hr c hc).1
  · intro c hc
    cases hc
    rfl

namespace Numeral

theorem scanFraction_append {s r : List Char} (h : IsFraction s) (hr : EndsFraction r) :
    ∃ ds, scanFraction (s ++ r) = .ok (ds, r) := by
  obtain rfl | ⟨ds, hds, rfl⟩ := h
  · exact ⟨[], scanFraction_of_noPoint fun c hc => (hr c hc).2⟩
  · exact ⟨digits ds, scanDigits_append (List.all_eq_true.1 hds.2) hds.1 fun c hc => (hr c hc).1⟩

theorem scanExponent_append {s r : List Char} (h : IsExponent s) (hr : Ends r) :
    ∃ x, scanExponent (s ++ r) = .ok (x, r) := by
  obtain rfl | ⟨e, sign, ds, he, hsign, hds, rfl⟩ := h
  · exact ⟨none, scanExponent_of_ends hr⟩
  have hdigits : scanDigits (ds ++ r) = .ok (digits ds, r) :=
    scanDigits_append (List.all_eq_true.1 hds.2) hds.1 fun c hc => (hr c hc).1
  refine ⟨some (decide (sign = ['-']), digits ds), ?_⟩
  unfold scanExponent
  simp only [List.cons_append, show (e = 'e' || e = 'E') = true by simpa using he, if_true]
  rcases hsign with rfl | rfl | rfl
  · obtain ⟨c, t, rfl, hc⟩ := head_isDigits hds
    split
    · rename_i hplus
      cases (List.cons.inj hplus).1
      cases hc
    · rename_i hminus
      cases (List.cons.inj hminus).1
      cases hc
    · exact bind_eq_ok.2 ⟨_, hdigits, rfl⟩
  · exact bind_eq_ok.2 ⟨_, hdigits, rfl⟩
  · exact bind_eq_ok.2 ⟨_, hdigits, rfl⟩

/-- **A number is scanned up to its end.** -/
theorem scan_numeral {s r : List Char} (h : IsNumeral s) (hr : Ends r) :
    ∃ x, scan (s ++ r) = .ok (x, r) := by
  obtain ⟨sign, whole, fraction, exponent, hsign, hwhole, hfraction, hexponent, rfl⟩ := h
  have hafter := endsFraction_exponent hexponent hr
  have h₁ := scanWhole_append (List.all_eq_true.1 hwhole.1.2) hwhole.1.1 hwhole.2
    (noDigit_fraction hfraction hafter)
  obtain ⟨ds, h₂⟩ := scanFraction_append hfraction hafter
  obtain ⟨x, h₃⟩ := scanExponent_append hexponent hr
  simp only [List.append_assoc]
  rcases hsign with rfl | rfl
  · obtain ⟨c, t, rfl, hc⟩ := head_isDigits hwhole.1
    refine ⟨⟨false, digits (c :: t), ds, x⟩, ?_⟩
    unfold scan
    split
    rename_i isNegative r' heq
    split at heq
    · rename_i hminus
      cases (List.cons.inj hminus).1
      cases hc
    · cases heq
      exact bind_eq_ok.2 ⟨_, h₁, bind_eq_ok.2 ⟨_, h₂, bind_eq_ok.2 ⟨_, h₃, rfl⟩⟩⟩
  · refine ⟨⟨true, digits whole, ds, x⟩, ?_⟩
    exact bind_eq_ok.2 ⟨_, h₁, bind_eq_ok.2 ⟨_, h₂, bind_eq_ok.2 ⟨_, h₃, rfl⟩⟩⟩

end Numeral

/-! ## Strings -/

/-- What a string is made of. -/
inductive IsPiece : List Char → Prop where
  | plain {c : Char} (hquote : c ≠ '"') (hbackslash : c ≠ '\\') (hc : 0x20 ≤ c.toNat) : IsPiece [c]
  | letter {c : Char} (hc : (escaped c).isSome) : IsPiece ['\\', c]
  | code {ds : List Char} {n : Nat} (hds : Quad ds n) : IsPiece ('\\' :: 'u' :: ds)

def IsText (s : List Char) : Prop :=
  ∃ ps : List (List Char), (∀ p ∈ ps, IsPiece p) ∧ s = '"' :: (ps.flatten ++ ['"'])

theorem skipEscape_letter {c : Char} (hc : (escaped c).isSome) (r : List Char) :
    skipEscape (c :: r) = .ok r := by
  have hu : c ≠ 'u' := by
    rintro rfl
    cases hc
  rw [skipEscape, if_neg hu, if_pos hc]

theorem skipEscape_code {ds : List Char} {n : Nat} (hds : Quad ds n) (r : List Char) :
    skipEscape ('u' :: (ds ++ r)) = .ok r := by
  rw [skipEscape, if_pos rfl, readQuad_append hds]
  rfl

theorem skipText_of_escape {s r : List Char} (h : skipEscape s = .ok r) :
    skipText ('\\' :: s) = skipText r := by
  rw [skipText]
  split
  · rename_i h'
    cases h.symm.trans h'
    rfl
  · rename_i h'
    cases h.symm.trans h'

theorem skipText_piece {p : List Char} (h : IsPiece p) (r : List Char) :
    skipText (p ++ r) = skipText r := by
  cases h with
  | @plain c hquote hbackslash hc =>
    rw [List.singleton_append, skipText]
    · exact if_neg (Nat.not_lt.2 hc)
    · exact hquote
    · exact hbackslash
  | letter hc => exact skipText_of_escape (skipEscape_letter hc r)
  | code hds => exact skipText_of_escape (skipEscape_code hds r)

/-- **A string is passed over up to its closing quote.** -/
theorem skipText_pieces {ps : List (List Char)} (hps : ∀ p ∈ ps, IsPiece p) (r : List Char) :
    skipText (ps.flatten ++ '"' :: r) = .ok r := by
  induction ps with
  | nil => rw [List.flatten_nil, List.nil_append, skipText]
  | cons p ps ih =>
    rw [List.flatten_cons, List.append_assoc, skipText_piece (hps p List.mem_cons_self)]
    exact ih fun p' hp' => hps p' (List.mem_cons_of_mem p hp')

/-! ## Scalars -/

inductive IsScalar : List Char → Prop where
  | null : IsScalar ['n', 'u', 'l', 'l']
  | yes : IsScalar ['t', 'r', 'u', 'e']
  | no : IsScalar ['f', 'a', 'l', 's', 'e']
  | numeral {s : List Char} (h : IsNumeral s) : IsScalar s
  | text {s : List Char} (h : IsText s) : IsScalar s

theorem head_isScalar {s : List Char} (h : IsScalar s) :
    ∃ c t, s = c :: t ∧ isBlank c = false ∧ c ≠ '[' ∧ c ≠ '\x7b' ∧ c ≠ ']' := by
  cases h with
  | null => exact ⟨_, _, rfl, by decide⟩
  | yes => exact ⟨_, _, rfl, by decide⟩
  | no => exact ⟨_, _, rfl, by decide⟩
  | numeral h =>
    obtain ⟨c, t, rfl, hc⟩ := head_isNumeral h
    refine ⟨c, t, rfl, isBlank_of_isDigit hc, ?_, ?_, ?_⟩ <;> rintro rfl <;> revert hc <;> decide
  | text h =>
    obtain ⟨ps, -, rfl⟩ := h
    exact ⟨_, _, rfl, by decide⟩

/-- **A scalar is passed over up to its end.** -/
theorem skipScalar_append {s r : List Char} (h : IsScalar s) (hr : Ends r) :
    skipScalar (s ++ r) = .ok r := by
  cases h with
  | null => rfl
  | yes => rfl
  | no => rfl
  | numeral h =>
    obtain ⟨x, hscan⟩ := Numeral.scan_numeral h hr
    obtain ⟨c, t, rfl, hc⟩ := head_isNumeral h
    rw [List.cons_append] at hscan ⊢
    unfold skipScalar
    split <;> rename_i heq <;> cases heq
    · exact absurd hc (by decide)
    · exact absurd hc (by decide)
    · exact absurd hc (by decide)
    · exact absurd hc (by decide)
    · rw [if_pos (by simpa using hc), hscan]
  | text h =>
    obtain ⟨ps, hps, rfl⟩ := h
    have htext := skipText_pieces hps r
    rw [List.cons_append, List.append_assoc]
    exact htext

/-! ## Values -/

def Bracket.opening : Bracket → Char
  | .square => '['
  | .curly => '\x7b'

/-- What stands before a value in a bracket, with the blanks around it. -/
inductive IsLabel : Bracket → List Char → Prop where
  | none {w : List Char} (hw : Blanks w) : IsLabel .square w
  | name {w t w' w'' : List Char} (hw : Blanks w) (ht : IsText t) (hw' : Blanks w')
      (hw'' : Blanks w'') : IsLabel .curly (w ++ t ++ w' ++ ':' :: w'')

/-- What the grammar is about. -/
inductive Form where
  | value
  /-- What stands in a bracket that is not empty. -/
  | content (b : Bracket)

/-- What the grammar derives. -/
inductive Valid : Form → List Char → Prop where
  | scalar {s : List Char} (h : IsScalar s) : Valid .value s
  | empty (b : Bracket) {w : List Char} (hw : Blanks w) :
      Valid .value (b.opening :: (w ++ [b.closing]))
  | full {b : Bracket} {s : List Char} (h : Valid (.content b) s) :
      Valid .value (b.opening :: (s ++ [b.closing]))
  | last {b : Bracket} {l v w : List Char} (hl : IsLabel b l) (hv : Valid .value v)
      (hw : Blanks w) : Valid (.content b) (l ++ v ++ w)
  | more {b : Bracket} {l v w s : List Char} (hl : IsLabel b l) (hv : Valid .value v)
      (hw : Blanks w) (hs : Valid (.content b) s) : Valid (.content b) (l ++ v ++ w ++ ',' :: s)

def IsValue (s : List Char) : Prop :=
  Valid .value s

theorem Bracket.isBlank_closing (b : Bracket) : isBlank b.closing = false := by
  cases b <;> rfl

theorem Bracket.ends_closing (b : Bracket) (r : List Char) : Ends (b.closing :: r) := by
  cases b <;> exact ends_cons rfl (by decide)

/-- Whether a text starts neither with a blank nor like the end of an array. -/
def Starts (s : List Char) : Prop :=
  ∃ c t, s = c :: t ∧ isBlank c = false ∧ c ≠ ']'

theorem starts_of_isValue {s : List Char} (h : IsValue s) : Starts s := by
  cases h with
  | scalar h =>
    obtain ⟨c, t, rfl, hc, -, -, hne⟩ := head_isScalar h
    exact ⟨c, t, rfl, hc, hne⟩
  | empty b => cases b <;> exact ⟨_, _, rfl, by decide⟩
  | @full b => cases b <;> exact ⟨_, _, rfl, by decide⟩

theorem head_content {b : Bracket} {s : List Char} (h : Valid (.content b) s) :
    ∃ w c t, s = w ++ c :: t ∧ Blanks w ∧ isBlank c = false ∧ c ≠ b.closing := by
  have hlabel : ∀ {l v : List Char} (r : List Char), IsLabel b l → IsValue v →
      ∃ w c t, l ++ v ++ r = w ++ c :: t ∧ Blanks w ∧ isBlank c = false ∧ c ≠ b.closing := by
    intro l v r hl hv
    cases hl with
    | none hw =>
      obtain ⟨c, t, rfl, hc, hne⟩ := starts_of_isValue hv
      exact ⟨l, c, t ++ r, by simp, hw, hc, hne⟩
    | @name w t w' w'' hw ht =>
      obtain ⟨ps, -, rfl⟩ := ht
      exact ⟨w, '"', ps.flatten ++ '"' :: (w' ++ ':' :: (w'' ++ (v ++ r))), by simp, hw, by decide⟩
  cases h with
  | last hl hv => exact hlabel _ hl hv
  | @more _ l v w s hl hv =>
    rw [List.append_assoc]
    exact hlabel _ hl hv

/-! ## Passing over values -/

namespace Skip

/-- Goes on with what is due, if anything is. -/
def resume : Option (Due × List Bracket) → List Char → Except ReadError (List Char)
  | some (due, stack), s => run due stack s
  | none, s => .ok s

theorem run_eq (due : Due) (stack : List Bracket) (s : List Char) :
    run due stack s = (do
      let (next, r) ← step due stack s
      resume next r) := by
  unfold run
  split <;> rename_i h <;> simp only [h] <;> rfl

theorem run_of_step {due : Due} {stack : List Bracket} {s r : List Char}
    {next : Option (Due × List Bracket)} (h : step due stack s = .ok (next, r)) :
    run due stack s = resume next r := by
  rw [run_eq, h]
  rfl

theorem run_scalar {stack : List Bracket} {w s r : List Char} (hw : Blanks w) (h : IsScalar s)
    (hr : Ends r) : run (.part .value) stack (w ++ s ++ r) = resume (next? stack) r := by
  have hskip := skipScalar_append h hr
  obtain ⟨c, t, rfl, hc, hsquare, hcurly, -⟩ := head_isScalar h
  refine run_of_step ?_
  rw [step, start, List.append_assoc, List.cons_append, skipBlanks_append_cons hw hc]
  split
  · rename_i heq
    exact absurd (List.cons.inj heq).1 hsquare
  · rename_i heq
    exact absurd (List.cons.inj heq).1 hcurly
  · exact bind_eq_ok.2 ⟨r, hskip, rfl⟩

theorem run_opening (b : Bracket) (stack : List Bracket) {w : List Char} (hw : Blanks w)
    (s : List Char) :
    run (.part .value) stack (w ++ b.opening :: s) = run (.first b) stack s := by
  have hc : isBlank b.opening = false := by cases b <;> rfl
  show _ = resume (some (.first b, stack)) s
  refine run_of_step ?_
  rw [step, start, skipBlanks_append_cons hw hc]
  cases b <;> rfl

theorem run_first_closing (b : Bracket) (stack : List Bracket) {w : List Char} (hw : Blanks w)
    (r : List Char) : run (.first b) stack (w ++ b.closing :: r) = resume (next? stack) r := by
  refine run_of_step ?_
  rw [step, skipBlanks_append_cons hw b.isBlank_closing]
  exact if_pos rfl

/-- The first thing in a bracket is read like the ones after it. -/
theorem run_first_content {b : Bracket} {s : List Char} (h : Valid (.content b) s)
    (stack : List Bracket) (r : List Char) :
    run (.first b) stack (s ++ r) = run (.part (content b)) (b :: stack) (s ++ r) := by
  obtain ⟨w, c, t, rfl, hw, hc, hne⟩ := head_content h
  have hstep : step (.first b) stack (w ++ c :: (t ++ r)) =
      start (content b) (b :: stack) (w ++ c :: (t ++ r)) := by
    rw [step, skipBlanks_append_cons hw hc]
    exact if_neg hne
  rw [List.append_assoc, List.cons_append, run_eq, run_eq, hstep]
  rfl

theorem run_more_closing (b : Bracket) (stack : List Bracket) {w : List Char} (hw : Blanks w)
    (r : List Char) : run (.more b) stack (w ++ b.closing :: r) = resume (next? stack) r := by
  refine run_of_step ?_
  rw [step, skipBlanks_append_cons hw b.isBlank_closing]
  exact if_pos rfl

theorem run_more_comma (b : Bracket) (stack : List Bracket) {w : List Char} (hw : Blanks w)
    (r : List Char) :
    run (.more b) stack (w ++ ',' :: r) = run (.part (content b)) (b :: stack) r := by
  show _ = resume (some (.part (content b), b :: stack)) r
  refine run_of_step ?_
  rw [step, skipBlanks_append_cons hw rfl]
  cases b <;> rfl

theorem exists_run_label {b : Bracket} {l : List Char} (hl : IsLabel b l) : ∃ w, Blanks w ∧
    ∀ stack s, run (.part (content b)) stack (l ++ s) = run (.part .value) stack (w ++ s) := by
  cases hl with
  | none hw => exact ⟨l, hw, fun stack s => rfl⟩
  | @name w t w' w'' hw ht hw' hw'' =>
    obtain ⟨ps, hps, rfl⟩ := ht
    refine ⟨w'', hw'', fun stack s => ?_⟩
    show _ = resume (some (.part .value, stack)) (w'' ++ s)
    refine run_of_step ?_
    have hkey : skipKey (w ++ '"' :: (ps.flatten ++ ['"']) ++ w' ++ ':' :: w'' ++ s) =
        .ok (w'' ++ s) := by
      simp only [List.append_assoc, List.cons_append, List.nil_append]
      rw [skipKey, skipBlanks_append_cons hw rfl]
      exact bind_eq_ok.2 ⟨_, skipText_pieces hps _, takeColon_append hw' _⟩
    rw [step, content, start]
    exact bind_eq_ok.2 ⟨_, hkey, rfl⟩

/-- Whether a text of the given form is passed over, inside any brackets and between any texts that
may stand around it. -/
def Passed : Form → List Char → Prop
  | .value, s => ∀ stack {w r}, Blanks w → Ends r →
      run (.part .value) stack (w ++ s ++ r) = resume (next? stack) r
  | .content b, s => ∀ stack r,
      run (.part (content b)) (b :: stack) (s ++ b.closing :: r) = resume (next? stack) r

/-- A value in a bracket, with what stands before it, leaves the rest of the bracket. -/
theorem run_item {b : Bracket} {l v : List Char} (hl : IsLabel b l) (hv : Passed .value v)
    (stack : List Bracket) {r : List Char} (hr : Ends r) :
    run (.part (content b)) (b :: stack) (l ++ v ++ r) = run (.more b) stack r := by
  obtain ⟨w, hw, hrun⟩ := exists_run_label hl
  rw [List.append_assoc, hrun, ← List.append_assoc, hv (b :: stack) hw hr]
  rfl

/-- **What the grammar derives is passed over.** -/
theorem passed {f : Form} {s : List Char} (h : Valid f s) : Passed f s := by
  induction h with
  | scalar h => exact fun stack w r hw hr => run_scalar hw h hr
  | empty b hw' =>
    intro stack w r hw hr
    have hclosing := run_first_closing b stack hw' r
    simpa [run_opening b stack hw] using hclosing
  | @full b s h ih =>
    intro stack w r hw hr
    have hcontent := ih stack r
    rw [← run_first_content h] at hcontent
    simpa [run_opening b stack hw] using hcontent
  | @last b l v w hl hv hw ih =>
    intro stack r
    have hends := (b.ends_closing r).append_blanks hw
    rw [List.append_assoc, run_item hl ih stack hends, run_more_closing b stack hw]
  | @more b l v w s hl hv hw hs ihv ihs =>
    intro stack r
    have hends : Ends (w ++ ',' :: (s ++ b.closing :: r)) :=
      (ends_cons rfl (by decide)).append_blanks hw
    rw [List.append_assoc, List.append_assoc, List.cons_append, run_item hl ihv stack hends,
      run_more_comma b stack hw, ihs]

end Skip

/-- **A value is passed over,** with the blanks before it. -/
theorem skipValue_append {w s r : List Char} (hw : Blanks w) (h : IsValue s) (hr : Ends r) :
    skipValue (w ++ s ++ r) = .ok r :=
  Skip.passed h [] hw hr

/-- Brackets in brackets, an escaped lone surrogate and a number that no float can hold. -/
example : (skipValue
    " \x7b\"\\ud800\" :[-0.0E+999, \x7b\x7d , [ ]], \"\":null\x7d]".toList).toOption =
      some [']'] := by
  decide +kernel

end TopCharts.Json
