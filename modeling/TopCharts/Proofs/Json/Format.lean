import TopCharts.Proofs.Json.Number

/-!
# Formats whose values are read back

* `Format.Faithful f` : a value is read back as it was written, whatever follows that cannot belong
  to a number. Of a written value that is cut nothing is left, should it be read at all;
* `Format.Closed f` : the values show where they end. They are read back whatever follows, they are
  refused if they are cut, and they stand between two characters that are no blanks;
* `faithful_int`, `faithful_word` : numbers;
* `closed_string`, `closed_choice` : strings and named values.
-/

namespace TopCharts.Json

open Attempt

variable {α : Type}

structure Format.Faithful (f : Format α) : Prop where
  read_write : ∀ a {r}, Ends r → f.reader.run (f.write a ++ r) = .ok (a, r)
  read_cut : ∀ a {p b r}, Cut p (f.write a) → f.reader.run p = .ok (b, r) → r = []
  printable : ∀ a, ∀ c ∈ f.write a, 0x20 ≤ c.toNat

/-- A character that stands at the start or the end of a written value and is no blank. -/
def IsEdge (c : Char) : Prop :=
  c = '"' ∨ c = '\x7b' ∨ c = '\x7d'

/-- A format whose values are read back and show where they end. -/
structure Format.Closed (f : Format α) : Prop where
  read_write : ∀ a r, f.reader.run (f.write a ++ r) = .ok (a, r)
  refuses_cut : ∀ a {p}, Cut p (f.write a) → ∃ e, f.reader.run p = .error e
  printable : ∀ a, ∀ c ∈ f.write a, 0x20 ≤ c.toNat
  edges : ∀ a, ∃ c m d, f.write a = c :: m ++ [d] ∧ IsEdge c ∧ IsEdge d

theorem Format.Closed.faithful {f : Format α} (h : f.Closed) : f.Faithful where
  read_write a r _ := h.read_write a r
  read_cut a p b r hp hr := by
    obtain ⟨e, he⟩ := h.refuses_cut a hp
    cases hr.symm.trans he
  printable := h.printable

theorem skipBlanks_cons {c : Char} (h : isBlank c = false) (r : List Char) :
    skipBlanks (c :: r) = c :: r :=
  List.dropWhile_cons_of_neg (by rw [h]; decide)

/-! ## Numbers -/

section Numbers

variable {wanted : String} {convert : Number → Except ReadError α}

theorem isBlank_of_isDigit {c : Char} (h : c = '-' ∨ c.isDigit) : isBlank c = false := by
  rcases h with rfl | h
  · rfl
  · have h := Char.isDigit_iff_toNat.1 h
    have hne {d : Char} (hd : d.toNat < 48) : c ≠ d := by
      rintro rfl
      have : '0'.toNat = 48 := rfl
      omega
    simp [isBlank, hne]

theorem Reader.run_number {p r : List Char} (hp : Signed p) (hne : p ≠ []) :
    (Reader.number wanted convert).run (p ++ r) = (do
      let (n, t) ← Number.read (p ++ r)
      return (← convert n, t)) := by
  obtain ⟨c, q, rfl⟩ := List.exists_cons_of_ne_nil hne
  rw [Reader.number, List.cons_append]
  dsimp only
  rw [skipBlanks_cons (isBlank_of_isDigit hp.head)]
  dsimp only
  rw [if_pos (by simpa using hp.head)]

theorem Reader.run_number_of_read {p r : List Char} {n : Number} {a : α} (hp : Signed p)
    (hne : p ≠ []) (hread : Number.read (p ++ r) = .ok (n, r)) (ha : convert n = .ok a) :
    (Reader.number wanted convert).run (p ++ r) = .ok (a, r) := by
  rw [Reader.run_number hp hne, hread]
  exact bind_eq_ok.2 ⟨(n, r), rfl, bind_eq_ok.2 ⟨a, ha, rfl⟩⟩

theorem Reader.eq_nil_of_run_number {p r : List Char} {a : α} (hp : Signed p)
    (h : (Reader.number wanted convert).run p = .ok (a, r)) : r = [] := by
  cases hp' : p with
  | nil =>
    rw [hp'] at h
    cases h
  | cons c q =>
    have hne : p ≠ [] := hp' ▸ List.cons_ne_nil c q
    rw [← List.append_nil p, Reader.run_number hp hne, List.append_nil] at h
    obtain ⟨⟨n, t⟩, hread, h⟩ := bind_eq_ok.1 h
    obtain ⟨b, -, h⟩ := bind_eq_ok.1 h
    cases h
    exact Number.eq_nil_of_read hp hread

end Numbers

theorem printable_of_signed {s : List Char} (hs : Signed s) : ∀ c ∈ s, 0x20 ≤ c.toNat := by
  have hdigit {c : Char} (hc : c.isDigit) : 0x20 ≤ c.toNat := by
    have := (Char.isDigit_iff_toNat.1 hc).1
    have : '0'.toNat = 48 := rfl
    omega
  obtain ⟨ds, hds, rfl | rfl⟩ := hs
  · exact fun c hc => hdigit (hds c hc)
  · intro c hc
    rcases List.mem_cons.1 hc with rfl | hc
    · decide
    · exact hdigit (hds c hc)

theorem signed_toDigits (n : Nat) : Signed (Nat.toDigits 10 n) :=
  ⟨_, isDigit_toDigits n, .inl rfl⟩

theorem signed_neg_toDigits (n : Nat) : Signed ('-' :: Nat.toDigits 10 n) :=
  ⟨_, isDigit_toDigits n, .inr rfl⟩

theorem Format.write_word (wanted : String) (n : UInt64) :
    (Format.word wanted).write n = Nat.toDigits 10 n.toNat :=
  Nat.toList_repr

theorem Format.faithful_word (wanted : String) : (Format.word wanted).Faithful where
  read_write n r hr := by
    rw [write_word]
    refine Reader.run_number_of_read (signed_toDigits _) Nat.toDigits_ne_nil
      (Number.read_natural n.toNat_lt hr) ?_
    rw [UInt64.ofNat_toNat]
    rfl
  read_cut n p b r hp h := by
    rw [write_word] at hp
    exact Reader.eq_nil_of_run_number ((signed_toDigits _).of_cut hp) h
  printable n := by
    rw [write_word]
    exact printable_of_signed (signed_toDigits _)

theorem Format.write_int (n : Int64) : Format.int.write n =
    if 0 ≤ n.toInt then Nat.toDigits 10 n.toInt.toNat
    else '-' :: Nat.toDigits 10 n.toInt.natAbs := by
  show (Int.repr n.toInt).toList = _
  cases h : n.toInt with
  | ofNat m =>
    rw [if_pos (show 0 ≤ Int.ofNat m from Int.natCast_nonneg m)]
    exact Nat.toList_repr
  | negSucc m =>
    rw [if_neg (Int.not_le.2 (Int.negSucc_lt_zero m)), Int.repr, String.toList_append,
      Nat.toList_repr]
    rfl

theorem signed_write_int (n : Int64) : Signed (Format.int.write n) := by
  rw [Format.write_int]
  split
  · exact signed_toDigits _
  · exact signed_neg_toDigits _

theorem Format.faithful_int : Format.int.Faithful where
  read_write n r hr := by
    have hmin := n.le_toInt
    have hmax := n.toInt_lt
    rw [Format.write_int]
    split
    · rename_i h
      have hword : n.toInt.toNat < UInt64.size := by
        rw [UInt64.size]
        omega
      refine Reader.run_number_of_read (signed_toDigits _) Nat.toDigits_ne_nil
        (Number.read_natural hword hr) ?_
      have hle : UInt64.ofNat n.toInt.toNat ≤ 0x7fffffffffffffff := by
        rw [UInt64.le_iff_toNat_le, UInt64.toNat_ofNat_of_lt' hword]
        show n.toInt.toNat ≤ 9223372036854775807
        omega
      rw [Number.toInt, if_pos hle, UInt64.toInt64_ofNat', ← Int64.ofInt_eq_ofNat,
        Int.toNat_of_nonneg h, Int64.ofInt_toInt]
    · rename_i h
      refine Reader.run_number_of_read (signed_neg_toDigits _) (List.cons_ne_nil _ _)
        (Number.read_negative (n := n.toInt.natAbs) (by omega) (by omega) hr) ?_
      have habs : -(n.toInt.natAbs : Int) = n.toInt := by omega
      rw [habs, Int64.ofInt_toInt]
      rfl
  read_cut n p b r hp h :=
    Reader.eq_nil_of_run_number ((signed_write_int n).of_cut hp) h
  printable n := printable_of_signed (signed_write_int n)

/-! ## Strings -/

theorem skipBlanks_quote (r : List Char) : skipBlanks ('"' :: r) = '"' :: r :=
  skipBlanks_cons rfl r

theorem writeText_append (s : String) (r : List Char) :
    writeText s ++ r = '"' :: (s.toList.flatMap writeChar ++ '"' :: r) := by
  simp [writeText]

theorem cut_writeText {s : String} {p : List Char} (h : Cut p (writeText s)) :
    p = [] ∨ ∃ q, p = '"' :: q ∧ ∃ e, readText q = .error e := by
  rcases h.cons with rfl | ⟨q, rfl, hq⟩
  · exact .inl rfl
  · exact .inr ⟨q, rfl, readText_of_cut hq⟩

theorem edges_writeText (s : String) :
    ∃ c m d, writeText s = c :: m ++ [d] ∧ IsEdge c ∧ IsEdge d :=
  ⟨'"', s.toList.flatMap writeChar, '"', rfl, .inl rfl, .inl rfl⟩

/-- Strings are read back, and refused if they are cut. -/
theorem Format.closed_string : Format.string.Closed where
  read_write s r := by
    show Reader.string.run (writeText s ++ r) = _
    rw [writeText_append, Reader.string]
    dsimp only
    rw [skipBlanks_quote]
    exact readText_flatMap_writeChar s r
  refuses_cut s p hp := by
    rcases cut_writeText hp with rfl | ⟨q, rfl, e, he⟩
    · exact ⟨_, rfl⟩
    · refine ⟨e, ?_⟩
      show Reader.string.run ('"' :: q) = _
      rw [Reader.string]
      dsimp only
      rw [skipBlanks_quote]
      exact he
  printable := printable_writeText
  edges := edges_writeText

/-! ## Choices -/

theorem Reader.run_choice (choices : List (String × α)) (r : List Char) :
    (Reader.choice choices).run ('"' :: r) = (do
      let (name, r) ← readText r
      return (← chosen choices name, r)) := by
  rw [Reader.choice]
  dsimp only
  rw [skipBlanks_quote]
  rfl

theorem Format.closed_choice {choices : List (String × α)} {name : α → String}
    (h : ∀ a, choices.lookup (name a) = some a) : (Format.choice choices name).Closed where
  read_write a r := by
    show (Reader.choice choices).run (writeText (name a) ++ r) = _
    rw [writeText_append, Reader.run_choice, readText_flatMap_writeChar]
    show (do return (← chosen choices (name a), r)) = _
    rw [chosen, h]
    rfl
  refuses_cut a p hp := by
    rcases cut_writeText hp with rfl | ⟨q, rfl, e, he⟩
    · exact ⟨_, rfl⟩
    · refine ⟨e, ?_⟩
      show (Reader.choice choices).run ('"' :: q) = _
      rw [Reader.run_choice, he]
      rfl
  printable a := printable_writeText (name a)
  edges a := edges_writeText (name a)

end TopCharts.Json
