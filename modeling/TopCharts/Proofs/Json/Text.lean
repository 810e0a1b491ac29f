import Mathlib.Data.List.Forall2
import TopCharts.Json.Text

/-!
# Reading a spelled string, and a written one back

* `Cut p s` : the text `p` is what is left of `s` if it is cut before its end;
* `SpellsChar` : a character of a string stands for itself, or is escaped by a letter, by the digits
  of its code point, or by those of a surrogate pair;
* `readText_of_spells` : a string is read from every spelling of its characters;
* `readText_flatMap_writeChar` : so it is from its written text;
* `readText_of_cut` : a written string that is cut is refused, wherever the cut falls, also inside
  an escape;
* `printable_writeText` : there is no control character in a written string, so it stays on one
  line.
-/

namespace TopCharts.Json

/-! ## Texts that are cut -/

/-- What is left of a text that is cut before its end. -/
def Cut (p s : List Char) : Prop :=
  ∃ t, t ≠ [] ∧ p ++ t = s

theorem not_cut_nil (p : List Char) : ¬ Cut p [] := by
  rintro ⟨t, ht, h⟩
  exact ht (List.append_eq_nil_iff.1 h).2

theorem Cut.cons {p s : List Char} {c : Char} (h : Cut p (c :: s)) :
    p = [] ∨ ∃ q, p = c :: q ∧ Cut q s := by
  obtain ⟨t, ht, h⟩ := h
  cases p with
  | nil => exact .inl rfl
  | cons d q =>
    obtain ⟨rfl, hq⟩ := List.cons.inj h
    exact .inr ⟨q, rfl, t, ht, hq⟩

theorem Cut.append {p a b : List Char} (h : Cut p (a ++ b)) :
    Cut p a ∨ ∃ q, p = a ++ q ∧ Cut q b := by
  obtain ⟨t, ht, h⟩ := h
  rcases List.append_eq_append_iff.1 h with ⟨s, hs, rfl⟩ | ⟨q, rfl, hq⟩
  · cases s with
    | nil => exact .inr ⟨[], by simp [hs], b, ht, rfl⟩
    | cons c s => exact .inl ⟨c :: s, List.cons_ne_nil c s, hs.symm⟩
  · exact .inr ⟨q, rfl, t, ht, hq.symm⟩

theorem Cut.mem {p s : List Char} (h : Cut p s) {c : Char} (hc : c ∈ p) : c ∈ s := by
  obtain ⟨t, -, rfl⟩ := h
  exact List.mem_append_left t hc

theorem Cut.length_lt {p s : List Char} (h : Cut p s) : p.length < s.length := by
  obtain ⟨t, ht, rfl⟩ := h
  rw [List.length_append]
  exact Nat.lt_add_of_pos_right (List.length_pos_iff.2 ht)

/-! ## Escapes -/

def Quad (ds : List Char) (n : Nat) : Prop :=
  ∃ a b c d, ds.map hexValue = [some a, some b, some c, some d] ∧
    n = ((a * 16 + b) * 16 + c) * 16 + d

theorem readQuad_append {ds : List Char} {n : Nat} (h : Quad ds n) (r : List Char) :
    readQuad (ds ++ r) = .ok (n, r) := by
  obtain ⟨a, b, c, d, hds, rfl⟩ := h
  simp only [List.map_eq_cons_iff, List.map_eq_nil_iff] at hds
  obtain ⟨x, _, rfl, hx, y, _, rfl, hy, z, _, rfl, hz, w, _, rfl, hw, rfl⟩ := hds
  simp only [List.cons_append, List.nil_append, readQuad, hx, hy, hz, hw]

theorem readEscape_letter {c d : Char} (hd : escaped d = some c) (r : List Char) :
    readEscape (d :: r) = .ok (c, r) := by
  have hu : d ≠ 'u' := by
    rintro rfl
    cases hd
  rw [readEscape, if_neg hu, hd]

theorem not_surrogate (c : Char) :
    isLowSurrogate c.toNat = false ∧ isHighSurrogate c.toNat = false := by
  have hvalid : c.toNat < 0xd800 ∨ 0xdfff < c.toNat ∧ c.toNat < 0x110000 := c.valid
  simp only [isLowSurrogate, isHighSurrogate, Bool.and_eq_false_iff, decide_eq_false_iff_not]
  omega

theorem readEscape_code {c : Char} {ds : List Char} (hds : Quad ds c.toNat) (r : List Char) :
    readEscape ('u' :: (ds ++ r)) = .ok (c, r) := by
  obtain ⟨hlow, hhigh⟩ := not_surrogate c
  rw [readEscape, if_pos rfl, readCodePoint, readQuad_append hds]
  simp only [bind, Except.bind, hlow, hhigh, Char.ofNat_toNat]
  rfl

theorem readEscape_pair {c : Char} {ds ds' : List Char} {n m : Nat} (hds : Quad ds n)
    (hn : isHighSurrogate n) (hds' : Quad ds' m) (hm : isLowSurrogate m)
    (hc : c.toNat = 0x10000 + (n - 0xd800) * 0x400 + (m - 0xdc00)) (r : List Char) :
    readEscape ('u' :: (ds ++ '\\' :: 'u' :: ds' ++ r)) = .ok (c, r) := by
  have hlow : isLowSurrogate n = false := by
    simp only [isLowSurrogate, isHighSurrogate, Bool.and_eq_true, Bool.and_eq_false_iff,
      decide_eq_true_eq, decide_eq_false_iff_not] at hn ⊢
    omega
  rw [readEscape, if_pos rfl, readCodePoint, List.append_assoc, readQuad_append hds]
  simp only [bind, Except.bind, hlow, hn, List.cons_append, readQuad_append hds', hm, ← hc,
    Char.ofNat_toNat]
  rfl

theorem readEscape_of_short {r : List Char} (h : r.length < 4) :
    ∃ e, readEscape ('u' :: r) = .error e := by
  have hquad : ∃ e, readQuad r = .error e := by
    unfold readQuad
    split
    · simp only [List.length_cons] at h
      omega
    · exact ⟨_, rfl⟩
  obtain ⟨e, hquad⟩ := hquad
  refine ⟨e, ?_⟩
  rw [readEscape, if_pos rfl, readCodePoint, hquad]
  rfl

/-! ## Spelled characters -/

/-- The spellings of a character in a string. -/
inductive SpellsChar (c : Char) : List Char → Prop where
  | plain (hquote : c ≠ '"') (hbackslash : c ≠ '\\') (hc : 0x20 ≤ c.toNat) : SpellsChar c [c]
  | letter {d : Char} (hd : escaped d = some c) : SpellsChar c ['\\', d]
  | code {ds : List Char} (hds : Quad ds c.toNat) : SpellsChar c ('\\' :: 'u' :: ds)
  | pair {ds ds' : List Char} {n m : Nat} (hds : Quad ds n) (hn : isHighSurrogate n)
      (hds' : Quad ds' m) (hm : isLowSurrogate m)
      (hc : c.toNat = 0x10000 + (n - 0xd800) * 0x400 + (m - 0xdc00)) :
      SpellsChar c ('\\' :: 'u' :: (ds ++ '\\' :: 'u' :: ds'))

/-! ## Written characters -/

theorem hexValue_digitChar : ∀ d < 16, hexValue (Nat.digitChar d) = some d := by
  decide

theorem quad_control {c : Char} (hc : c.toNat < 0x20) :
    Quad ['0', '0', Nat.digitChar (c.toNat / 16), Nat.digitChar (c.toNat % 16)] c.toNat := by
  have hhigh := hexValue_digitChar (c.toNat / 16) (by omega)
  have hlow := hexValue_digitChar (c.toNat % 16) (by omega)
  have hzero : hexValue '0' = some 0 := rfl
  refine ⟨0, 0, c.toNat / 16, c.toNat % 16, ?_, by omega⟩
  simp only [List.map_cons, List.map_nil, hhigh, hlow, hzero]

theorem spellsChar_writeChar (c : Char) : SpellsChar c (writeChar c) := by
  unfold writeChar
  split
  · exact .letter rfl
  · exact .letter rfl
  · exact .letter rfl
  · exact .letter rfl
  · exact .letter rfl
  · exact .letter rfl
  · exact .letter rfl
  · rename_i hquote hbackslash _ _ _ _ _
    split
    · rename_i hc
      exact .code (quad_control hc)
    · rename_i hc
      exact .plain hquote hbackslash (Nat.le_of_not_lt hc)

theorem forall₂_writeChar (cs : List Char) : List.Forall₂ SpellsChar cs (cs.map writeChar) := by
  rw [List.forall₂_map_right_iff]
  exact List.forall₂_same.2 fun c _ => spellsChar_writeChar c

/-- How a character is written: as itself, or as an escape that is read back, but not if it is
cut. -/
theorem writeChar_cases (c : Char) :
    (c ≠ '"' ∧ c ≠ '\\' ∧ 0x20 ≤ c.toNat ∧ writeChar c = [c]) ∨
      ∃ escape, writeChar c = '\\' :: escape ∧ (∀ r, readEscape (escape ++ r) = .ok (c, r)) ∧
        (∀ p, Cut p escape → ∃ e, readEscape p = .error e) ∧ ∀ d ∈ escape, 0x20 ≤ d.toNat := by
  have letter {c d : Char} (h : escaped d = some c) (hp : 0x20 ≤ d.toNat) :
      ∃ escape, ['\\', d] = '\\' :: escape ∧ (∀ r, readEscape (escape ++ r) = .ok (c, r)) ∧
        (∀ p, Cut p escape → ∃ e, readEscape p = .error e) ∧ ∀ d ∈ escape, 0x20 ≤ d.toNat := by
    refine ⟨[d], rfl, fun r => ?_, fun p hp => ?_, ?_⟩
    · exact readEscape_letter h r
    · rcases hp.cons with rfl | ⟨q, rfl, hq⟩
      · exact ⟨_, rfl⟩
      · exact absurd hq (not_cut_nil q)
    · intro x hx
      rwa [List.mem_singleton.1 hx]
  unfold writeChar
  split
  · exact .inr (letter rfl (by decide))
  · exact .inr (letter rfl (by decide))
  · exact .inr (letter rfl (by decide))
  · exact .inr (letter rfl (by decide))
  · exact .inr (letter rfl (by decide))
  · exact .inr (letter rfl (by decide))
  · exact .inr (letter rfl (by decide))
  · split
    · rename_i hc
      have hdigit : ∀ d < 16, 0x20 ≤ (Nat.digitChar d).toNat := by decide
      refine .inr ⟨_, rfl, readEscape_code (quad_control hc), fun p hp => ?_, ?_⟩
      · rcases hp.cons with rfl | ⟨q, rfl, hq⟩
        · exact ⟨_, rfl⟩
        · exact readEscape_of_short hq.length_lt
      · have hhigh := hdigit (c.toNat / 16) (by omega)
        have hlow := hdigit (c.toNat % 16) (by omega)
        simp only [List.forall_mem_cons, List.not_mem_nil, false_implies, implies_true, hhigh, hlow]
        decide
    · rename_i hquote hbackslash _ _ _ _ _ hc
      exact .inl ⟨hquote, hbackslash, Nat.le_of_not_lt hc, rfl⟩

/-! ## Strings -/

theorem readText_go_of_escape {done r t : List Char} {c : Char} (h : readEscape r = .ok (c, t)) :
    readText.go done ('\\' :: r) = readText.go (c :: done) t := by
  rw [readText.go]
  split
  · rename_i h'
    cases h.symm.trans h'
    rfl
  · rename_i h'
    cases h.symm.trans h'

theorem readText_go_of_escape_error {done r : List Char} {e : ReadError}
    (h : readEscape r = .error e) : readText.go done ('\\' :: r) = .error e := by
  rw [readText.go]
  split
  · rename_i h'
    cases h.symm.trans h'
  · rename_i h'
    exact congrArg Except.error (Except.error.inj (h'.symm.trans h))

theorem readText_go_of_plain {done r : List Char} {c : Char} (hquote : c ≠ '"')
    (hbackslash : c ≠ '\\') (hc : 0x20 ≤ c.toNat) :
    readText.go done (c :: r) = readText.go (c :: done) r := by
  rw [readText.go]
  · exact if_neg (Nat.not_lt.2 hc)
  · exact hquote
  · exact hbackslash

theorem readText_go_of_spells {c : Char} {p : List Char} (h : SpellsChar c p)
    (done r : List Char) : readText.go done (p ++ r) = readText.go (c :: done) r := by
  cases h with
  | plain hquote hbackslash hc => exact readText_go_of_plain hquote hbackslash hc
  | letter hd => exact readText_go_of_escape (readEscape_letter hd r)
  | code hds => exact readText_go_of_escape (readEscape_code hds r)
  | pair hds hn hds' hm hc => exact readText_go_of_escape (readEscape_pair hds hn hds' hm hc r)

theorem readText_go_flatten {cs : List Char} {ps : List (List Char)}
    (h : List.Forall₂ SpellsChar cs ps) (done r : List Char) :
    readText.go done (ps.flatten ++ '"' :: r) = .ok (String.ofList (done.reverse ++ cs), r) := by
  induction h generalizing done with
  | nil => rw [List.flatten_nil, List.nil_append, List.append_nil, readText.go]
  | cons hp _ ih =>
    rw [List.flatten_cons, List.append_assoc, readText_go_of_spells hp, ih, List.reverse_cons,
      List.append_assoc]
    rfl

/-- **A spelled string is read up to its closing quote.** -/
theorem readText_of_spells {t : String} {ps : List (List Char)}
    (h : List.Forall₂ SpellsChar t.toList ps) (r : List Char) :
    readText (ps.flatten ++ '"' :: r) = .ok (t, r) := by
  have hgo := readText_go_flatten h [] r
  rwa [List.reverse_nil, List.nil_append, String.ofList_toList] at hgo

theorem readText_go_writeChar (done : List Char) (c : Char) (r : List Char) :
    readText.go done (writeChar c ++ r) = readText.go (c :: done) r :=
  readText_go_of_spells (spellsChar_writeChar c) done r

/-- **A written string is read back.** -/
theorem readText_flatMap_writeChar (s : String) (r : List Char) :
    readText (s.toList.flatMap writeChar ++ '"' :: r) = .ok (s, r) := by
  rw [List.flatMap_def]
  exact readText_of_spells (forall₂_writeChar s.toList) r

/-- **A written string that is cut is refused.** -/
theorem readText_of_cut {cs p : List Char} (h : Cut p (cs.flatMap writeChar ++ ['"'])) :
    ∃ e, readText p = .error e := by
  suffices hgo : ∀ (cs done p : List Char), Cut p (cs.flatMap writeChar ++ ['"']) →
      ∃ e, readText.go done p = .error e from hgo cs [] p h
  intro cs
  induction cs with
  | nil =>
    intro done p h
    rcases h.cons with rfl | ⟨q, -, hq⟩
    · exact ⟨.truncated, by rw [readText.go]⟩
    · exact absurd hq (not_cut_nil q)
  | cons c cs ih =>
    intro done p h
    rw [List.flatMap_cons, List.append_assoc] at h
    rcases h.append with h | ⟨q, rfl, hq⟩
    · cases p with
      | nil => exact ⟨.truncated, by rw [readText.go]⟩
      | cons d p =>
        rcases writeChar_cases c with ⟨-, -, -, hwrite⟩ | ⟨escape, hwrite, -, hcut, -⟩
        · rw [hwrite] at h
          obtain h | ⟨q, -, hq⟩ := h.cons
          · cases h
          · exact absurd hq (not_cut_nil q)
        · rw [hwrite] at h
          obtain h | ⟨q, h, hq⟩ := h.cons
          · cases h
          · obtain ⟨e, he⟩ := hcut q hq
            exact ⟨e, h ▸ readText_go_of_escape_error he⟩
    · rw [readText_go_writeChar]
      exact ih (c :: done) q hq

theorem printable_writeText (s : String) : ∀ c ∈ writeText s, 0x20 ≤ c.toNat := by
  have hquote : 0x20 ≤ '"'.toNat := by decide
  intro c hc
  rw [writeText, List.mem_append, List.mem_cons, List.mem_flatMap, List.mem_singleton] at hc
  rcases hc with (rfl | ⟨d, -, hc⟩) | rfl
  · exact hquote
  · rcases writeChar_cases d with ⟨-, -, hd, hwrite⟩ | ⟨escape, hwrite, -, -, hescape⟩
    · rw [hwrite, List.mem_singleton] at hc
      rwa [hc]
    · rw [hwrite, List.mem_cons] at hc
      rcases hc with rfl | hc
      · decide
      · exact hescape c hc
  · exact hquote

end TopCharts.Json
