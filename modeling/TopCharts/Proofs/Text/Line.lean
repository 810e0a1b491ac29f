import Mathlib.Data.List.DropRight
import Mathlib.Data.List.Forall2
import TopCharts.Text.Line

/-!
# Trimming a text and taking it apart at its line ends

* `trim_between` : the blanks around a text that neither starts nor ends with one are trimmed, and
  nothing else;
* `trim_prefix` : of a text that does not start with a blank only its end is trimmed;
* `trim_eq_nil_iff`, `trim_append` : of blanks nothing is left, nor of those after a text;
* `lines_of_not_mem` : a text without line ends is the only line, unless it is empty;
* `withReturns`, `splitOn_withReturns` : with a carriage return before every line feed, the pieces
  between the line feeds are the same up to a return at their ends.
-/

namespace TopCharts.Text

/-! ## Trimming -/

theorem dropWhile_blanks {l r : List Char} (hl : l.all isBlank)
    (hr : ∀ c ∈ r.head?, isBlank c = false) : (l ++ r).dropWhile isBlank = r := by
  rw [List.dropWhile_append_of_pos (List.all_eq_true.1 hl)]
  cases r with
  | nil => rfl
  | cons c r => exact List.dropWhile_cons_of_neg (by rw [hr c rfl]; decide)

theorem trim_between {before s after : List Char} (hne : s ≠ []) (hbefore : before.all isBlank)
    (hafter : after.all isBlank) (hhead : ∀ c ∈ s.head?, isBlank c = false)
    (hlast : ∀ c ∈ s.getLast?, isBlank c = false) : trim (before ++ s ++ after) = s := by
  have hstart : (before ++ (s ++ after)).dropWhile isBlank = s ++ after := by
    refine dropWhile_blanks hbefore fun c hc => hhead c ?_
    obtain ⟨d, t, rfl⟩ := List.exists_cons_of_ne_nil hne
    exact hc
  have hend : (after.reverse ++ s.reverse).dropWhile isBlank = s.reverse := by
    refine dropWhile_blanks (by rwa [List.all_reverse]) ?_
    rwa [List.head?_reverse]
  rw [trim, List.append_assoc, hstart, List.reverse_append, hend, List.reverse_reverse]

theorem trim_prefix {s : List Char} (h : ∀ c ∈ s.head?, isBlank c = false) : trim s <+: s := by
  have hstart : s.dropWhile isBlank = s := dropWhile_blanks (l := []) rfl h
  rw [trim, hstart, ← List.reverse_suffix, List.reverse_reverse]
  exact List.dropWhile_suffix _

theorem trim_eq_nil_iff {s : List Char} : trim s = [] ↔ s.all isBlank := by
  have htrim : trim s = (s.dropWhile isBlank).rdropWhile isBlank := rfl
  rw [htrim, List.rdropWhile_eq_nil_iff, List.all_eq_true]
  constructor
  · intro h c hc
    rw [← List.takeWhile_append_dropWhile (p := isBlank) (l := s), List.mem_append] at hc
    exact hc.elim (List.all_eq_true.1 List.all_takeWhile c) (h c)
  · exact fun h c hc => h c ((List.dropWhile_suffix _).subset hc)

theorem trim_append {t : List Char} (ht : t.all isBlank) (s : List Char) :
    trim (s ++ t) = trim s := by
  by_cases hs : s.all isBlank
  · rw [trim_eq_nil_iff.2 hs, trim_eq_nil_iff, List.all_append, hs, ht]
    rfl
  · have hne : s.dropWhile isBlank ≠ [] := by
      rw [ne_eq, List.dropWhile_eq_nil_iff, ← List.all_eq_true]
      exact hs
    rw [trim, trim, List.dropWhile_append, if_neg (by rwa [List.isEmpty_iff]), List.reverse_append,
      List.dropWhile_append_of_pos (by simpa using ht)]

/-! ## Lines -/

theorem trim_dropReturn (line : List Char) : trim (dropReturn line) = trim line := by
  unfold dropReturn
  split
  · rename_i h
    have hline := List.dropLast_append_getLast? '\r' h
    exact (trim_append (t := ['\r']) rfl line.dropLast).symm.trans (congrArg trim hline)
  · rfl

theorem lines_of_not_mem {line : List Char} (h : '\n' ∉ line) :
    lines line = if line = [] then [] else [line] := by
  rw [lines, List.splitOn_eq_singleton h]
  by_cases hline : line = [] <;> simp [hline]

/-- The text with a carriage return before every line feed. -/
def withReturns (s : List Char) : List Char :=
  s.flatMap fun c => if c = '\n' then ['\r', '\n'] else [c]

/-- With carriage returns the same lines are ended, each but the last one by its return. -/
theorem splitOn_withReturns (s : List Char) :
    List.Forall₂ (fun line line' => line' = line ∨ line' = line ++ ['\r'])
      (s.splitOn '\n') ((withReturns s).splitOn '\n') := by
  induction s with
  | nil => exact .cons (.inl rfl) .nil
  | cons c s ih =>
    rw [withReturns, List.flatMap_cons, ← withReturns]
    split
    · rename_i hc
      subst hc
      have hreturn : '\n' ∉ ['\r'] := by decide
      have hends := List.splitOn_append_cons_self_of_not_mem hreturn (withReturns s)
      rw [List.splitOn_cons_eq_if_modifyHead, if_pos (beq_self_eq_true '\n')]
      exact hends ▸ .cons (.inr rfl) ih
    · rename_i hc
      rw [List.singleton_append, List.splitOn_cons_eq_if_modifyHead,
        List.splitOn_cons_eq_if_modifyHead, if_neg (by simpa using hc), if_neg (by simpa using hc)]
      generalize s.splitOn '\n' = lines, (withReturns s).splitOn '\n' = lines' at ih ⊢
      cases ih with
      | nil => exact .nil
      | cons hline hlines =>
        refine .cons ?_ hlines
        rcases hline with rfl | rfl
        · exact .inl rfl
        · exact .inr rfl

end TopCharts.Text
