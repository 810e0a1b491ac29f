import TopCharts.Proofs.Collection.Multiplicity
import TopCharts.Proofs.Rank.Best

/-!
# Totals of counted identities

A collection of identities counts them: the weights of an identity add up to its total.

* `IsWord n` : a signed word can hold `n`. A checked sum is exact if it is one
  (`IsWord.exists_addInt_eq_ok`), and else refused (`addInt_eq_error_iff`);
* `Collection.total?`, `Collection.totals` : the totals, as scores and as entries;
* `Collection.tally` : counts an identity up; `total?_tally`;
* `raises_tally`, `totals_tally_sdiff` : counting up raises the totals, by one new one.
-/

namespace TopCharts

def IsWord (n : Int) : Prop :=
  Int64.minValue.toInt ≤ n ∧ n ≤ Int64.maxValue.toInt

instance (n : Int) : Decidable (IsWord n) :=
  inferInstanceAs (Decidable (_ ∧ _))

theorem isWord_toInt (a : Int64) : IsWord a.toInt := by
  have hlo := a.le_toInt
  have hhi := a.toInt_lt
  rw [IsWord, Int64.toInt_minValue, Int64.toInt_maxValue]
  omega

theorem addInt_eq_error_iff {a b : Int64} {fault : Fault} :
    Checked.addInt a b = .error fault ↔ fault = .addOverflow ∧ ¬ IsWord (a.toInt + b.toInt) := by
  unfold Checked.addInt IsWord
  dsimp only
  split
  · rename_i h
    exact iff_of_false nofun fun hfault => hfault.2 h
  · rename_i h
    rw [Except.error.injEq, and_iff_left h, eq_comm]

theorem IsWord.toInt_ofInt {n : Int} (h : IsWord n) : (Int64.ofInt n).toInt = n := by
  rw [IsWord, Int64.toInt_minValue, Int64.toInt_maxValue] at h
  exact Int64.toInt_ofInt_of_le h.1 (Int.lt_of_le_sub_one h.2)

theorem IsWord.exists_addInt_eq_ok {a b : Int64} (h : IsWord (a.toInt + b.toInt)) :
    ∃ c, Checked.addInt a b = .ok c ∧ c.toInt = a.toInt + b.toInt :=
  ⟨_, Checked.addInt_eq_ok_iff.2 h.toInt_ofInt.symm, h.toInt_ofInt⟩

theorem IsWord.eq_ofInt_iff {n : Int} (h : IsWord n) {a : Int64} : a = .ofInt n ↔ a.toInt = n := by
  constructor
  · rintro rfl
    exact h.toInt_ofInt
  · rintro rfl
    exact (Int64.ofInt_toInt a).symm

namespace Collection

/-- The total of an identity as a score, if it has been counted. -/
def total? (c : Collection Int64) (identity : Int64) : Option Int64 :=
  if identity ∈ c.rows.map Prod.fst then some (.ofInt (c.multiplicity identity)) else none

def totals (c : Collection Int64) : Finset Entry :=
  (c.rows.map fun row => (⟨row.1, .ofInt (c.multiplicity row.1)⟩ : Entry)).toFinset

theorem total?_eq_some {c : Collection Int64} {identity score : Int64} :
    c.total? identity = some score ↔
      identity ∈ c.rows.map Prod.fst ∧ Int64.ofInt (c.multiplicity identity) = score := by
  unfold total?
  split
  · rename_i h
    rw [Option.some_inj]
    exact (and_iff_right h).symm
  · rename_i h
    exact iff_of_false (Option.some_ne_none score).symm fun hs => h hs.1

theorem mem_totals {c : Collection Int64} {e : Entry} :
    e ∈ c.totals ↔ c.total? e.identity = some e.score := by
  rw [totals, List.mem_toFinset, List.mem_map, total?_eq_some, List.mem_map]
  constructor
  · rintro ⟨row, hrow, rfl⟩
    exact ⟨⟨row, hrow, rfl⟩, rfl⟩
  · rintro ⟨⟨row, hrow, hid⟩, hscore⟩
    exact ⟨row, hrow, Entry.ext hid (hid ▸ hscore)⟩

theorem oneEach_totals (c : Collection Int64) : OneEach c.totals := by
  intro a ha b hb hid
  rw [mem_totals] at ha hb
  rw [hid, hb] at ha
  exact Entry.ext hid (Option.some.inj ha).symm

theorem totals_empty : (empty : Collection Int64).totals = ∅ :=
  List.toFinset_nil

theorem totals_nonempty {c : Collection Int64} : c.totals.Nonempty ↔ c.rows ≠ [] := by
  rw [totals, List.toFinset_nonempty_iff, ne_eq, List.map_eq_nil_iff]

theorem toInt_getD_total? {c : Collection Int64} {identity : Int64}
    (h : IsWord (c.multiplicity identity)) :
    ((c.total? identity).getD 0).toInt = c.multiplicity identity := by
  unfold total?
  split
  · exact h.toInt_ofInt
  · rename_i hrow
    exact (multiplicity_eq_zero hrow).symm

def tally (c : Collection Int64) (identity delta : Int64) : Collection Int64 :=
  ⟨c.rows ++ [(identity, delta.toInt)]⟩

theorem multiplicity_tally (c : Collection Int64) (identity delta i : Int64) :
    (c.tally identity delta).multiplicity i =
      c.multiplicity i + if identity = i then delta.toInt else 0 := by
  rw [tally, multiplicity_append, multiplicity_cons]
  exact congrArg (_ + ·) (Int.add_zero _)

theorem total?_tally (c : Collection Int64) (identity delta i : Int64) :
    (c.tally identity delta).total? i =
      if identity = i then some (.ofInt (c.multiplicity identity + delta.toInt))
      else c.total? i := by
  rw [total?, multiplicity_tally]
  have hrows : i ∈ (c.tally identity delta).rows.map Prod.fst ↔
      i ∈ c.rows.map Prod.fst ∨ identity = i := by
    show i ∈ (c.rows ++ [(identity, delta.toInt)]).map Prod.fst ↔ _
    rw [List.map_append, List.mem_append, List.map_singleton, List.mem_singleton, eq_comm (a := i)]
  by_cases h : identity = i
  · rw [if_pos (hrows.2 (.inr h)), if_pos h, if_pos h, h]
  · rw [if_neg h, if_neg h, Int.add_zero, total?]
    exact if_congr (hrows.trans (or_iff_left h)) rfl rfl

theorem isWord_tally {c : Collection Int64} {identity delta : Int64}
    (h : ∀ i, IsWord (c.multiplicity i))
    (hword : IsWord (c.multiplicity identity + delta.toInt)) (i : Int64) :
    IsWord ((c.tally identity delta).multiplicity i) := by
  rw [multiplicity_tally]
  split
  · rename_i hi
    rw [← hi]
    exact hword
  · rw [Int.add_zero]
    exact h i

theorem raises_tally {c : Collection Int64} {identity delta : Int64}
    (hold : IsWord (c.multiplicity identity))
    (hnew : IsWord (c.multiplicity identity + delta.toInt))
    (hdelta : identity ∈ c.rows.map Prod.fst → 0 ≤ delta) :
    Raises c.totals (c.tally identity delta).totals := by
  refine ⟨oneEach_totals _, oneEach_totals _, ?_⟩
  intro a ha
  rw [mem_totals] at ha
  by_cases hid : identity = a.identity
  · refine ⟨⟨identity, .ofInt (c.multiplicity identity + delta.toInt)⟩, ?_, hid, ?_⟩
    · rw [mem_totals, total?_tally, if_pos rfl]
    · obtain ⟨hrow, hscore⟩ := total?_eq_some.1 (hid ▸ ha)
      have hdelta : 0 ≤ delta.toInt := Int64.le_iff_toInt_le.1 (hdelta hrow)
      show a.score ≤ Int64.ofInt (c.multiplicity identity + delta.toInt)
      rw [← hscore, Int64.le_iff_toInt_le, hold.toInt_ofInt, hnew.toInt_ofInt]
      exact Int.le_add_of_nonneg_right hdelta
  · refine ⟨a, ?_, rfl, Int64.le_refl _⟩
    rw [mem_totals, total?_tally, if_neg hid]
    exact ha

/-- Counting up brings one new total, which no identity had before. -/
theorem totals_tally_sdiff {c : Collection Int64} {identity delta : Int64}
    (hold : IsWord (c.multiplicity identity))
    (hnew : IsWord (c.multiplicity identity + delta.toInt)) (hdelta : delta.toInt ≠ 0) :
    (c.tally identity delta).totals \ c.totals =
      {⟨identity, .ofInt (c.multiplicity identity + delta.toInt)⟩} := by
  ext e
  rw [Finset.mem_sdiff, mem_totals, mem_totals, total?_tally, Finset.mem_singleton, Entry.ext_iff]
  by_cases hid : identity = e.identity
  · rw [if_pos hid, Option.some_inj, ← hid, total?_eq_some, eq_comm (a := e.score)]
    refine ⟨fun h => ⟨rfl, h.1⟩, fun h => ⟨h.2, fun hscore => hdelta ?_⟩⟩
    have hsame := congrArg Int64.toInt (hscore.2.trans h.2.symm)
    rw [hold.toInt_ofInt, hnew.toInt_ofInt] at hsame
    omega
  · rw [if_neg hid]
    exact iff_of_false (fun h => h.2 h.1) fun h => hid h.1.symm

end Collection

end TopCharts
