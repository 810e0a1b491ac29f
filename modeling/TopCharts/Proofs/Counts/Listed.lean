import TopCharts.Proofs.Counts.Tallies
import TopCharts.Proofs.Rank.Best

/-!
# The entries that counts list

* `Collection.listed counts key` : the entries under a key;
* `multiplicity_countChanges` : the changes between two counts are the entries that one lists and
  the other does not;
* `raises_listed` : counts of more plays or songs list every song that was listed before, with a
  score that is at least as high, if all tallies are words.
-/

namespace TopCharts

open Std (TransOrd LawfulEqOrd)

def Collection.listed (counts : Collection (Keyed String)) (key : String) : Finset Entry :=
  (((counts.rows.map Prod.fst).filter fun r => r.key = key ∧ counts.multiplicity r ≠ 0).map
    Keyed.entry).toFinset

theorem Collection.mem_listed {counts : Collection (Keyed String)} {key : String} {e : Entry} :
    e ∈ counts.listed key ↔ counts.multiplicity ⟨key, e⟩ ≠ 0 := by
  rw [listed, List.mem_toFinset, List.mem_map]
  constructor
  · rintro ⟨r, hr, rfl⟩
    obtain ⟨rfl, hne⟩ := of_decide_eq_true (List.mem_filter.1 hr).2
    exact hne
  · intro hne
    refine ⟨⟨key, e⟩, List.mem_filter.2 ⟨?_, decide_eq_true ⟨rfl, hne⟩⟩, rfl⟩
    exact Classical.not_not.1 fun hrow => hne (multiplicity_eq_zero hrow)

section

variable {plays plays' : Collection Int64} {songs songs' : Collection Song} {key : String}
  {e : Entry}

theorem mem_listed_playCounts :
    e ∈ (playCounts plays songs).listed key ↔
      plays.multiplicity e.identity * songs.keyed ⟨key, e.identity⟩ ≠ 0 ∧
        e.score = .ofInt (plays.multiplicity e.identity * songs.keyed ⟨key, e.identity⟩) := by
  rw [Collection.mem_listed, multiplicity_playCounts]
  split
  · rename_i h
    exact iff_of_true one_ne_zero h
  · rename_i h
    exact iff_of_false (fun h => h rfl) h

theorem multiplicity_playCounts_eq_ite (plays : Collection Int64) (songs : Collection Song)
    (key : String) (e : Entry) :
    (playCounts plays songs).multiplicity ⟨key, e⟩ =
      if e ∈ (playCounts plays songs).listed key then 1 else 0 := by
  simp only [mem_listed_playCounts]
  exact multiplicity_playCounts plays songs key e

/-! ## Changes -/

theorem multiplicity_countChanges (key : String) (e : Entry) :
    (countChanges (playCounts plays songs) (playCounts plays' songs')).multiplicity ⟨key, e⟩ =
      (if e ∈ (playCounts plays' songs').listed key then 1 else 0) -
        if e ∈ (playCounts plays songs).listed key then 1 else 0 := by
  rw [countChanges, Collection.multiplicity_consolidate, Collection.multiplicity_eq_sum,
    Collection.sum_append, Collection.sum_negate, ← Collection.multiplicity_eq_sum,
    ← Collection.multiplicity_eq_sum, multiplicity_playCounts_eq_ite,
    multiplicity_playCounts_eq_ite]
  rfl

/-- Every change has a weight of one. -/
theorem weight_of_mem_countChanges {row : Keyed String × Int}
    (h : row ∈ (countChanges (playCounts plays songs) (playCounts plays' songs')).rows) :
    row.2 = 1 ∨ row.2 = -1 := by
  obtain ⟨⟨key, e⟩, n⟩ := row
  obtain ⟨hn, hne⟩ := Collection.mem_consolidate.1 h
  rw [← Collection.multiplicity_consolidate, ← countChanges, multiplicity_countChanges] at hn
  show n = 1 ∨ n = -1
  split at hn <;> split at hn <;> omega

/-! ## Growth -/

theorem oneEach_listed (plays : Collection Int64) (songs : Collection Song) (key : String) :
    OneEach ((playCounts plays songs).listed key) := by
  intro a ha b hb hid
  obtain ⟨-, ha⟩ := mem_listed_playCounts.1 ha
  obtain ⟨-, hb⟩ := mem_listed_playCounts.1 hb
  refine Entry.ext hid ?_
  rw [ha, hb, hid]

/-- **Scores only rise** when the tallies do. -/
theorem raises_listed
    (hpos : ∀ t : Tally String, 0 ≤ plays.multiplicity t.identity * songs.keyed t)
    (hle : ∀ t : Tally String, plays.multiplicity t.identity * songs.keyed t ≤
      plays'.multiplicity t.identity * songs'.keyed t)
    (hword : ∀ t : Tally String, IsWord (plays'.multiplicity t.identity * songs'.keyed t))
    (key : String) :
    Raises ((playCounts plays songs).listed key) ((playCounts plays' songs').listed key) := by
  refine ⟨oneEach_listed plays songs key, oneEach_listed plays' songs' key, ?_⟩
  intro a ha
  obtain ⟨hne, hscore⟩ := mem_listed_playCounts.1 ha
  have hpos := hpos ⟨key, a.identity⟩
  have hle := hle ⟨key, a.identity⟩
  have hword' := hword ⟨key, a.identity⟩
  have hword : IsWord (plays.multiplicity a.identity * songs.keyed ⟨key, a.identity⟩) := by
    rw [IsWord, Int64.toInt_minValue, Int64.toInt_maxValue] at hword' ⊢
    dsimp only at hpos hle hword'
    omega
  refine ⟨⟨a.identity, .ofInt (plays'.multiplicity a.identity * songs'.keyed ⟨key, a.identity⟩)⟩,
    mem_listed_playCounts.2 ⟨?_, rfl⟩, rfl, ?_⟩
  · dsimp only at hpos hle ⊢
    omega
  · rw [hscore, Int64.le_iff_toInt_le, hword.toInt_ofInt, hword'.toInt_ofInt]
    exact hle

end

end TopCharts
