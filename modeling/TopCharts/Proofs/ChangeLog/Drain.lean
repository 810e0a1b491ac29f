import TopCharts.ChangeLog
import TopCharts.Proofs.Attempt
import TopCharts.Proofs.Collection.Multiplicity
import TopCharts.Proofs.Comparison

/-!
# What a drain delivers

* `Weighted.place` : where a change counts: its time, its key and its entry;
* `net changes place` : the sum of the weights recorded at a place;
* `consolidate_eq_ok` : summing neighbours in a list sorted by place leaves each place once, with
  its net weight;
* `drainOrder` : the order of a drain, by time and then as updates are;
* `updates_eq_ok` : a drain delivers one update for each place whose net weight is not zero, a
  retraction if it is negative, in the order of a drain;
* `exists_updates_eq_ok` : a drain of changes at different places cannot overflow, unless a weight
  has no magnitude.
-/

namespace TopCharts

open Attempt
open Std (TransOrd LawfulEqOrd)

variable {κ τ : Type}

/-! ## Places and net weights -/

def Weighted.place (r : Weighted κ τ) : τ × κ × Entry :=
  (r.time, r.key, r.entry)

section

variable [DecidableEq κ] [DecidableEq τ]

def net (changes : List (Weighted κ τ)) (place : τ × κ × Entry) : Int :=
  (⟨changes.map fun r => (r.place, r.diff.toInt)⟩ : Collection _).multiplicity place

theorem net_cons (r : Weighted κ τ) (rs : List (Weighted κ τ)) (x : τ × κ × Entry) :
    net (r :: rs) x = (if r.place = x then r.diff.toInt else 0) + net rs x :=
  Collection.multiplicity_cons _ _ x

theorem net_append (rs rs' : List (Weighted κ τ)) (x : τ × κ × Entry) :
    net (rs ++ rs') x = net rs x + net rs' x := by
  rw [net, List.map_append]
  exact Collection.multiplicity_append _ _ x

theorem net_perm {rs rs' : List (Weighted κ τ)} (h : rs.Perm rs') (x : τ × κ × Entry) :
    net rs x = net rs' x :=
  Collection.multiplicity_perm (h.map _) x

theorem net_eq_zero {rs : List (Weighted κ τ)} {x : τ × κ × Entry}
    (h : ∀ r ∈ rs, r.place ≠ x) : net rs x = 0 := by
  apply Collection.multiplicity_eq_zero
  intro hx
  rw [List.map_map, List.mem_map] at hx
  obtain ⟨r, hr, hplace⟩ := hx
  exact h r hr hplace

theorem net_add {sum r : Weighted κ τ} {diff : Int64} (hplace : sum.place = r.place)
    (hdiff : diff.toInt = sum.diff.toInt + r.diff.toInt) (rs : List (Weighted κ τ))
    (x : τ × κ × Entry) : net ({ sum with diff } :: rs) x = net (sum :: r :: rs) x := by
  rw [net_cons, net_cons, net_cons, ← hplace]
  show (if sum.place = x then diff.toInt else 0) + _ = _
  split
  · rw [hdiff, Int.add_assoc]
  · rw [Int.zero_add, Int.zero_add]

theorem exists_place_eq {rs : List (Weighted κ τ)} {x : τ × κ × Entry} (h : net rs x ≠ 0) :
    ∃ r ∈ rs, r.place = x :=
  Classical.not_not.1 fun hnone => h (net_eq_zero fun r hr hplace => hnone ⟨r, hr, hplace⟩)

theorem exists_time_eq {rs : List (Weighted κ τ)} {t : τ} {u : Update κ}
    (h : u.change = .remove ∧ net rs (t, u.key, u.entry) < 0 ∨
      u.change = .add ∧ 0 < net rs (t, u.key, u.entry)) : ∃ r ∈ rs, r.time = t := by
  obtain ⟨r, hr, hplace⟩ : ∃ r ∈ rs, r.place = (t, u.key, u.entry) := by
    apply exists_place_eq
    intro hzero
    rw [hzero] at h
    simp at h
  exact ⟨r, hr, congrArg Prod.fst hplace⟩

end

/-! ## Consolidation -/

namespace Weighted

variable [Ord κ] [Ord τ]

theorem comparePlace_eq_iff [LawfulEqOrd κ] [LawfulEqOrd τ] {a b : Weighted κ τ} :
    comparePlace a b = .eq ↔ a.place = b.place := by
  rw [comparePlace, compareLex_eq_eq, compareLex_eq_eq, place, place, Prod.mk.injEq, Prod.mk.injEq]
  simp only [compareOn, LawfulEqOrd.compare_eq_iff_eq]

theorem place_of_mem_go {sum : Weighted κ τ} {rs sums : List (Weighted κ τ)}
    (h : consolidate.go sum rs = .ok sums) {s : Weighted κ τ} (hs : s ∈ sums) :
    ∃ r ∈ sum :: rs, r.place = s.place := by
  induction rs generalizing sum sums with
  | nil =>
    unfold consolidate.go at h
    rw [← Except.ok.inj h] at hs
    exact ⟨sum, List.mem_cons_self, by rw [List.mem_singleton.1 hs]⟩
  | cons r rs ih =>
    unfold consolidate.go at h
    split at h
    · obtain ⟨diff, -, h⟩ := bind_eq_ok.1 h
      obtain ⟨a, ha, hplace⟩ := ih h hs
      rcases List.mem_cons.1 ha with rfl | ha
      · exact ⟨sum, List.mem_cons_self, hplace⟩
      · exact ⟨a, List.mem_cons_of_mem _ (List.mem_cons_of_mem _ ha), hplace⟩
    · obtain ⟨rest, hrest, h⟩ := bind_eq_ok.1 h
      rw [← pure_eq_ok.1 h] at hs
      rcases List.mem_cons.1 hs with rfl | hs
      · exact ⟨s, List.mem_cons_self, rfl⟩
      · obtain ⟨a, ha, hplace⟩ := ih hrest hs
        exact ⟨a, List.mem_cons_of_mem _ ha, hplace⟩

theorem net_go [LawfulEqOrd κ] [LawfulEqOrd τ] [DecidableEq κ] [DecidableEq τ]
    {sum : Weighted κ τ} {rs sums : List (Weighted κ τ)}
    (h : consolidate.go sum rs = .ok sums) (x : τ × κ × Entry) :
    net sums x = net (sum :: rs) x := by
  induction rs generalizing sum sums with
  | nil =>
    unfold consolidate.go at h
    rw [← Except.ok.inj h]
  | cons r rs ih =>
    unfold consolidate.go at h
    split at h
    · rename_i heq
      obtain ⟨diff, hdiff, h⟩ := bind_eq_ok.1 h
      rw [ih h, net_add (comparePlace_eq_iff.1 heq) (Checked.addInt_eq_ok_iff.1 hdiff).symm]
    · obtain ⟨rest, hrest, h⟩ := bind_eq_ok.1 h
      rw [← pure_eq_ok.1 h, net_cons, ih hrest, ← net_cons]

theorem net_of_mem [LawfulEqOrd κ] [LawfulEqOrd τ] [DecidableEq κ] [DecidableEq τ]
    {sums : List (Weighted κ τ)}
    (hsorted : sums.Pairwise fun a b => comparePlace a b = .lt) {s : Weighted κ τ}
    (hs : s ∈ sums) : net sums s.place = s.diff.toInt := by
  induction hsorted with
  | nil => cases hs
  | @cons r rs hr _ ih =>
    have hne (a : Weighted κ τ) (ha : a ∈ rs) : r.place ≠ a.place := by
      intro hplace
      rw [← comparePlace_eq_iff, hr a ha] at hplace
      cases hplace
    rw [net_cons]
    rcases List.mem_cons.1 hs with rfl | hs
    · rw [if_pos rfl, net_eq_zero fun a ha => (hne a ha).symm, Int.add_zero]
    · rw [if_neg (hne s hs), ih hs, Int.zero_add]

theorem consolidate_of_nodup [LawfulEqOrd κ] [LawfulEqOrd τ] {rs : List (Weighted κ τ)}
    (h : (rs.map place).Nodup) : consolidate rs = .ok rs := by
  have hgo (rs : List (Weighted κ τ)) (sum : Weighted κ τ) (h : ((sum :: rs).map place).Nodup) :
      consolidate.go sum rs = .ok (sum :: rs) := by
    induction rs generalizing sum with
    | nil =>
      unfold consolidate.go
      rfl
    | cons r rs ih =>
      rw [List.map_cons, List.nodup_cons] at h
      have hne : comparePlace sum r ≠ .eq := fun heq =>
        h.1 (comparePlace_eq_iff.1 heq ▸ List.mem_map_of_mem List.mem_cons_self)
      unfold consolidate.go
      rw [if_neg hne, ih r h.2]
      rfl
  cases rs with
  | nil => rfl
  | cons r rs => exact hgo rs r h

variable [TransOrd κ] [LawfulEqOrd κ] [TransOrd τ] [LawfulEqOrd τ]

instance : Std.TransCmp (comparePlace : Weighted κ τ → Weighted κ τ → Ordering) :=
  inferInstanceAs (Std.TransCmp
    (compareLex (compareOn time) (compareLex (compareOn key) (compareOn entry))))

omit [LawfulEqOrd κ] [LawfulEqOrd τ] in
/-- A change whose neighbour is at another place lies strictly before all that follows it. -/
theorem lt_of_sorted {a r : Weighted κ τ} {rs : List (Weighted κ τ)}
    (hsorted : (a :: r :: rs).Pairwise fun a b => (comparePlace a b).isLE)
    (hne : comparePlace a r ≠ .eq) : ∀ b ∈ r :: rs, comparePlace a b = .lt := by
  obtain ⟨ha, hrs⟩ := List.pairwise_cons.1 hsorted
  have hlt : comparePlace a r = .lt :=
    (Ordering.isLE_iff_eq_lt_or_eq_eq.1 (ha r List.mem_cons_self)).resolve_right hne
  intro b hb
  rcases List.mem_cons.1 hb with rfl | hb
  · exact hlt
  · exact Std.TransCmp.lt_of_lt_of_isLE hlt ((List.pairwise_cons.1 hrs).1 b hb)

theorem pairwise_go {sum : Weighted κ τ} {rs sums : List (Weighted κ τ)}
    (h : consolidate.go sum rs = .ok sums)
    (hsorted : (sum :: rs).Pairwise fun a b => (comparePlace a b).isLE) :
    sums.Pairwise fun a b => comparePlace a b = .lt := by
  induction rs generalizing sum sums with
  | nil =>
    unfold consolidate.go at h
    rw [← Except.ok.inj h]
    exact List.pairwise_singleton _ _
  | cons r rs ih =>
    obtain ⟨hsum, hrs⟩ := List.pairwise_cons.1 hsorted
    unfold consolidate.go at h
    split at h
    · rename_i heq
      obtain ⟨diff, -, h⟩ := bind_eq_ok.1 h
      refine ih h (List.pairwise_cons.2 ⟨?_, hrs.tail⟩)
      intro a ha
      exact hsum a (List.mem_cons_of_mem _ ha)
    · rename_i hne
      obtain ⟨rest, hrest, h⟩ := bind_eq_ok.1 h
      rw [← pure_eq_ok.1 h]
      refine List.pairwise_cons.2 ⟨?_, ih hrest hrs⟩
      intro s hs
      obtain ⟨a, ha, hplace⟩ := place_of_mem_go hrest hs
      rw [← Std.TransCmp.congr_right (comparePlace_eq_iff.2 hplace)]
      exact lt_of_sorted hsorted hne a ha

/-- **Consolidation.** In a list sorted by place, each place is left once, with its net weight. -/
theorem consolidate_eq_ok [DecidableEq κ] [DecidableEq τ] {rs sums : List (Weighted κ τ)}
    (h : consolidate rs = .ok sums)
    (hsorted : rs.Pairwise fun a b => (comparePlace a b).isLE) :
    (sums.Pairwise fun a b => comparePlace a b = .lt) ∧ ∀ x, net sums x = net rs x := by
  cases rs with
  | nil =>
    rw [← Except.ok.inj h]
    exact ⟨.nil, fun x => rfl⟩
  | cons r rs => exact ⟨pairwise_go h hsorted, net_go h⟩

end Weighted

/-! ## Draining -/

namespace Weighted

def timed (r : Weighted κ τ) : τ × Update κ :=
  (r.time, ⟨r.key, if r.diff < 0 then .remove else .add, r.entry⟩)

theorem change_timed_eq_iff {r : Weighted κ τ} (h : r.diff ≠ 0) {change : Change} :
    r.timed.2.change = change ↔
      change = .remove ∧ r.diff.toInt < 0 ∨ change = .add ∧ 0 < r.diff.toInt := by
  have hne : r.diff.toInt ≠ 0 := fun h0 => h (Int64.toInt_inj.1 h0)
  have hneg : r.diff < 0 ↔ r.diff.toInt < 0 := Int64.lt_iff_toInt_lt
  cases change with
  | remove =>
    simp only [timed, ite_eq_left_iff, reduceCtorEq, imp_false, Decidable.not_not, true_and,
      false_and, or_false, hneg]
  | add =>
    simp only [timed, ite_eq_right_iff, reduceCtorEq, imp_false, true_and, false_and, false_or,
      hneg]
    omega

theorem eq_timed_of_toUpdate {r : Weighted κ τ} {u : τ × Update κ} (h : r.toUpdate = .ok u) :
    r.timed = u := by
  unfold toUpdate at h
  split at h
  · rename_i hneg
    obtain ⟨_, -, h⟩ := bind_eq_ok.1 h
    rw [← pure_eq_ok.1 h, timed, if_pos hneg]
  · rename_i hneg
    obtain ⟨_, -, h⟩ := bind_eq_ok.1 h
    rw [← pure_eq_ok.1 h, timed, if_neg hneg]

theorem toUpdate_eq_ok {r : Weighted κ τ} (h : r.diff ≠ Int64.minValue) :
    r.toUpdate = .ok r.timed := by
  unfold toUpdate
  split
  · rename_i hneg
    rw [Checked.negInt, if_neg h, timed, if_pos hneg]
    rfl
  · rename_i hneg
    rw [timed, if_neg hneg]
    rfl

theorem mapM_toUpdate {rs : List (Weighted κ τ)} {us : List (τ × Update κ)}
    (h : rs.mapM toUpdate = .ok us) : rs.map timed = us := by
  induction rs generalizing us with
  | nil => exact pure_eq_ok.1 h
  | cons r rs ih =>
    rw [List.mapM_cons] at h
    obtain ⟨u, hu, h⟩ := bind_eq_ok.1 h
    obtain ⟨us', hus, h⟩ := bind_eq_ok.1 h
    rw [← pure_eq_ok.1 h, List.map_cons, eq_timed_of_toUpdate hu, ih hus]

/-- Sums at different places stand for different updates. -/
theorem nodup_map_timed [Ord κ] [Ord τ] [LawfulEqOrd κ] [LawfulEqOrd τ]
    {sums : List (Weighted κ τ)} (h : sums.Pairwise fun a b => comparePlace a b = .lt) :
    (sums.map timed).Nodup := by
  refine List.pairwise_map.2 (h.imp fun {a b} hab heq => ?_)
  obtain ⟨htime, hupdate⟩ := Prod.mk.inj heq
  obtain ⟨hkey, -, hentry⟩ := Update.mk.inj hupdate
  have hplace : comparePlace a b = .eq :=
    comparePlace_eq_iff.2 (Prod.ext htime (Prod.ext hkey hentry))
  rw [hab] at hplace
  cases hplace

end Weighted

/-- Within a key, nothing but additions follows an addition. -/
theorem Update.change_of_lt [Ord κ] [TransOrd κ] {u v : Update κ} (h : compare u v = .lt)
    (hkey : u.key = v.key) (hu : u.change = .add) : v.change = .add := by
  cases hv : v.change with
  | add => rfl
  | remove =>
    have hgt : compare u v = .gt := by
      show (compare u.key v.key).then ((compare u.change v.change).then _) = .gt
      rw [hkey, Std.ReflOrd.compare_self, hu, hv]
      rfl
    rw [hgt] at h
    cases h

def drainOrder [Ord κ] [Ord τ] : τ × Update κ → τ × Update κ → Ordering :=
  compareLex (compareOn Prod.fst) (compareOn Prod.snd)

section

variable [Ord κ] [Ord τ]

theorem drainOrder_eq_lt [LawfulEqOrd τ] {a b : τ × Update κ} :
    drainOrder a b = .lt ↔
      compare a.1 b.1 = .lt ∨ a.1 = b.1 ∧ compare a.2 b.2 = .lt := by
  show (compare a.1 b.1).then (compare a.2 b.2) = .lt ↔ _
  rw [Ordering.then_eq_lt, LawfulEqOrd.compare_eq_iff_eq]

variable [TransOrd κ] [TransOrd τ]

instance : Std.TransCmp (drainOrder : τ × Update κ → τ × Update κ → Ordering) :=
  inferInstanceAs (Std.TransCmp (compareLex (compareOn Prod.fst) (compareOn Prod.snd)))

instance [LawfulEqOrd κ] [LawfulEqOrd τ] :
    Std.LawfulEqCmp (drainOrder : τ × Update κ → τ × Update κ → Ordering) where
  eq_of_compare h := by
    obtain ⟨ht, hu⟩ := compareLex_eq_eq.1 h
    exact Prod.ext (LawfulEqOrd.eq_of_compare ht) (LawfulEqOrd.eq_of_compare hu)

end

namespace ChangeLog

variable [Ord κ] [TransOrd κ] [LawfulEqOrd κ] [DecidableEq κ] [Ord τ] [TransOrd τ] [LawfulEqOrd τ]
  [DecidableEq τ]

theorem diff_of_mem_sums {changes sums : List (Weighted κ τ)}
    (h : Weighted.consolidate
      (changes.mergeSort fun a b => (Weighted.comparePlace a b).isLE) = .ok sums)
    {s : Weighted κ τ} (hs : s ∈ sums) : s.diff.toInt = net changes s.place := by
  obtain ⟨hsorted, hnet⟩ :=
    Weighted.consolidate_eq_ok h (pairwise_mergeSort_isLE Weighted.comparePlace _)
  rw [← net_perm (List.mergeSort_perm _ _), ← hnet, Weighted.net_of_mem hsorted hs]

/-- **What a drain delivers**: a retraction where the net weight is negative, an addition where it
is positive, ordered by time, then key, with retractions first. -/
theorem updates_eq_ok {changes : List (Weighted κ τ)} {us : List (Update κ)}
    (h : updates changes = .ok us) :
    ∃ timed : List (τ × Update κ), timed.map Prod.snd = us ∧
      (timed.Pairwise fun a b => drainOrder a b = .lt) ∧
      ∀ t u, (t, u) ∈ timed ↔
        u.change = .remove ∧ net changes (t, u.key, u.entry) < 0 ∨
        u.change = .add ∧ 0 < net changes (t, u.key, u.entry) := by
  obtain ⟨sums, hsums, h⟩ := bind_eq_ok.1 h
  obtain ⟨timed, htimed, h⟩ := bind_eq_ok.1 h
  obtain ⟨hsorted, hnet⟩ :=
    Weighted.consolidate_eq_ok hsums (pairwise_mergeSort_isLE Weighted.comparePlace _)
  have hnodup : timed.Nodup := by
    rw [← Weighted.mapM_toUpdate htimed]
    exact Weighted.nodup_map_timed (hsorted.filter _)
  refine ⟨_, pure_eq_ok.1 h, pairwise_mergeSort_lt drainOrder hnodup, ?_⟩
  intro t u
  rw [List.mem_mergeSort, ← Weighted.mapM_toUpdate htimed, List.mem_map]
  constructor
  · rintro ⟨s, hs, heq⟩
    obtain ⟨rfl, rfl⟩ : s.timed.1 = t ∧ s.timed.2 = u := Prod.mk.inj heq
    obtain ⟨hs, hne⟩ := List.mem_filter.1 hs
    have hchange := (Weighted.change_timed_eq_iff (of_decide_eq_true hne)).1 rfl
    rw [diff_of_mem_sums hsums hs] at hchange
    exact hchange
  · intro hchange
    obtain ⟨s, hs, hplace⟩ : ∃ s ∈ sums, s.place = (t, u.key, u.entry) := by
      apply exists_place_eq
      intro hzero
      rw [← net_perm (List.mergeSort_perm _ _), ← hnet, hzero] at hchange
      simp at hchange
    rw [← hplace, ← diff_of_mem_sums hsums hs] at hchange
    have hne : s.diff ≠ 0 := by
      intro h0
      rw [h0] at hchange
      simp at hchange
    refine ⟨s, List.mem_filter.2 ⟨hs, decide_eq_true hne⟩, ?_⟩
    obtain ⟨ht, hk, he⟩ : s.time = t ∧ s.key = u.key ∧ s.entry = u.entry := by
      simpa [Weighted.place] using hplace
    exact Prod.ext ht (Update.ext hk ((Weighted.change_timed_eq_iff hne).2 hchange) he)

omit [TransOrd κ] [DecidableEq κ] [TransOrd τ] [DecidableEq τ] in
/-- **A drain of changes at different places** succeeds. -/
theorem exists_updates_eq_ok {changes : List (Weighted κ τ)}
    (hplaces : (changes.map Weighted.place).Nodup)
    (hdiff : ∀ r ∈ changes, r.diff ≠ Int64.minValue) : ∃ us, updates changes = .ok us := by
  have hperm := List.mergeSort_perm changes fun a b => (Weighted.comparePlace a b).isLE
  have hsums := Weighted.consolidate_of_nodup ((hperm.map Weighted.place).nodup_iff.2 hplaces)
  obtain ⟨timed, htimed⟩ : ∃ timed, ((changes.mergeSort fun a b =>
      (Weighted.comparePlace a b).isLE).filter (·.diff ≠ 0)).mapM Weighted.toUpdate = .ok timed := by
    refine ⟨_, mapM_eq_ok fun r hr => Weighted.toUpdate_eq_ok (hdiff r ?_)⟩
    exact List.mem_mergeSort.1 (List.mem_filter.1 hr).1
  exact ⟨_, bind_eq_ok.2 ⟨_, hsums, bind_eq_ok.2 ⟨timed, htimed, rfl⟩⟩⟩

end ChangeLog

end TopCharts
