import TopCharts.Proofs.Chart.Built
import TopCharts.Proofs.Rank.Best

/-!
# A retraction and an addition, in either order

A change of a value takes back the old entry and then delivers the new one. If the addition comes
first it may find the chart full, and pushes an entry out that the retraction would have made room
for.

* `Chart.uncut c e` : the entries of `c` with `e` in place of the entry of its identity, before they
  are cut off after `k`. There a retraction and an addition may be exchanged (`Sound.uncut_remove`);
  only the cut makes a difference;
* `Sound.exchange_of_fits`, `Sound.exchange_of_full` : both orders, when nothing is cut off and when
  an entry is. `Sound.lt_length_uncut` : when an entry is cut off;
* `Chart.lowestWith c e` : the lowest ranked of the entries of `c` together with `e`. It is what is
  cut off (`Sound.exists_uncut_eq`);
* `OrderMatters c old new` : the condition on which the lowest entry is lost
  (`Sound.exchange_of_orderMatters`), and without which both orders agree (`Sound.exchange_eq`);
* `exchange_ne_iff` : when exactly the order matters, and what is lost then.
-/

namespace TopCharts.Chart

variable {k : Nat} {c : Chart k} {old new e a : Entry}

/-! ## The ranking before it is cut off -/

/-- The entries of a chart with `e` in place of the entry of its identity, in rank order. -/
def uncut (c : Chart k) (e : Entry) : List Entry :=
  e.insertRanked (e.others c.toList)

theorem mem_uncut : a ∈ c.uncut e ↔ a = e ∨ a ∈ c.toList ∧ a.identity ≠ e.identity := by
  rw [uncut, Entry.mem_insertRanked, Entry.mem_others]

namespace Sound

theorem ranked_uncut (h : c.Sound) (e : Entry) : Ranked (c.uncut e) :=
  h.ranked_others e

/-- An entry is cut off when the chart is full and does not rank the identity yet. -/
theorem lt_length_uncut (h : c.Sound) (e : Entry) :
    k < (c.uncut e).length ↔ c.size = k ∧ ∀ a ∈ c.toList, a.identity ≠ e.identity := by
  have hnew : e ∉ e.others c.toList := fun he => (Entry.mem_others.1 he).2 rfl
  have hothers : (e.others c.toList).length ≤ c.size := List.length_filter_le _ _
  have hsize : c.size ≤ k := h.length_le
  have hall : (e.others c.toList).length = c.size ↔ ∀ a ∈ c.toList, a.identity ≠ e.identity := by
    rw [Entry.others, size, ← toList, List.length_filter_eq_length_iff]
    simp only [decide_eq_true_eq]
  rw [uncut, Entry.length_insertRanked hnew, ← hall]
  omega

theorem uncut_remove (h : c.Sound) (hne : old ≠ new) :
    (c.remove old).2.uncut new = (c.uncut new).erase old := by
  have hranked := h.ranked_uncut new
  refine Ranked.ext ((h.remove old).ranked_uncut new) (hranked.sublist List.erase_sublist) ?_
  intro a
  rw [hranked.mem_erase, mem_uncut, mem_uncut, h.mem_remove]
  constructor
  · rintro (rfl | ⟨⟨hold, ha⟩, hid⟩)
    · exact ⟨hne.symm, .inl rfl⟩
    · exact ⟨hold, .inr ⟨ha, hid⟩⟩
  · rintro ⟨hold, rfl | ⟨ha, hid⟩⟩
    · exact .inl rfl
    · exact .inr ⟨⟨hold, ha⟩, hid⟩

/-! ## The two orders -/

theorem toList_remove_add (h : c.Sound) (hne : old ≠ new) :
    ((c.remove old).2.add new).2.toList = ((c.uncut new).erase old).take k := by
  rw [(h.remove old).toList_add, ← h.uncut_remove hne]
  rfl

theorem toList_add_remove (h : c.Sound) (old new : Entry) :
    ((c.add new).2.remove old).2.toList = ((c.uncut new).take k).erase old := by
  rw [toList_remove, h.toList_add]
  rfl

theorem exchange_of_fits (h : c.Sound) (hne : old ≠ new) (hfits : (c.uncut new).length ≤ k) :
    ((c.add new).2.remove old).2 = ((c.remove old).2.add new).2 := by
  refine ((h.add new).remove old).ext ((h.remove old).add new) ?_
  rw [h.toList_add_remove, h.toList_remove_add hne, List.take_of_length_le hfits,
    List.take_of_length_le (List.erase_sublist.length_le.trans hfits)]

/-- If an entry is cut off, the retraction saves it when it comes first and frees a place. -/
theorem exchange_of_full (h : c.Sound) (hne : old ≠ new) {front : List Entry} {last : Entry}
    (huncut : c.uncut new = front ++ [last]) (hfront : front.length = k) :
    ((c.add new).2.remove old).2.toList = front.erase old ∧
      ((c.remove old).2.add new).2.toList =
        if old ∈ front then front.erase old ++ [last] else front := by
  rw [h.toList_add_remove, h.toList_remove_add hne, huncut]
  refine ⟨by rw [← hfront, List.take_left], ?_⟩
  split
  · rename_i hold
    have hpos := List.length_pos_of_mem hold
    rw [List.erase_append_left _ hold, List.take_of_length_le]
    rw [List.length_append, List.length_erase_of_mem hold, List.length_singleton]
    omega
  · rename_i hold
    rw [List.erase_append_right _ hold, ← hfront, List.take_left]

end Sound

/-! ## When the order matters -/

/-- The lowest ranked of the entries of a chart together with `e`. -/
def lowestWith (c : Chart k) (e : Entry) : Entry :=
  (insert e c.toList.toFinset).max' (Finset.insert_nonempty _ _)

/-- What is cut off is the lowest entry. -/
theorem Sound.exists_uncut_eq (h : c.Sound) (hsize : c.size = k)
    (hnew : ∀ a ∈ c.toList, a.identity ≠ e.identity) :
    ∃ front, c.uncut e = front ++ [c.lowestWith e] ∧ c.lowestWith e ∉ front ∧ front.length = k := by
  have hcut := (h.lt_length_uncut e).2 ⟨hsize, hnew⟩
  have hlength : (c.uncut e).length ≤ k + 1 := h.length_others e
  obtain hnil | ⟨front, last, huncut⟩ := List.eq_nil_or_concat (c.uncut e)
  · simp [hnil] at hcut
  · rw [List.concat_eq_append] at huncut
    have hranked : Ranked (front ++ [last]) := huncut ▸ h.ranked_uncut e
    have hnot : last ∉ front := fun hmem =>
      List.disjoint_of_nodup_append hranked.nodup hmem (List.mem_singleton_self last)
    have hmem (a : Entry) : a ∈ insert e c.toList.toFinset ↔ a ∈ front ++ [last] := by
      rw [← huncut, mem_uncut, Finset.mem_insert, List.mem_toFinset]
      exact or_congr_right (and_iff_left_of_imp (hnew a)).symm
    have hlast : c.lowestWith e = last := by
      refine (Finset.max'_eq_iff _ _ _).2 ⟨(hmem last).2 (by simp), fun a ha => ?_⟩
      rcases List.mem_append.1 ((hmem a).1 ha) with hfront | hlast
      · exact ((List.pairwise_append.1 hranked).2.2 a hfront last (List.mem_singleton_self last)).le
      · exact (List.mem_singleton.1 hlast).le
    rw [huncut, List.length_append, List.length_singleton] at hcut hlength
    subst hlast
    exact ⟨front, huncut, hnot, by omega⟩

/-- The order matters for `c`: the old entry is ranked in a full chart that does not rank the
identity of the new one, and is not the lowest of them all. -/
structure OrderMatters (c : Chart k) (old new : Entry) : Prop where
  ranked : old ∈ c.toList
  full : c.size = k
  fresh : ∀ a ∈ c.toList, a.identity ≠ new.identity
  ne_lowest : old ≠ c.lowestWith new

theorem Sound.exchange_of_orderMatters (h : c.Sound) (hne : old ≠ new)
    (hm : c.OrderMatters old new) :
    c.lowestWith new ∈ ((c.remove old).2.add new).2.toList ∧
      ((c.add new).2.remove old).2 =
        (((c.remove old).2.add new).2.remove (c.lowestWith new)).2 := by
  obtain ⟨front, huncut, hnot, hfront⟩ := h.exists_uncut_eq hm.full hm.fresh
  obtain ⟨hreversed, hordered⟩ := h.exchange_of_full hne huncut hfront
  have hold : old ∈ front := by
    have hmem : old ∈ front ++ [c.lowestWith new] :=
      huncut ▸ mem_uncut.2 (.inr ⟨hm.ranked, hm.fresh old hm.ranked⟩)
    simpa [hm.ne_lowest] using hmem
  have hlowest : c.lowestWith new ∉ front.erase old := fun hmem =>
    hnot (List.mem_of_mem_erase hmem)
  rw [if_pos hold] at hordered
  refine ⟨by simp [hordered], ?_⟩
  refine ((h.add new).remove old).ext (((h.remove old).add new).remove _) ?_
  rw [hreversed, toList_remove, hordered, List.erase_append_right _ hlowest, List.erase_cons_head,
    List.append_nil]

theorem Sound.exchange_eq (h : c.Sound) (hne : old ≠ new) (hm : ¬ c.OrderMatters old new) :
    ((c.add new).2.remove old).2 = ((c.remove old).2.add new).2 := by
  by_cases hcut : k < (c.uncut new).length
  · obtain ⟨hfull, hfresh⟩ := (h.lt_length_uncut new).1 hcut
    obtain ⟨front, huncut, hnot, hfront⟩ := h.exists_uncut_eq hfull hfresh
    obtain ⟨hreversed, hordered⟩ := h.exchange_of_full hne huncut hfront
    have hold : old ∉ front := by
      intro hold
      have hmem : old ∈ c.uncut new := huncut ▸ List.mem_append_left _ hold
      refine hm ⟨((mem_uncut.1 hmem).resolve_left hne).1, hfull, hfresh, ?_⟩
      rintro rfl
      exact hnot hold
    rw [if_neg hold] at hordered
    refine ((h.add new).remove old).ext ((h.remove old).add new) ?_
    rw [hreversed, hordered, List.erase_of_not_mem hold]
  · exact h.exchange_of_fits hne (not_lt.1 hcut)

/-- **When the order matters.** For two different entries, to add the one before the other is taken
back leaves another chart than the ordered change exactly if the old entry is ranked in a full chart
that does not rank the identity of the new one, and is not the lowest of them all. What is lost then
is the lowest entry. For two scores of one identity the order never matters. -/
theorem exchange_ne_iff (h : c.Built) (hne : old ≠ new) :
    let ordered := ((c.remove old).2.add new).2
    let reversed := ((c.add new).2.remove old).2
    let lowest := c.lowestWith new
    (reversed ≠ ordered ↔ c.OrderMatters old new) ∧
      (c.OrderMatters old new →
        lowest ∈ ordered.toList ∧ reversed = (ordered.remove lowest).2) ∧
      (old.identity = new.identity → reversed = ordered) := by
  intro ordered reversed lowest
  have hloses : c.OrderMatters old new →
      lowest ∈ ordered.toList ∧ reversed = (ordered.remove lowest).2 :=
    h.sound.exchange_of_orderMatters hne
  have hsame : ¬ c.OrderMatters old new → reversed = ordered := h.sound.exchange_eq hne
  refine ⟨⟨not_imp_comm.1 hsame, fun hm heq => ?_⟩, hloses, fun hid => hsame fun hm => ?_⟩
  · obtain ⟨hmem, hreversed⟩ := hloses hm
    have hlost : lowest ∉ (ordered.remove lowest).2.toList := fun hmem =>
      (((h.remove old).add new).sound.mem_remove.1 hmem).1 rfl
    rw [← hreversed, heq] at hlost
    exact hlost hmem
  · exact hm.fresh old hm.ranked hid

/-- A full chart of two places: the higher entry is taken back and an entry of a new identity is
added. If the addition comes first, the entry that stays is lost. It stays if the new entry is
another score of the identity that is taken back. -/
theorem exchange_ne_iff_full :
    let c : Chart 2 := ofList [⟨1, 10⟩, ⟨2, 5⟩]
    let old : Entry := ⟨1, 10⟩
    let new : Entry := ⟨3, 7⟩
    let lower : Entry := ⟨1, 4⟩
    let ordered := ((c.remove old).2.add new).2
    let reversed := ((c.add new).2.remove old).2
    c.Built ∧ (old ≠ new ∧ old ≠ lower) ∧ c.OrderMatters old new ∧ c.lowestWith new = ⟨2, 5⟩ ∧
      ordered.toList = [⟨3, 7⟩, ⟨2, 5⟩] ∧ reversed.toList = [⟨3, 7⟩] ∧ reversed ≠ ordered ∧
      reversed = (ordered.remove ⟨2, 5⟩).2 ∧
      ((c.remove old).2.add lower).2.toList = [⟨2, 5⟩, ⟨1, 4⟩] ∧
      ((c.add lower).2.remove old).2 = ((c.remove old).2.add lower).2 := by
  intro c old new lower ordered reversed
  have hbuilt : c.Built := .ofList _
  have hlowest : c.lowestWith new = ⟨2, 5⟩ := by decide
  have hm : c.OrderMatters old new := ⟨by decide, by decide, by decide, by decide⟩
  obtain ⟨hdiffers, hloses, -⟩ := exchange_ne_iff hbuilt (show old ≠ new by decide)
  obtain ⟨-, -, hidentity⟩ := exchange_ne_iff hbuilt (show old ≠ lower by decide)
  refine ⟨hbuilt, by decide, hm, hlowest, by decide, by decide, hdiffers.2 hm, ?_, by decide,
    hidentity rfl⟩
  rw [← hlowest]
  exact (hloses hm).2

end TopCharts.Chart
