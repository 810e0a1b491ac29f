import TopCharts.Proofs.Chart.RoundTrip

/-!
# Charts that can be built, and how they are represented

A chart starts empty, as the entries of a list added in turn, or as what some bytes are decoded to;
then it is changed by additions, retractions and replacements.

* `Chart.Built c` : the chart `c` comes about in this way. It is sound (`Built.sound`);
* `Sound.wellFormed` : a sound chart passes the check of its views. The check by itself would not be
  kept: it admits live entries that are not ranked, and says nothing of the order of the ranking;
* `built_representation` : what the two views of a built chart hold, that no addition and no
  retraction leaves a chart that fails the check, and that the ranking tells built charts apart.
-/

namespace TopCharts.Chart

open Std (ExtTreeMap)

variable {k : Nat} {c : Chart k}

/-- The charts that can be built: those that calls can lead to, also from a chart that is collected
from a list or decoded from bytes. -/
inductive Built : Chart k → Prop where
  | empty : Built .empty
  | ofList (es : List Entry) : Built (.ofList es)
  | decode {bytes : Option (List UInt8)} {c : Chart k} (h : decode bytes = .ok (some c)) : Built c
  | add {c : Chart k} (h : Built c) (e : Entry) : Built (c.add e).2
  | remove {c : Chart k} (h : Built c) (e : Entry) : Built (c.remove e).2
  | replace {c : Chart k} (h : Built c) (old new : Option Entry) : Built (c.replace old new).2

theorem Built.sound (h : c.Built) : c.Sound := by
  induction h with
  | empty => exact sound_empty
  | ofList es => exact sound_ofList es
  | decode h => exact sound_of_decode h
  | add _ e ih => exact ih.add e
  | remove _ e ih => exact ih.remove e
  | replace _ old new ih => exact ih.replace old new

/-! ## The check of the views -/

namespace Sound

theorem nodup_identities (h : c.Sound) : (c.ranking.map Entry.identity).Nodup :=
  h.ranked.nodup.map_on fun _ ha _ hb hid => h.live.eq_of_identity ha hb hid

theorem mem_ranking_of_mem_members (h : c.Sound) {x : Int64 × Entry} (hx : x ∈ c.members.toList) :
    x.2 ∈ c.ranking :=
  ((h.live x.1 x.2).1 (ExtTreeMap.mem_toList_iff_getElem?_eq_some.1 hx)).1

theorem members_eq_empty (h : c.Sound) (hnil : c.ranking = []) : c.members = ∅ := by
  apply ExtTreeMap.ext_getElem?
  intro i
  refine Option.eq_none_iff_forall_not_mem.2 fun e he => ?_
  simpa [hnil] using (h.live i e).1 he

/-- **A sound chart passes the check** of its views. -/
theorem wellFormed (h : c.Sound) : c.wellFormed = true := by
  have hlive : ∀ e ∈ c.ranking, c.members[e.identity]? = some e := fun e he =>
    (h.live e.identity e).2 ⟨he, rfl⟩
  unfold Chart.wellFormed
  simp only [Bool.and_eq_true, decide_eq_true_eq, List.all_eq_true]
  refine ⟨⟨⟨h.length_le, h.nodup_identities⟩, hlive⟩, ?_⟩
  split
  · rw [List.all_eq_true]
    intro x hx
    simp [h.mem_ranking_of_mem_members hx]
  · rename_i hlast
    rw [h.members_eq_empty (List.getLast?_eq_none_iff.1 hlast)]
    rfl

/-- The check alone does not carry itself: the entry of 2 is live but not ranked, which the check
admits until a lower entry is ranked. -/
example :
    let members := ((∅ : ExtTreeMap Int64 Entry).insert 1 ⟨1, 5⟩).insert 2 ⟨2, 1⟩
    let c : Chart 2 := ⟨members, [⟨1, 5⟩]⟩
    c.wellFormed = true ∧ (c.add ⟨3, 0⟩).2.wellFormed = false := by decide

end Sound

/-- **The representation of a chart.** However a chart was built, its entries are ranked in order,
at most `k` of them and each with an identity of its own, and the map by identity holds exactly
these. The chart passes its check, and so do the charts that any addition or retraction leaves. Two
built charts are equal when they list the same. -/
theorem built_representation (h : c.Built) :
    (Ranked c.ranking ∧ c.ranking.length ≤ k ∧ (c.ranking.map Entry.identity).Nodup) ∧
      (∀ i e, c.members[i]? = some e ↔ e ∈ c.ranking ∧ e.identity = i) ∧
      (c.wellFormed = true ∧
        ∀ e, (c.add e).2.wellFormed = true ∧ (c.remove e).2.wellFormed = true) ∧
      ∀ d : Chart k, d.Built → (c = d ↔ c.toList = d.toList) := by
  have hsound := h.sound
  refine ⟨⟨hsound.ranked, hsound.length_le, hsound.nodup_identities⟩, hsound.live, ?_, ?_⟩
  · exact ⟨hsound.wellFormed, fun e => ⟨(h.add e).sound.wellFormed, (h.remove e).sound.wellFormed⟩⟩
  · intro d hd
    exact ⟨congrArg toList, hsound.ext hd.sound⟩

/-- A chart of two places decoded from three entries and then changed twice, beside the chart that
is collected from the one entry it is left with. -/
theorem built_representation_decoded :
    let bytes := (ofList [⟨1, 10⟩, ⟨2, 20⟩, ⟨3, 15⟩] : Chart 3).encode
    ∃ start : Chart 2, decode (some bytes) = .ok (some start) ∧
      let c := ((start.replace (some ⟨2, 20⟩) (some ⟨2, 5⟩)).2.remove ⟨3, 15⟩).2
      let d : Chart 2 := ofList [⟨2, 5⟩]
      (c.Built ∧ d.Built) ∧ c.toList = [⟨2, 5⟩] ∧
        (Ranked c.ranking ∧ c.ranking.length ≤ 2 ∧ (c.ranking.map Entry.identity).Nodup) ∧
        (∀ i e, c.members[i]? = some e ↔ e ∈ c.ranking ∧ e.identity = i) ∧
        (c.wellFormed = true ∧
          ∀ e, (c.add e).2.wellFormed = true ∧ (c.remove e).2.wellFormed = true) ∧
        c = d := by
  intro bytes
  have hdecode : decode (some bytes) =
      .ok (some (ofList [⟨2, 20⟩, ⟨3, 15⟩, ⟨1, 10⟩] : Chart 2)) := by
    rw [decode_encode]
    rfl
  refine ⟨_, hdecode, ?_⟩
  intro c d
  have hc : c.Built := ((Built.decode hdecode).replace _ _).remove _
  have hd : d.Built := .ofList _
  obtain ⟨hranking, hmembers, hchecked, hequal⟩ := built_representation hc
  exact ⟨⟨hc, hd⟩, by decide, hranking, hmembers, hchecked, (hequal d hd).2 (by decide)⟩

end TopCharts.Chart
