import TopCharts.Proofs.Rank.Order

/-!
# What the changes of a chart do

* `Entry.others e l` : the entries of `l` with another identity than `e`;
* `Chart.Live members ranking` : the map by identity holds exactly the ranked entries, so no
  identity is ranked twice (`Live.eq_of_identity`). `Live.erase` : an entry taken out of both;
* `Chart.Sound c` : the two views of a chart agree in this way, and the ranking is ranked and
  bounded;
* `Sound.add_cases`, `Sound.remove_eq` : the chart that a change leaves and what it reports, read
  off the ranking alone; `Sound.toList_add`, `Sound.evicted_add`, `toList_remove`, and the members
  after each (`Sound.mem_add`, `Sound.mem_remove`);
* `Sound.add`, `Sound.remove`, `Sound.replace` : the views agree after every change.
-/

namespace TopCharts

open Std (ExtTreeMap)

def Entry.others (e : Entry) (l : List Entry) : List Entry :=
  l.filter fun x => x.identity ≠ e.identity

theorem Entry.mem_others {e a : Entry} {l : List Entry} :
    a ∈ e.others l ↔ a ∈ l ∧ a.identity ≠ e.identity := by
  rw [Entry.others, List.mem_filter, decide_eq_true_iff]

namespace Chart

variable {k : Nat} {c : Chart k}

/-- The map holds the ranked entries, each for its identity. -/
abbrev Live (members : ExtTreeMap Int64 Entry) (ranking : List Entry) : Prop :=
  ∀ i e, members[i]? = some e ↔ e ∈ ranking ∧ e.identity = i

structure Sound (c : Chart k) : Prop where
  ranked : Ranked c.ranking
  length_le : c.ranking.length ≤ k
  live : Live c.members c.ranking

theorem sound_empty : (empty : Chart k).Sound where
  ranked := .nil
  length_le := Nat.zero_le k
  live i e := by
    show (∅ : ExtTreeMap Int64 Entry)[i]? = some e ↔ e ∈ [] ∧ _
    simp

namespace Live

variable {members : ExtTreeMap Int64 Entry} {ranking : List Entry}

theorem eq_of_identity (h : Live members ranking) {a b : Entry} (ha : a ∈ ranking)
    (hb : b ∈ ranking) (hab : a.identity = b.identity) : a = b := by
  have hlive := (h _ a).2 ⟨ha, hab⟩
  rw [(h _ b).2 ⟨hb, rfl⟩] at hlive
  exact (Option.some.inj hlive).symm

theorem identity_ne (h : Live members ranking) {i : Int64} (hi : members[i]? = none) {a : Entry}
    (ha : a ∈ ranking) : a.identity ≠ i := by
  intro hai
  rw [(h i a).2 ⟨ha, hai⟩] at hi
  cases hi

theorem erase (h : Live members ranking) (hr : Ranked ranking) {e : Entry} (he : e ∈ ranking) :
    Live (members.erase e.identity) (ranking.erase e) := by
  intro i a
  rw [ExtTreeMap.getElem?_erase, hr.mem_erase]
  simp only [Std.LawfulEqOrd.compare_eq_iff_eq]
  split
  · rename_i hi
    refine iff_of_false (Option.some_ne_none a).symm ?_
    rintro ⟨⟨hne, ha⟩, rfl⟩
    exact hne (h.eq_of_identity ha he hi.symm)
  · rename_i hi
    rw [h]
    refine and_congr_left fun ha => (and_iff_right ?_).symm
    rintro rfl
    exact hi ha

end Live

namespace Sound

theorem get?_eq (h : c.Sound) (i : Int64) : c.get? i = c.toList.find? (·.identity = i) := by
  show c.members[i]? = c.ranking.find? _
  cases hi : c.members[i]? with
  | none =>
    refine (List.find?_eq_none.2 ?_).symm
    intro a ha
    simpa using h.live.identity_ne hi ha
  | some e =>
    obtain ⟨he, rfl⟩ := (h.live i e).1 hi
    cases hf : c.ranking.find? (·.identity = e.identity) with
    | none => exact absurd (decide_eq_true rfl) (List.find?_eq_none.1 hf e he)
    | some a =>
      have hid : a.identity = e.identity := by simpa using List.find?_some hf
      rw [h.live.eq_of_identity (List.mem_of_find?_eq_some hf) he hid]

/-! ## Adding -/

theorem kept_eq (h : c.Sound) (e : Entry) :
    (match c.members[e.identity]? with
      | some old => c.ranking.erase old
      | none => c.ranking) = e.others c.ranking := by
  cases hm : c.members[e.identity]? with
  | none =>
    refine (List.filter_eq_self.2 ?_).symm
    intro a ha
    exact decide_eq_true (h.live.identity_ne hm ha)
  | some old =>
    obtain ⟨hold, hid⟩ := (h.live _ old).1 hm
    refine Ranked.ext (h.ranked.sublist List.erase_sublist) (h.ranked.filter _) ?_
    intro a
    rw [h.ranked.mem_erase, Entry.mem_others, and_comm]
    refine and_congr_right fun ha => not_congr ⟨?_, ?_⟩
    · rintro rfl
      exact hid
    · intro hae
      exact h.live.eq_of_identity ha hold (hae.trans hid.symm)

theorem ranked_others (h : c.Sound) (e : Entry) :
    Ranked (e.insertRanked (e.others c.ranking)) :=
  Entry.ranked_insertRanked (h.ranked.filter _)

theorem length_others (h : c.Sound) (e : Entry) :
    (e.insertRanked (e.others c.ranking)).length ≤ k + 1 := by
  rw [Entry.length_insertRanked fun he => (Entry.mem_others.1 he).2 rfl]
  exact Nat.succ_le_succ ((List.length_filter_le _ _).trans h.length_le)

/-- An addition inserts the entry among the others. Either all fit, or the last one falls out. -/
theorem add_cases (h : c.Sound) (e : Entry) :
    ((e.insertRanked (e.others c.ranking)).length ≤ k ∧
      c.add e = (none, ⟨c.members.insert e.identity e, e.insertRanked (e.others c.ranking)⟩)) ∨
    ∃ front last, e.insertRanked (e.others c.ranking) = front ++ [last] ∧ front.length = k ∧
      c.add e = (some last, ⟨(c.members.insert e.identity e).erase last.identity, front⟩) := by
  have hlen := h.length_others e
  have hadd : c.add e = match if k < (e.insertRanked (e.others c.ranking)).length then
      (e.insertRanked (e.others c.ranking)).getLast? else none with
    | some last => (some last, ⟨(c.members.insert e.identity e).erase last.identity,
        (e.insertRanked (e.others c.ranking)).dropLast⟩)
    | none => (none, ⟨c.members.insert e.identity e, e.insertRanked (e.others c.ranking)⟩) := by
    rw [← h.kept_eq e]
    rfl
  rcases List.eq_nil_or_concat (e.insertRanked (e.others c.ranking)) with hr | ⟨front, last, hr⟩
  · left
    rw [hadd, hr]
    exact ⟨Nat.zero_le k, rfl⟩
  · rw [List.concat_eq_append] at hr
    rw [hr, List.length_append, List.length_singleton] at hlen
    by_cases hk : front.length = k
    · right
      refine ⟨front, last, hr, hk, ?_⟩
      rw [hadd, hr, if_pos (by rw [List.length_append, List.length_singleton]; omega),
        List.getLast?_concat, List.dropLast_concat]
    · left
      have hle : (e.insertRanked (e.others c.ranking)).length ≤ k := by
        rw [hr, List.length_append, List.length_singleton]
        omega
      refine ⟨hle, ?_⟩
      rw [hadd, if_neg hle.not_gt]

theorem toList_add (h : c.Sound) (e : Entry) :
    (c.add e).2.toList = (e.insertRanked (e.others c.toList)).take k := by
  rcases h.add_cases e with ⟨hlen, hadd⟩ | ⟨front, last, hr, hlen, hadd⟩
  · rw [hadd]
    exact (List.take_of_length_le hlen).symm
  · rw [hadd]
    show front = (e.insertRanked (e.others c.ranking)).take k
    rw [hr, ← hlen, List.take_left]

theorem mem_add (h : c.Sound) {e a : Entry} (ha : a ∈ (c.add e).2.toList) : a = e ∨ a ∈ c.toList := by
  rw [h.toList_add] at ha
  exact (Entry.mem_insertRanked.1 (List.mem_of_mem_take ha)).imp_right
    fun ha => (Entry.mem_others.1 ha).1

theorem evicted_add (h : c.Sound) (e : Entry) :
    (c.add e).1.toList = (e.insertRanked (e.others c.toList)).drop k := by
  rcases h.add_cases e with ⟨hlen, hadd⟩ | ⟨front, last, hr, hlen, hadd⟩
  · rw [hadd]
    exact (List.drop_of_length_le hlen).symm
  · rw [hadd]
    show [last] = (e.insertRanked (e.others c.ranking)).drop k
    rw [hr, ← hlen, List.drop_left]

theorem live_insert (h : c.Sound) (e : Entry) :
    Live (c.members.insert e.identity e) (e.insertRanked (e.others c.ranking)) := by
  intro i a
  rw [ExtTreeMap.getElem?_insert, Entry.mem_insertRanked, Entry.mem_others]
  simp only [Std.LawfulEqOrd.compare_eq_iff_eq]
  split
  · rename_i hi
    subst hi
    constructor
    · rintro ⟨⟩
      exact ⟨.inl rfl, rfl⟩
    · rintro ⟨rfl | ⟨-, hne⟩, ha⟩
      · rfl
      · exact absurd ha hne
  · rename_i hi
    rw [h.live]
    constructor
    · rintro ⟨ha, rfl⟩
      exact ⟨.inr ⟨ha, Ne.symm hi⟩, rfl⟩
    · rintro ⟨rfl | ⟨ha, -⟩, rfl⟩
      · exact absurd rfl hi
      · exact ⟨ha, rfl⟩

protected theorem add (h : c.Sound) (e : Entry) : (c.add e).2.Sound := by
  have hranked := h.ranked_others e
  have hlive := h.live_insert e
  rcases h.add_cases e with ⟨hlen, hadd⟩ | ⟨front, last, hr, hlen, hadd⟩
  · rw [hadd]
    exact ⟨hranked, hlen, hlive⟩
  · rw [hr] at hranked hlive
    have hlast : last ∉ front := by
      intro hm
      exact List.disjoint_of_nodup_append (Ranked.nodup hranked) hm (List.mem_singleton_self last)
    have herase : (front ++ [last]).erase last = front := by
      rw [List.erase_append_right _ hlast, List.erase_cons_head, List.append_nil]
    have hfront := hlive.erase hranked (List.mem_append_right _ (List.mem_singleton_self last))
    rw [herase] at hfront
    rw [hadd]
    exact ⟨hranked.sublist (List.sublist_append_left _ _), hlen.le, hfront⟩

/-! ## Removing -/

theorem remove_eq (h : c.Sound) (e : Entry) :
    c.remove e = if e ∈ c.ranking then
      (true, ⟨c.members.erase e.identity, c.ranking.erase e⟩) else (false, c) := by
  by_cases he : e ∈ c.ranking
  · rw [if_pos he, Chart.remove, (h.live e.identity e).2 ⟨he, rfl⟩, List.contains_iff_mem.2 he]
    dsimp only
    rw [if_pos rfl]
  · have hm : (c.remove e).2.members = c.members := by
      show (match c.members[e.identity]? with
        | some live => if live.score = e.score then c.members.erase e.identity else c.members
        | none => c.members) = c.members
      cases hm : c.members[e.identity]? with
      | none => rfl
      | some live =>
        obtain ⟨hlive, hid⟩ := (h.live _ live).1 hm
        exact if_neg fun hs => he (Entry.ext hid hs ▸ hlive)
    rw [if_neg he]
    show (c.ranking.contains e, (⟨(c.remove e).2.members, c.ranking.erase e⟩ : Chart k)) = _
    rw [hm, List.erase_of_not_mem he, List.contains_eq_mem, decide_eq_false he]

protected theorem remove (h : c.Sound) (e : Entry) : (c.remove e).2.Sound := by
  rw [h.remove_eq]
  split
  · rename_i he
    have hsub : c.ranking.erase e |>.Sublist c.ranking := List.erase_sublist
    exact ⟨h.ranked.sublist hsub, hsub.length_le.trans h.length_le, h.live.erase h.ranked he⟩
  · exact h

end Sound

theorem toList_remove (c : Chart k) (e : Entry) : (c.remove e).2.toList = c.toList.erase e :=
  rfl

theorem Sound.mem_remove (h : c.Sound) {e a : Entry} :
    a ∈ (c.remove e).2.toList ↔ a ≠ e ∧ a ∈ c.toList :=
  h.ranked.mem_erase

theorem remove_fst (c : Chart k) (e : Entry) : (c.remove e).1 = decide (e ∈ c.toList) :=
  List.contains_eq_mem e c.ranking

protected theorem Sound.replace (h : c.Sound) (old new : Option Entry) :
    (c.replace old new).2.Sound := by
  cases old with
  | none =>
    cases new with
    | none => exact h
    | some e => exact h.add e
  | some a =>
    cases new with
    | none => exact h.remove a
    | some e => exact (h.remove a).add e

end Chart

end TopCharts
