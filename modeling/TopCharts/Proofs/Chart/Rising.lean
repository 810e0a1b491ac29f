import TopCharts.Proofs.Chart.Built
import TopCharts.Proofs.Rank.Best

/-!
# Additions that lower no score

A chart forgets what falls out of it, so in general its ranking depends on every addition and on
their order. It does not as long as no addition lowers the score of an identity.

* `Entry.latest l` : the last entry of each identity in `l` (`Entry.mem_latest`);
* `Entry.supersede e s` : a set of entries with `e` in place of the entry of its identity. If that
  entry does not score higher, nothing falls (`raises_supersede`);
* `Entry.NonLowering l` : no identity has a score in `l` that is lower than an earlier one. Then its
  first score is its lowest and its last is its highest (`NonLowering.first_le`,
  `NonLowering.score_le`), also in any part of the list that still has the last entries
  (`NonLowering.mem_latest_of_sublist`);
* `Exact.add_rising` : adding an entry that lowers no score takes a chart that shows the best of a
  set to one that shows the best of the superseded set. An entry that fell out before ranks behind
  `k` others, and these only rise;
* `Chart.addAll c es` : the chart after entries are added in turn. Those that lower no score leave
  the best of the last entries (`Exact.addAll`);
* `ofList_perm` : entries with an identity each are collected in any order;
* `addAll_nonLowering` : so it does not matter how the identities are interleaved, nor which of the
  superseded entries are added.
-/

namespace TopCharts

namespace Entry

variable {l m : List Entry} {a e : Entry}

/-! ## The last entry of each identity -/

def latest : List Entry → List Entry
  | [] => []
  | e :: es => if ∃ a ∈ es, a.identity = e.identity then latest es else e :: latest es

def ofIdentity (i : Int64) (l : List Entry) : List Entry :=
  l.filter (·.identity = i)

theorem mem_ofIdentity {i : Int64} : a ∈ ofIdentity i l ↔ a ∈ l ∧ a.identity = i := by
  rw [ofIdentity, List.mem_filter, decide_eq_true_iff]

theorem ofIdentity_eq_nil {i : Int64} : ofIdentity i l = [] ↔ ∀ a ∈ l, a.identity ≠ i := by
  simp [ofIdentity, List.filter_eq_nil_iff]

theorem ofIdentity_ne_nil {i : Int64} (ha : a ∈ l) (hid : a.identity = i) : ofIdentity i l ≠ [] :=
  fun hnil => ofIdentity_eq_nil.1 hnil a ha hid

theorem ofIdentity_cons {i : Int64} :
    ofIdentity i (a :: l) = if a.identity = i then a :: ofIdentity i l else ofIdentity i l := by
  simp [ofIdentity, List.filter_cons]

theorem ofIdentity_append {i : Int64} :
    ofIdentity i (l ++ m) = ofIdentity i l ++ ofIdentity i m :=
  List.filter_append ..

theorem mem_latest : e ∈ latest l ↔ (ofIdentity e.identity l).getLast? = some e := by
  induction l with
  | nil => simp [latest, ofIdentity]
  | cons a l ih =>
    rw [latest, ofIdentity_cons]
    split_ifs with hlater hid hid
    · obtain ⟨b, hb, hba⟩ := hlater
      rw [ih, List.getLast?_cons_of_ne_nil (ofIdentity_ne_nil hb (hba.trans hid))]
    · exact ih
    · have hnil : ofIdentity e.identity l = [] :=
        ofIdentity_eq_nil.2 fun b hb hbe => hlater ⟨b, hb, hbe.trans hid.symm⟩
      rw [List.mem_cons, ih, hnil]
      simp [eq_comm]
    · rw [List.mem_cons, ih, or_iff_right]
      rintro rfl
      exact hid rfl

theorem mem_of_mem_latest (h : e ∈ latest l) : e ∈ l :=
  (mem_ofIdentity.1 (List.mem_of_getLast? (mem_latest.1 h))).1

theorem latest_congr (h : ∀ i, ofIdentity i l = ofIdentity i m) : e ∈ latest l ↔ e ∈ latest m := by
  rw [mem_latest, mem_latest, h]

theorem exists_latest (h : a ∈ l) : ∃ e ∈ latest l, e.identity = a.identity := by
  obtain ⟨e, he⟩ :=
    Option.isSome_iff_exists.1 (List.getLast?_isSome.2 (ofIdentity_ne_nil h rfl))
  have hid : e.identity = a.identity := (mem_ofIdentity.1 (List.mem_of_getLast? he)).2
  exact ⟨e, mem_latest.2 (hid ▸ he), hid⟩

theorem oneEach_latest (l : List Entry) : OneEach (latest l).toFinset := by
  intro a ha b hb hid
  rw [List.mem_toFinset, mem_latest] at ha hb
  rw [hid, hb] at ha
  exact (Option.some.inj ha).symm

theorem toFinset_latest (h : OneEach l.toFinset) : (latest l).toFinset = l.toFinset := by
  ext e
  rw [List.mem_toFinset, List.mem_toFinset]
  refine ⟨mem_of_mem_latest, fun he => ?_⟩
  obtain ⟨a, ha, hid⟩ := exists_latest he
  rwa [← h a (List.mem_toFinset.2 (mem_of_mem_latest ha)) e (List.mem_toFinset.2 he) hid]

theorem mem_latest_append (h : e ∈ latest (l ++ m)) : e ∈ l ∨ e ∈ latest m := by
  rw [mem_latest, ofIdentity_append, List.getLast?_append, Option.or_eq_some_iff] at h
  rcases h with h | ⟨-, h⟩
  · exact .inr (mem_latest.2 h)
  · exact .inl (mem_ofIdentity.1 (List.mem_of_getLast? h)).1

/-- A set of entries with `e` in place of the entry of its identity. -/
def supersede (e : Entry) (s : Finset Entry) : Finset Entry :=
  insert e (s.filter (·.identity ≠ e.identity))

theorem mem_supersede {s : Finset Entry} :
    a ∈ e.supersede s ↔ a = e ∨ a ∈ s ∧ a.identity ≠ e.identity := by
  rw [supersede, Finset.mem_insert, Finset.mem_filter]

theorem supersede_eq_insert {s : Finset Entry} (h : ∀ a ∈ s, a.identity = e.identity → a = e) :
    e.supersede s = insert e s := by
  ext a
  have := h a
  rw [mem_supersede, Finset.mem_insert]
  tauto

theorem mem_and_not_mem_supersede {s : Finset Entry} (hs : OneEach s) (ha : a ∈ s)
    (hid : a.identity = e.identity) (hne : a ≠ e) {x : Entry} :
    x ∈ s ∧ x ∉ e.supersede s ↔ x = a := by
  rw [mem_supersede]
  constructor
  · rintro ⟨hx, hnew⟩
    refine hs x hx a ha ?_
    by_contra hxa
    exact hnew (.inr ⟨hx, fun hxe => hxa (hxe.trans hid.symm)⟩)
  · rintro rfl
    exact ⟨ha, by tauto⟩

theorem mem_supersede_and_not_mem {s : Finset Entry} (he : e ∉ s) {x : Entry} :
    x ∈ e.supersede s ∧ x ∉ s ↔ x = e := by
  rw [mem_supersede]
  constructor
  · rintro ⟨rfl | ⟨hx, -⟩, hxs⟩
    · rfl
    · exact absurd hx hxs
  · rintro rfl
    exact ⟨.inl rfl, he⟩

theorem raises_supersede {s : Finset Entry} (hs : OneEach s)
    (he : ∀ a ∈ s, a.identity = e.identity → a.score ≤ e.score) : Raises s (e.supersede s) where
  oneEach_old := hs
  oneEach_new a ha b hb hid := by
    rw [mem_supersede] at ha hb
    rcases ha with rfl | ⟨ha, hae⟩ <;> rcases hb with rfl | ⟨hb, hbe⟩
    · rfl
    · exact absurd hid.symm hbe
    · exact absurd hid hae
    · exact hs a ha b hb hid
  raised a ha := by
    by_cases hid : a.identity = e.identity
    · exact ⟨e, mem_supersede.2 (.inl rfl), hid.symm, he a ha hid⟩
    · exact ⟨a, mem_supersede.2 (.inr ⟨ha, hid⟩), rfl, Int64.le_refl _⟩

theorem toFinset_latest_append (l : List Entry) (e : Entry) :
    (latest (l ++ [e])).toFinset = e.supersede (latest l).toFinset := by
  ext a
  simp only [List.mem_toFinset, mem_supersede, mem_latest, ofIdentity_append, ofIdentity_cons]
  by_cases hid : e.identity = a.identity
  · simp [hid, ofIdentity, eq_comm]
  · have hne : a ≠ e := fun h => hid (congrArg identity h.symm)
    simp [hid, ofIdentity, hne, Ne.symm hid]

/-! ## Scores that are not lowered -/

/-- No identity has a score that is lower than an earlier one. -/
def NonLowering (l : List Entry) : Prop :=
  l.Pairwise fun a b => a.identity = b.identity → a.score ≤ b.score

instance (l : List Entry) : Decidable (NonLowering l) :=
  inferInstanceAs (Decidable (List.Pairwise _ l))

namespace NonLowering

theorem score_le (h : NonLowering l) (he : e ∈ latest l) (ha : a ∈ l)
    (hid : a.identity = e.identity) : a.score ≤ e.score := by
  obtain ⟨earlier, hearlier⟩ := List.getLast?_eq_some_iff.1 (mem_latest.1 he)
  have hpairs : NonLowering (ofIdentity e.identity l) := List.Pairwise.filter _ h
  have hmem : a ∈ ofIdentity e.identity l := mem_ofIdentity.2 ⟨ha, hid⟩
  rw [hearlier] at hpairs hmem
  rcases List.mem_append.1 hmem with hmem | hmem
  · exact (List.pairwise_append.1 hpairs).2.2 a hmem e (List.mem_singleton_self e) hid
  · rw [List.mem_singleton.1 hmem]
    exact Int64.le_refl _

theorem first_le (h : NonLowering l) (hfirst : (ofIdentity a.identity l).head? = some e)
    (ha : a ∈ l) : e.score ≤ a.score := by
  obtain ⟨later, hlater⟩ := List.head?_eq_some_iff.1 hfirst
  have hpairs : NonLowering (ofIdentity a.identity l) := List.Pairwise.filter _ h
  have hmem : a ∈ ofIdentity a.identity l := mem_ofIdentity.2 ⟨ha, rfl⟩
  have hid : e.identity = a.identity := (mem_ofIdentity.1 (List.mem_of_head? hfirst)).2
  rw [hlater] at hpairs hmem
  rcases List.mem_cons.1 hmem with hae | hmem
  · rw [hae]
    exact Int64.le_refl _
  · exact (List.pairwise_cons.1 hpairs).1 a hmem hid

theorem congr (h : NonLowering l) (hlm : ∀ i, ofIdentity i m = ofIdentity i l) : NonLowering m := by
  refine List.pairwise_iff_forall_sublist.2 fun {a b} hab hid => ?_
  have hsame : [a, b].Sublist (ofIdentity a.identity m) := by
    have hsub := hab.filter (·.identity = a.identity)
    simpa [ofIdentity, hid] using hsub
  rw [hlm] at hsame
  exact List.pairwise_iff_forall_sublist.1 h (hsame.trans List.filter_sublist) hid

/-- A part of the list that has the last entries has them as its last. -/
theorem mem_latest_of_sublist (h : NonLowering l) (hsub : m.Sublist l)
    (hlatest : ∀ e ∈ latest l, e ∈ m) : e ∈ latest m ↔ e ∈ latest l := by
  have hm : NonLowering m := List.Pairwise.sublist hsub h
  -- two last entries of one identity have the same score: each is the highest
  have heq {a b : Entry} (ha : a ∈ latest m) (hb : b ∈ latest l) (hid : b.identity = a.identity) :
      a = b := by
    have hab := h.score_le hb (hsub.subset (mem_of_mem_latest ha)) hid.symm
    have hba := hm.score_le ha (hlatest b hb) hid
    exact Entry.ext hid.symm (Int64.le_antisymm hab hba)
  constructor
  · intro he
    obtain ⟨b, hb, hid⟩ := exists_latest (hsub.subset (mem_of_mem_latest he))
    rwa [heq he hb hid]
  · intro he
    obtain ⟨a, ha, hid⟩ := exists_latest (hlatest e he)
    rwa [← heq ha he hid.symm]

end NonLowering

end Entry

namespace Chart

variable {k : Nat} {c : Chart k} {s : Finset Entry} {e : Entry} {es : List Entry}

/-! ## One addition -/

/-- To take an entry of the same identity back first changes nothing. -/
theorem Sound.remove_add_eq (h : c.Sound) {a : Entry} (hid : a.identity = e.identity) :
    ((c.remove a).2.add e).2 = (c.add e).2 := by
  refine ((h.remove a).add e).ext (h.add e) ?_
  have hnot : a ∉ e.others c.toList := fun ha => (Entry.mem_others.1 ha).2 hid
  have hothers : e.others (c.toList.erase a) = e.others c.toList := by
    rw [Entry.others, ← List.erase_filter, ← Entry.others, List.erase_of_not_mem hnot]
  rw [(h.remove a).toList_add, h.toList_add, toList_remove, hothers]

/-- **An addition that lowers no score** puts the entry in place of the one of its identity. -/
theorem Exact.add_rising (h : c.Exact s) (hs : OneEach s)
    (he : ∀ a ∈ s, a.identity = e.identity → a.score ≤ e.score) :
    (c.add e).2.Exact (e.supersede s) := by
  by_cases hsame : ∀ a ∈ s, a.identity = e.identity → a = e
  · rw [Entry.supersede_eq_insert hsame]
    exact h.add hsame
  · obtain ⟨a, ha, hid, hne⟩ : ∃ a ∈ s, a.identity = e.identity ∧ a ≠ e := by
      simpa using hsame
    have hnot : e ∉ s := fun hes => hne (hs a ha e hes hid)
    have hremoved (x : Entry) : x ∈ [a] ↔ x ∈ s ∧ x ∉ e.supersede s := by
      rw [List.mem_singleton, Entry.mem_and_not_mem_supersede hs ha hid hne]
    have hadded (x : Entry) : x ∈ [e] ↔ x ∈ e.supersede s ∧ x ∉ s := by
      rw [List.mem_singleton, Entry.mem_supersede_and_not_mem hnot]
    rw [← h.sound.remove_add_eq hid]
    exact h.raise (Entry.raises_supersede hs he) hremoved hadded

/-! ## Additions in turn -/

def addAll (c : Chart k) (es : List Entry) : Chart k :=
  es.foldl (fun c e => (c.add e).2) c

/-- **Additions that lower no score** leave the best of the last entries. -/
theorem Exact.addAll {l : List Entry} (h : c.Exact (Entry.latest l).toFinset)
    (hes : Entry.NonLowering (l ++ es)) :
    (c.addAll es).Exact (Entry.latest (l ++ es)).toFinset := by
  induction es generalizing c l with
  | nil =>
    rw [List.append_nil]
    exact h
  | cons e es ih =>
    rw [List.append_cons] at hes ⊢
    refine ih ?_ hes
    rw [Entry.toFinset_latest_append]
    refine h.add_rising (Entry.oneEach_latest l) fun a ha hid => ?_
    have hpair := (List.pairwise_append.1 (List.pairwise_append.1 hes).1).2.2
    have hmem := Entry.mem_of_mem_latest (List.mem_toFinset.1 ha)
    exact hpair a hmem e (List.mem_singleton_self e) hid

theorem Sound.exact_addAll (h : c.Sound) (hes : Entry.NonLowering (c.toList ++ es)) :
    (c.addAll es).Exact (Entry.latest (c.toList ++ es)).toFinset := by
  refine Exact.addAll ?_ hes
  rw [Entry.toFinset_latest h.oneEach]
  exact h.exact

theorem Sound.addAll_congr (h : c.Sound) {es' : List Entry}
    (hes : Entry.NonLowering (c.toList ++ es)) (hes' : Entry.NonLowering (c.toList ++ es'))
    (hlatest : ∀ e, e ∈ Entry.latest (c.toList ++ es') ↔ e ∈ Entry.latest (c.toList ++ es)) :
    c.addAll es' = c.addAll es := by
  have hexact := h.exact_addAll hes
  have hexact' := h.exact_addAll hes'
  refine hexact'.sound.ext hexact.sound ?_
  rw [hexact.toList_eq, hexact'.toList_eq]
  refine congrArg _ (Finset.ext fun e => ?_)
  rw [List.mem_toFinset, List.mem_toFinset, hlatest]

/-- Entries that continue the scores that a chart ranks. -/
theorem Sound.nonLowering (h : c.Sound) (hes : Entry.NonLowering es)
    (hstart : ∀ a ∈ c.toList, ∀ e, (Entry.ofIdentity a.identity es).head? = some e →
      a.score ≤ e.score) : Entry.NonLowering (c.toList ++ es) := by
  refine List.pairwise_append.2 ⟨?_, hes, fun a ha e he hid => ?_⟩
  · refine List.pairwise_of_forall_mem_list fun a ha b hb hid => ?_
    rw [h.live.eq_of_identity ha hb hid]
    exact Int64.le_refl _
  · obtain ⟨first, hfirst⟩ :=
      Option.isSome_iff_exists.1 (List.isSome_head?.2 (Entry.ofIdentity_ne_nil he hid.symm))
    exact Int64.le_trans (hstart a ha first hfirst) (hes.first_le (hid ▸ hfirst) he)

theorem ofList_perm {once again : List Entry} (hnodup : (once.map Entry.identity).Nodup)
    (hperm : again.Perm once) : (ofList again : Chart k) = ofList once := by
  have hone : OneEach once.toFinset := .of_nodup hnodup
  have hset : again.toFinset = once.toFinset := List.toFinset_eq_of_perm _ _ hperm
  have honce : (ofList once : Chart k).Exact once.toFinset := exact_ofList hone
  have hagain : (ofList again : Chart k).Exact once.toFinset := hset ▸ exact_ofList (hset ▸ hone)
  refine hagain.sound.ext honce.sound ?_
  rw [hagain.toList_eq, honce.toList_eq]

/-- **Additions that lower no score can be reordered and left out.** Let no score of an identity in
a list be lower than an earlier one, nor the first than the score the chart ranks. Adding the list
in turn leaves the `k` best of the last entries. The chart is the same for every interleaving of the
identities, and for every part of the list that still has the last entries. And a list with one
entry for each identity is collected to the same chart in every order. -/
theorem addAll_nonLowering (h : c.Built) (hes : Entry.NonLowering es)
    (hstart : ∀ a ∈ c.toList, ∀ e, (Entry.ofIdentity a.identity es).head? = some e →
      a.score ≤ e.score) :
    (c.addAll es).toList = best k (Entry.latest (c.toList ++ es)).toFinset ∧
      (∀ es', (∀ i, Entry.ofIdentity i es' = Entry.ofIdentity i es) →
        c.addAll es' = c.addAll es) ∧
      (∀ es', es'.Sublist es → (∀ e ∈ Entry.latest es, e ∈ es') → c.addAll es' = c.addAll es) ∧
      ∀ once again : List Entry, (once.map Entry.identity).Nodup → again.Perm once →
        (ofList again : Chart k) = ofList once := by
  have hall := h.sound.nonLowering hes hstart
  refine ⟨(h.sound.exact_addAll hall).toList_eq, fun es' hsame => ?_, fun es' hsub hlast => ?_,
    fun once again hnodup hperm => ofList_perm hnodup hperm⟩
  · have hids (i : Int64) :
        Entry.ofIdentity i (c.toList ++ es') = Entry.ofIdentity i (c.toList ++ es) := by
      rw [Entry.ofIdentity_append, Entry.ofIdentity_append, hsame]
    exact h.sound.addAll_congr hall (hall.congr hids) fun e => Entry.latest_congr hids
  · have hsub' : (c.toList ++ es').Sublist (c.toList ++ es) :=
      (List.append_sublist_append_left _).2 hsub
    refine h.sound.addAll_congr hall (List.Pairwise.sublist hsub' hall) fun e =>
      hall.mem_latest_of_sublist hsub' fun a ha => ?_
    exact List.mem_append.2 ((Entry.mem_latest_append ha).imp_right (hlast a))

/-- A chart of two places with a gap: the entry of 3 fell out, then the entry of 1 was taken back.
Three identities rise past each other, one of them twice, and a fourth stays below. -/
theorem addAll_nonLowering_gap :
    let c : Chart 2 := ((ofList [⟨1, 10⟩, ⟨2, 8⟩, ⟨3, 7⟩]).remove ⟨1, 10⟩).2
    let es : List Entry := [⟨3, 7⟩, ⟨4, 8⟩, ⟨3, 8⟩, ⟨2, 9⟩, ⟨4, 8⟩, ⟨5, 1⟩, ⟨3, 9⟩]
    let mixed : List Entry := [⟨4, 8⟩, ⟨4, 8⟩, ⟨5, 1⟩, ⟨3, 7⟩, ⟨3, 8⟩, ⟨3, 9⟩, ⟨2, 9⟩]
    let last : List Entry := [⟨2, 9⟩, ⟨4, 8⟩, ⟨5, 1⟩, ⟨3, 9⟩]
    (c.Built ∧ c.toList = [⟨2, 8⟩]) ∧ Entry.NonLowering es ∧
      (∀ a ∈ c.toList, ∀ e, (Entry.ofIdentity a.identity es).head? = some e → a.score ≤ e.score) ∧
      (∀ i, Entry.ofIdentity i mixed = Entry.ofIdentity i es) ∧
      (last.Sublist es ∧ Entry.latest es = last) ∧
      (last.map Entry.identity).Nodup ∧ last.reverse.Perm last ∧
      (c.addAll es).toList = best 2 (Entry.latest (c.toList ++ es)).toFinset ∧
      (c.addAll es).toList = [⟨2, 9⟩, ⟨3, 9⟩] ∧
      c.addAll mixed = c.addAll es ∧ c.addAll last = c.addAll es ∧
      (ofList last.reverse : Chart 2) = ofList last := by
  intro c es mixed last
  have hbuilt : c.Built := (Built.ofList _).remove _
  have hrising : Entry.NonLowering es := by decide
  have hstart : ∀ a ∈ c.toList, ∀ e,
      (Entry.ofIdentity a.identity es).head? = some e → a.score ≤ e.score := by
    intro a ha e he
    obtain rfl : a = ⟨2, 8⟩ := List.mem_singleton.1 ha
    obtain rfl : (⟨2, 9⟩ : Entry) = e := Option.some.inj he
    decide
  have hmixed : ∀ i, Entry.ofIdentity i mixed = Entry.ofIdentity i es := by
    intro i
    by_cases hi : ∃ a ∈ es, a.identity = i
    · obtain ⟨a, ha, rfl⟩ := hi
      have hlisted : ∀ a ∈ es,
          Entry.ofIdentity a.identity mixed = Entry.ofIdentity a.identity es := by decide
      exact hlisted a ha
    · have hnew : ∀ a ∈ es, a.identity ≠ i := fun a ha hid => hi ⟨a, ha, hid⟩
      have hsub : ∀ a ∈ mixed, a ∈ es := by decide
      rw [Entry.ofIdentity_eq_nil.2 hnew, Entry.ofIdentity_eq_nil.2 fun a ha => hnew a (hsub a ha)]
  have hsub : last.Sublist es := by decide
  have hlast : Entry.latest es = last := by decide
  have hnodup : (last.map Entry.identity).Nodup := by decide
  have hperm : last.reverse.Perm last := List.reverse_perm last
  obtain ⟨hbest, hinterleaved, hskipped, hcollected⟩ := addAll_nonLowering hbuilt hrising hstart
  exact ⟨⟨hbuilt, by decide⟩, hrising, hstart, hmixed, ⟨hsub, hlast⟩, hnodup, hperm, hbest,
    by decide, hinterleaved mixed hmixed,
    hskipped last hsub fun e he => hlast ▸ he, hcollected last last.reverse hnodup hperm⟩

end Chart

end TopCharts
