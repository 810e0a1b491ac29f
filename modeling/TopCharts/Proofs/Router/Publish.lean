import TopCharts.Proofs.Chart.Codec
import TopCharts.Proofs.Store.View
import TopCharts.Router

/-!
# What a router knows after publishing

* `Router.Lists r snapshots` : the router holds exactly these snapshots, each under its shard, and
  its directory names for every key the shard of the snapshot that has it;
* `Lists.publish` : a snapshot that lies `Apart` from those before is accepted;
  `exists_ofSnapshots` : so snapshots that lie apart can all be published in turn;
* `Lists.topK_eq` : a query is answered from the bytes that were published for the key;
  `Lists.topK_capture` : for a captured chart these are its first entries.
-/

namespace TopCharts

open Std (ExtTreeMap TransOrd LawfulEqOrd)

/-- Two snapshots of different shards without a key in common. -/
structure Snapshot.Apart {κ : Type} [Ord κ] [TransOrd κ] (s t : Snapshot κ) : Prop where
  shard : s.shard ≠ t.shard
  keys : ∀ key ∈ s.charts, key ∉ t.charts

theorem Snapshot.Apart.symm {κ : Type} [Ord κ] [TransOrd κ] {s t : Snapshot κ} (h : s.Apart t) :
    t.Apart s :=
  ⟨h.shard.symm, fun key ht hs => h.keys key hs ht⟩

namespace Router

variable {κ : Type} [Ord κ] [TransOrd κ] {k : Nat} {r : Router κ k} {s : Snapshot κ}
  {snapshots : List (Snapshot κ)} {key : κ}

/-- The router holds these snapshots, and its directory says which of them has a key. -/
structure Lists (r : Router κ k) (snapshots : List (Snapshot κ)) : Prop where
  shards : ∀ shard s, r.shards[shard]? = some s ↔ s ∈ snapshots ∧ s.shard = shard
  directory : ∀ key shard, r.ownerOf key = some shard ↔
    ∃ s ∈ snapshots, s.shard = shard ∧ key ∈ s.charts

theorem lists_empty : (empty : Router κ k).Lists [] where
  shards shard s := by
    show (∅ : ExtTreeMap UInt64 (Snapshot κ))[shard]? = some s ↔ _
    rw [ExtTreeMap.getElem?_empty]
    exact ⟨nofun, fun h => absurd h.1 List.not_mem_nil⟩
  directory key shard := by
    show (∅ : ExtTreeMap κ UInt64)[key]? = some shard ↔ _
    rw [ExtTreeMap.getElem?_empty]
    exact ⟨nofun, fun ⟨_, h, _⟩ => absurd h List.not_mem_nil⟩

theorem Lists.contains_shard_iff (h : r.Lists snapshots) {shard : UInt64} :
    r.shards.contains shard ↔ ∃ s ∈ snapshots, s.shard = shard := by
  rw [ExtTreeMap.contains_iff_mem, ExtTreeMap.mem_iff_isSome_getElem?, Option.isSome_iff_exists]
  exact exists_congr fun s => h.shards shard s

theorem Lists.ownerOf_eq (h : r.Lists snapshots) (hs : s ∈ snapshots) (hkey : key ∈ s.charts) :
    r.ownerOf key = some s.shard :=
  (h.directory key s.shard).2 ⟨s, hs, rfl, hkey⟩

theorem Lists.ownerOf_eq_none_iff (h : r.Lists snapshots) :
    r.ownerOf key = none ↔ ∀ s ∈ snapshots, key ∉ s.charts := by
  constructor
  · intro hnone s hs hkey
    rw [h.ownerOf_eq hs hkey] at hnone
    cases hnone
  · intro hkey
    refine Option.eq_none_iff_forall_ne_some.2 fun shard hshard => ?_
    obtain ⟨s, hs, -, hmem⟩ := (h.directory key shard).1 hshard
    exact hkey s hs hmem

/-! ## Publishing -/

variable [LawfulEqOrd κ]

theorem getElem?_foldl_insert (directory : ExtTreeMap κ UInt64) (keys : List κ) (shard : UInt64)
    (key : κ) :
    (keys.foldl (fun directory key => directory.insert key shard) directory)[key]? = some shard ∧
        key ∈ keys ∨
      (keys.foldl (fun directory key => directory.insert key shard) directory)[key]? =
        directory[key]? ∧ key ∉ keys := by
  induction keys generalizing directory with
  | nil => exact .inr ⟨rfl, List.not_mem_nil⟩
  | cons a keys ih =>
    rw [List.foldl_cons]
    rcases ih (directory.insert a shard) with ⟨h, hkey⟩ | ⟨h, hkey⟩
    · exact .inl ⟨h, List.mem_cons_of_mem a hkey⟩
    · rw [h, ExtTreeMap.getElem?_insert]
      by_cases ha : a = key
      · subst ha
        rw [if_pos Std.ReflOrd.compare_self]
        exact .inl ⟨rfl, List.mem_cons_self⟩
      · rw [if_neg fun h => ha (LawfulEqOrd.eq_of_compare h)]
        refine .inr ⟨rfl, fun h => ?_⟩
        exact (List.mem_cons.1 h).elim (fun h => ha h.symm) hkey

/-- Publishing checks the shard and then all keys, and enters them if none was there. -/
theorem publish_eq_ok_iff {r' : Router κ k} :
    r.publish s = .ok r' ↔
      (¬ r.shards.contains s.shard ∧ ∀ key ∈ s.charts, r.ownerOf key = none) ∧
        ⟨r.shards.insert s.shard s,
          s.charts.keys.foldl (fun directory key => directory.insert key s.shard) r.directory⟩ =
          r' := by
  have hfree : s.charts.keys.findSome? r.ownerOf = none ↔
      ∀ key ∈ s.charts, r.ownerOf key = none := by
    rw [List.findSome?_eq_none_iff]
    exact forall_congr' fun key => by rw [ExtTreeMap.mem_keys]
  rw [Router.publish, ← hfree]
  split
  · rename_i hshard
    exact iff_of_false nofun fun h => h.1.1 hshard
  · rename_i hshard
    split
    · rename_i first hfind
      rw [hfind]
      exact iff_of_false nofun fun h => nomatch h.1.2
    · rename_i hfind
      rw [Except.ok.injEq]
      exact (and_iff_right ⟨hshard, hfind⟩).symm

theorem ownerOf_publish {r' : Router κ k} (h : r.publish s = .ok r') (key : κ) :
    r'.ownerOf key = if key ∈ s.charts then some s.shard else r.ownerOf key := by
  obtain ⟨-, rfl⟩ := publish_eq_ok_iff.1 h
  rw [ownerOf]
  rcases getElem?_foldl_insert r.directory s.charts.keys s.shard key with ⟨hd, hkey⟩ | ⟨hd, hkey⟩
  · rw [hd, if_pos (ExtTreeMap.mem_keys.1 hkey)]
  · rw [hd, if_neg (mt ExtTreeMap.mem_keys.2 hkey), ownerOf]

theorem getElem?_shards_publish {r' : Router κ k} (h : r.publish s = .ok r') (shard : UInt64) :
    r'.shards[shard]? = if s.shard = shard then some s else r.shards[shard]? := by
  obtain ⟨-, rfl⟩ := publish_eq_ok_iff.1 h
  rw [ExtTreeMap.getElem?_insert]
  simp only [LawfulEqOrd.compare_eq_iff_eq]

theorem Lists.publish (h : r.Lists snapshots) (hs : ∀ t ∈ snapshots, t.Apart s) :
    ∃ r', r.publish s = .ok r' ∧ r'.Lists (snapshots ++ [s]) := by
  have hnew : ¬ r.shards.contains s.shard := fun hshard => by
    obtain ⟨t, ht, heq⟩ := h.contains_shard_iff.1 hshard
    exact (hs t ht).shard heq
  have howner (key : κ) (hkey : key ∈ s.charts) : r.ownerOf key = none :=
    h.ownerOf_eq_none_iff.2 fun t ht hmem => (hs t ht).keys key hmem hkey
  have hpublish := publish_eq_ok_iff.2 ⟨⟨hnew, howner⟩, rfl⟩
  refine ⟨_, hpublish, ?_, ?_⟩
  · intro shard t
    rw [getElem?_shards_publish hpublish, List.mem_append, List.mem_singleton]
    split
    · rename_i heq
      subst heq
      rw [Option.some_inj]
      constructor
      · rintro rfl
        exact ⟨.inr rfl, rfl⟩
      · rintro ⟨ht | rfl, heq⟩
        · exact absurd heq (hs t ht).shard
        · rfl
    · rename_i hne
      rw [h.shards]
      refine and_congr_left fun heq => (or_iff_left ?_).symm
      rintro rfl
      exact hne heq
  · intro key shard
    simp only [List.mem_append, List.mem_singleton, or_and_right, exists_or, exists_eq_left,
      ← h.directory]
    rw [ownerOf_publish hpublish]
    split
    · rename_i hkey
      rw [Option.some_inj, howner key hkey]
      exact ⟨fun heq => .inr ⟨heq, hkey⟩, fun h => h.elim nofun And.left⟩
    · rename_i hkey
      exact ⟨.inl, fun h => h.elim id fun h => absurd h.2 hkey⟩

/-- **Snapshots that lie apart can all be published.** -/
theorem exists_ofSnapshots (h : snapshots.Pairwise Snapshot.Apart) :
    ∃ r : Router κ k, ofSnapshots snapshots = .ok r ∧ r.Lists snapshots := by
  suffices hgo : ∀ (rest done : List (Snapshot κ)) (r : Router κ k),
      (done ++ rest).Pairwise Snapshot.Apart → r.Lists done →
        ∃ r' : Router κ k, rest.foldlM Router.publish r = .ok r' ∧ r'.Lists (done ++ rest) from
    hgo snapshots [] empty h lists_empty
  intro rest
  induction rest with
  | nil =>
    intro done r _ hr
    refine ⟨r, rfl, ?_⟩
    rw [List.append_nil]
    exact hr
  | cons s rest ih =>
    intro done r hpair hr
    have hs (t : Snapshot κ) (ht : t ∈ done) : t.Apart s :=
      (List.pairwise_append.1 hpair).2.2 t ht s List.mem_cons_self
    obtain ⟨r', hpublish, hr'⟩ := hr.publish hs
    rw [List.append_cons] at hpair ⊢
    obtain ⟨r'', hrest, hr''⟩ := ih _ r' hpair hr'
    refine ⟨r'', ?_, hr''⟩
    rw [List.foldlM_cons]
    exact Attempt.bind_eq_ok.2 ⟨r', hpublish, hrest⟩

/-! ## Queries -/

theorem mem_keys : key ∈ r.keys ↔ (r.ownerOf key).isSome := by
  rw [keys, ExtTreeMap.mem_keys, ExtTreeMap.mem_iff_isSome_getElem?]
  rfl

theorem mem_keys_of_ownerOf_eq {P : Prop} [Decidable P] {shard : UInt64}
    (h : r.ownerOf key = if P then some shard else none) : key ∈ r.keys ↔ P := by
  rw [mem_keys, h]
  split
  · rename_i hP
    exact iff_of_true rfl hP
  · rename_i hP
    exact iff_of_false Bool.false_ne_true hP

omit [LawfulEqOrd κ] in
theorem pairwise_keys (r : Router κ k) : r.keys.Pairwise fun a b => compare a b = .lt :=
  ExtTreeMap.ordered_keys

omit [LawfulEqOrd κ] in
theorem topK_of_ownerOf_eq_none (h : r.ownerOf key = none) :
    r.topK key = .ok none := by
  rw [topK, h]

omit [LawfulEqOrd κ] in
/-- A query is answered from the bytes that were published for the key. -/
theorem Lists.topK_eq (h : r.Lists snapshots) (hs : s ∈ snapshots) {bytes : List UInt8}
    (hkey : s.charts[key]? = some bytes) :
    r.topK key = ((Chart.decode (k := k) (some bytes)).map fun chart =>
      some ((chart.map Chart.toList).getD [])).mapError (.corrupt s.shard) := by
  have hmem : key ∈ s.charts :=
    ExtTreeMap.mem_iff_isSome_getElem?.2 (hkey ▸ rfl)
  have hbytes : (r.shards[s.shard]? >>= fun s => s.charts[key]?) = some bytes := by
    rw [(h.shards s.shard s).2 ⟨hs, rfl⟩]
    exact hkey
  rw [topK, h.ownerOf_eq hs hmem]
  dsimp only
  rw [hbytes]
  cases Chart.decode (k := k) (some bytes) with
  | ok chart => rfl
  | error cause => rfl

end Router

/-! ## Captured stores -/

namespace Snapshot

variable {κ : Type} [Ord κ] [TransOrd κ] [LawfulEqOrd κ] {k : Nat}

theorem getElem?_capture (shard : UInt64) (s : Store κ k) (key : κ) :
    (capture shard s).charts[key]? = (s.get? key).map Chart.encode :=
  ExtTreeMap.getElem?_map

theorem mem_capture {shard : UInt64} {s : Store κ k} {key : κ} :
    key ∈ (capture shard s).charts ↔ (s.get? key).isSome := by
  rw [ExtTreeMap.mem_iff_isSome_getElem?, getElem?_capture, Option.isSome_map]

end Snapshot

theorem Router.Lists.topK_capture {κ : Type} [Ord κ] [TransOrd κ] [LawfulEqOrd κ] {k m : Nat}
    {r : Router κ k} {snapshots : List (Snapshot κ)} (h : r.Lists snapshots) {shard : UInt64}
    {s : Store κ m} (hs : .capture shard s ∈ snapshots) {key : κ} {c : Chart m}
    (hkey : s.get? key = some c) (hc : c.Sound) : r.topK key = .ok (some (c.toList.take k)) := by
  have hbytes : (Snapshot.capture shard s).charts[key]? = some c.encode := by
    rw [Snapshot.getElem?_capture, hkey]
    rfl
  rw [h.topK_eq hs hbytes, Chart.decode_encode]
  by_cases hnil : c.toList = []
  · rw [if_pos hnil, hnil, List.take_nil]
    rfl
  · rw [if_neg hnil, ← hc.toList_ofList]
    rfl

end TopCharts
