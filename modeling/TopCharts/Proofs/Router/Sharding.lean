import TopCharts.Proofs.Router.Publish
import TopCharts.Shard

/-!
# Queries do not see the shards

* `shardList shards` : the shards that keys can belong to, at least one;
* `Sharded shards stores` : each shard has a store with keys of its own;
* `Sharded.exists_router` : then the snapshots of all shards can be published in any order, and the
  router answers for each key what the store of its shard answers;
* `routed_eq_whole` : updates that are split among the shards are answered as if one store had
  taken them all.
-/

namespace TopCharts

open Std (TransOrd LawfulEqOrd)

/-! ## Shards -/

def shardList (shards : UInt64) : List UInt64 :=
  (List.range (max shards 1).toNat).map UInt64.ofNat

theorem mem_shardList {shards i : UInt64} : i ∈ shardList shards ↔ i < max shards 1 := by
  rw [shardList, List.mem_map, UInt64.lt_iff_toNat_lt]
  constructor
  · rintro ⟨n, hn, rfl⟩
    rw [List.mem_range] at hn
    rw [UInt64.toNat_ofNat_of_lt' (hn.trans (max shards 1).toNat_lt)]
    exact hn
  · intro hi
    exact ⟨i.toNat, List.mem_range.2 hi, UInt64.ofNat_toNat⟩

theorem nodup_shardList (shards : UInt64) : (shardList shards).Nodup := by
  refine List.Nodup.map_on ?_ List.nodup_range
  intro m hm n hn h
  rw [List.mem_range] at hm hn
  have hword (n : Nat) (hn : n < (max shards 1).toNat) : (UInt64.ofNat n).toNat = n :=
    UInt64.toNat_ofNat_of_lt' (hn.trans (max shards 1).toNat_lt)
  rw [← hword m hm, h, hword n hn]

theorem shardOf_mem {κ : Type} [ShardKey κ] (key : κ) (shards : UInt64) :
    shardOf key shards ∈ shardList shards := by
  rw [mem_shardList, shardOf]
  apply UInt64.mod_lt
  show 0 < if shards ≤ 1 then 1 else shards
  split
  · decide
  · rename_i h
    exact UInt64.lt_of_le_of_lt UInt64.zero_le (UInt64.not_le.1 h)

theorem shardOf_lt {κ : Type} [ShardKey κ] (key : κ) (shards : UInt64) :
    (shardOf key shards).toNat < (max shards 1).toNat :=
  UInt64.lt_iff_toNat_lt.1 (mem_shardList.1 (shardOf_mem key shards))

/-! ## Stores of shards -/

section

variable {κ : Type} [Ord κ] [TransOrd κ] [ShardKey κ] {k : Nat} {shards : UInt64}
  {stores : UInt64 → Store κ k}

/-- Each shard has a sound store, with keys that belong to the shard. -/
structure Sharded (shards : UInt64) (stores : UInt64 → Store κ k) : Prop where
  sound : ∀ i, (stores i).Sound
  owned : ∀ i key, ((stores i).get? key).isSome → shardOf key shards = i

variable [LawfulEqOrd κ]

/-- **The snapshots of all shards make a router**, in any order, and it answers for each key what
the store of the key's shard does. -/
theorem Sharded.exists_router (h : Sharded shards stores) {order : List UInt64}
    (horder : order.Perm (shardList shards)) :
    ∃ r : Router κ k, Router.ofSnapshots (order.map fun i => .capture i (stores i)) = .ok r ∧
      ∀ key, r.topK key = .ok ((stores (shardOf key shards)).topK key) ∧
        r.ownerOf key = if ((stores (shardOf key shards)).topK key).isSome then
          some (shardOf key shards) else none := by
  have hapart : (order.map fun i => Snapshot.capture i (stores i)).Pairwise Snapshot.Apart := by
    refine List.pairwise_map.2 ((horder.nodup_iff.2 (nodup_shardList shards)).imp ?_)
    intro i j hij
    refine ⟨hij, fun key hi hj => hij ?_⟩
    rw [Snapshot.mem_capture] at hi hj
    rw [← h.owned i key hi, h.owned j key hj]
  obtain ⟨r, hr, hlists⟩ := Router.exists_ofSnapshots (k := k) hapart
  refine ⟨r, hr, fun key => ?_⟩
  have hmem : Snapshot.capture (shardOf key shards) (stores (shardOf key shards)) ∈
      order.map fun i => Snapshot.capture i (stores i) :=
    List.mem_map_of_mem (horder.mem_iff.2 (shardOf_mem key shards))
  cases hkey : (stores (shardOf key shards)).get? key with
  | none =>
    have howner : r.ownerOf key = none := by
      refine hlists.ownerOf_eq_none_iff.2 fun s hs hcharts => ?_
      obtain ⟨i, -, rfl⟩ := List.mem_map.1 hs
      rw [Snapshot.mem_capture] at hcharts
      obtain rfl := h.owned i key hcharts
      rw [hkey] at hcharts
      cases hcharts
    rw [Router.topK_of_ownerOf_eq_none howner, howner, Store.topK, hkey]
    exact ⟨rfl, rfl⟩
  | some c =>
    have hc : c.Sound := (h.sound (shardOf key shards)).of_get? hkey
    have hlen : c.toList.length ≤ k := hc.length_le
    rw [hlists.topK_capture hmem hkey hc, hlists.ownerOf_eq hmem, Store.topK, hkey,
      List.take_of_length_le hlen]
    · exact ⟨rfl, rfl⟩
    · rw [Snapshot.mem_capture, hkey]
      rfl

end

/-! ## One store, split among shards -/

section

variable {κ : Type} [Ord κ] [TransOrd κ] [LawfulEqOrd κ] [DecidableEq κ] [ShardKey κ]

/-- The store of a shard after the updates whose keys belong to it. -/
def Store.part (k : Nat) (shards : UInt64) (us : List (Update κ)) (i : UInt64) : Store κ k :=
  (Store.empty.applyAll (us.filter fun u => shardOf u.key shards = i)).2

theorem sharded_part (k : Nat) (shards : UInt64) (us : List (Update κ)) :
    Sharded shards (Store.part k shards us) where
  sound i := Store.sound_empty.applyEach _
  owned i key hkey := by
    rcases (Store.isSome_get?_applyEach _ _ key).1 hkey with h | ⟨u, hu, rfl⟩
    · rw [Store.get?_empty] at h
      cases h
    · exact of_decide_eq_true (List.mem_filter.1 hu).2

/-- The store of a key's shard and the store of all updates answer alike. -/
theorem topK_part (k : Nat) (shards : UInt64) (us : List (Update κ)) (key : κ) :
    (Store.part k shards us (shardOf key shards)).topK key =
      (Store.empty.applyAll us : Outcome × Store κ k).2.topK key := by
  have haddressed : Store.addressed key
      (us.filter fun u => shardOf u.key shards = shardOf key shards) = Store.addressed key us := by
    rw [Store.addressed, List.filter_filter]
    refine List.filter_congr fun u _ => ?_
    by_cases hkey : u.key = key
    · rw [hkey, decide_eq_true rfl, decide_eq_true rfl]
      rfl
    · rw [decide_eq_false hkey, Bool.false_and]
  have hchart : (Store.part k shards us (shardOf key shards)).chart key =
      (Store.empty.applyAll us : Outcome × Store κ k).2.chart key := by
    refine (Store.chart_applyEach _ _ key).trans ?_
    rw [haddressed]
    exact (Store.chart_applyEach _ us key).symm
  have hknown : ((Store.part k shards us (shardOf key shards)).get? key).isSome ↔
      ((Store.empty.applyAll us : Outcome × Store κ k).2.get? key).isSome := by
    refine (Store.isSome_get?_applyEach _ _ key).trans ?_
    refine (or_congr_right ?_).trans (Store.isSome_get?_applyEach _ us key).symm
    constructor
    · rintro ⟨u, hu, hkey⟩
      exact ⟨u, (List.mem_filter.1 hu).1, hkey⟩
    · rintro ⟨u, hu, rfl⟩
      exact ⟨u, List.mem_filter.2 ⟨hu, decide_eq_true rfl⟩, rfl⟩
  rw [Store.topK_eq, Store.topK_eq, hchart]
  exact if_congr hknown rfl rfl

/-- **Sharding is invisible.** Split updates among the shards by the hashes of their keys, let each
shard publish its store, in any order: the router answers every query as the store that took all
the updates does, and names the shard of every key. -/
theorem routed_eq_whole (k : Nat) (shards : UInt64) (us : List (Update κ)) {order : List UInt64}
    (horder : order.Perm (shardList shards)) :
    let whole : Store κ k := (Store.empty.applyAll us).2
    ∃ r : Router κ k,
      Router.ofSnapshots (order.map fun i => .capture i (Store.part k shards us i)) = .ok r ∧
        (∀ key, r.topK key = .ok (whole.topK key)) ∧ r.keys = whole.keys ∧
        ∀ key, r.ownerOf key = if key ∈ whole.keys then some (shardOf key shards) else none := by
  intro whole
  obtain ⟨r, hr, hanswers⟩ := (sharded_part k shards us).exists_router horder
  have howner (key : κ) :
      r.ownerOf key = if key ∈ whole.keys then some (shardOf key shards) else none := by
    rw [(hanswers key).2, topK_part, Store.topK, Option.isSome_map]
    exact if_congr Store.mem_keys.symm rfl rfl
  refine ⟨r, hr, ?_, ?_, howner⟩
  · intro key
    rw [(hanswers key).1, topK_part]
  · refine eq_of_pairwise_compare_lt r.pairwise_keys whole.pairwise_keys fun key => ?_
    rw [Router.mem_keys, howner]
    split
    · rename_i hkey
      exact ⟨fun _ => hkey, fun _ => rfl⟩
    · rename_i hkey
      exact iff_of_false Bool.false_ne_true hkey

end

/-- Two shards, published in the opposite order; on the second one a chart is empty again. -/
theorem routed_eq_whole_emptied :
    let us : List (Update UInt64) := [⟨0, .add, ⟨7, 5⟩⟩, ⟨1, .add, ⟨7, 5⟩⟩, ⟨1, .add, ⟨8, -3⟩⟩,
      ⟨0, .remove, ⟨7, 5⟩⟩, ⟨1, .add, ⟨9, 6⟩⟩]
    let whole : Store UInt64 2 := (Store.empty.applyAll us).2
    [1, 0].Perm (shardList 2) ∧
      (∃ r : Router UInt64 2,
        Router.ofSnapshots ([1, 0].map fun i => .capture i (Store.part 2 2 us i)) = .ok r ∧
          (∀ key, r.topK key = .ok (whole.topK key)) ∧ r.keys = whole.keys ∧
          ∀ key, r.ownerOf key = if key ∈ whole.keys then some (shardOf key 2) else none) ∧
      (shardOf (0 : UInt64) 2 = 1 ∧ whole.topK 0 = some []) ∧
      shardOf (1 : UInt64) 2 = 0 ∧ whole.topK 1 = some [⟨9, 6⟩, ⟨7, 5⟩] :=
  ⟨by decide, routed_eq_whole 2 2 _ (by decide), by decide, by decide⟩

end TopCharts
