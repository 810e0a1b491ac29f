import TopCharts.Proofs.Router.Registration
import TopCharts.Proofs.Store.PerKey

/-!
# What a router reads

* `Router.Reachable r accepted` : calls lead to the router `r`, which has accepted these snapshots
  and serves them (`Reachable.serves`);
* `Lists.topK_eq_none_iff`, `Lists.topK_eq_error_iff`, `Lists.topK_of_nil`, `Lists.topK_of_dvd` :
  the answers that there are, by what was published for the key;
* `Lists.topK_calls` : the answer of a router whose shard captured a store;
* `answers_published` : all this of a reachable router, and that an answer is a matter of the bytes
  of its own key.
-/

namespace TopCharts

open Std (ExtTreeMap TransOrd LawfulEqOrd)

variable {κ : Type} [Ord κ] [TransOrd κ] {k : Nat}

namespace Router

variable {r : Router κ k} {s : Snapshot κ} {accepted : List (Snapshot κ)} {key : κ}
  {bytes : List UInt8}

/-- The routers that calls can lead to, each with the snapshots that it has accepted. -/
inductive Reachable : Router κ k → List (Snapshot κ) → Prop where
  | empty : Reachable .empty []
  | ofSnapshots {r : Router κ k} {snapshots : List (Snapshot κ)}
      (h : Router.ofSnapshots snapshots = .ok r) : Reachable r snapshots
  | offer {r : Router κ k} {accepted : List (Snapshot κ)} (h : Reachable r accepted)
      (s : Snapshot κ) : Reachable (Router.offer (r, accepted) s).1 (Router.offer (r, accepted) s).2

theorem Reachable.foldl_offer (h : r.Reachable accepted) (snapshots : List (Snapshot κ)) :
    (snapshots.foldl Router.offer (r, accepted)).1.Reachable
      (snapshots.foldl Router.offer (r, accepted)).2 := by
  induction snapshots generalizing r accepted with
  | nil => exact h
  | cons s snapshots ih => exact ih (h.offer s)

/-! ## Answers -/

theorem Lists.topK_eq_none_iff (h : r.Lists accepted) :
    r.topK key = .ok none ↔ ∀ s ∈ accepted, key ∉ s.charts := by
  rw [← h.ownerOf_eq_none_iff]
  constructor
  · intro htop
    cases howner : r.ownerOf key with
    | none => rfl
    | some shard =>
      obtain ⟨s, hs, -, hkey⟩ := (h.directory key shard).1 howner
      rw [h.topK_eq hs (ExtTreeMap.getElem?_eq_some_getElem hkey)] at htop
      cases hdecode : Chart.decode (k := k) (some s.charts[key]) with
      | ok chart =>
        rw [hdecode] at htop
        cases htop
      | error cause =>
        rw [hdecode] at htop
        cases htop
  · exact topK_of_ownerOf_eq_none

/-- A query fails just on bytes that are not whole records, and names their owner and their
length. -/
theorem Lists.topK_eq_error_iff (h : r.Lists accepted) (hs : s ∈ accepted)
    (hkey : s.charts[key]? = some bytes) {e : RoutingError} :
    r.topK key = .error e ↔
      e = .corrupt s.shard ⟨bytes.length⟩ ∧ ¬ recordWidth ∣ bytes.length := by
  rw [h.topK_eq hs hkey]
  cases hdecode : Chart.decode (k := k) (some bytes) with
  | ok chart =>
    refine iff_of_false nofun ?_
    rintro ⟨-, hlen⟩
    rw [Chart.decode_eq_error_iff.2 ⟨rfl, hlen⟩] at hdecode
    cases hdecode
  | error cause =>
    obtain ⟨rfl, hlen⟩ := Chart.decode_eq_error_iff.1 hdecode
    rw [and_iff_left hlen]
    constructor
    · rintro ⟨⟩
      rfl
    · rintro rfl
      rfl

theorem Lists.topK_of_nil (h : r.Lists accepted) (hs : s ∈ accepted)
    (hkey : s.charts[key]? = some []) : r.topK key = .ok (some []) :=
  h.topK_eq hs hkey

theorem Lists.topK_of_dvd (h : r.Lists accepted) (hs : s ∈ accepted)
    (hkey : s.charts[key]? = some bytes) (hne : bytes ≠ []) (hlen : recordWidth ∣ bytes.length) :
    ∃ c : Chart k, Chart.decode (some bytes) = .ok (some c) ∧ r.topK key = .ok (some c.toList) := by
  have hdecode := Chart.decode_of_dvd (k := k) hne hlen
  refine ⟨_, hdecode, ?_⟩
  rw [h.topK_eq hs hkey, hdecode]
  rfl

variable [LawfulEqOrd κ]

/-- Of the chart of a captured store the first entries are read, as many as the router's charts
hold. -/
theorem Lists.topK_calls [DecidableEq κ] (h : r.Lists accepted) {shard : UInt64} {m : Nat}
    {calls : List (StoreCall κ)}
    (hs : .capture shard ((.empty : Store κ m).calls calls) ∈ accepted)
    (hkey : key ∈ ((.empty : Store κ m).calls calls).keys) :
    r.topK key = .ok ((((.empty : Store κ m).calls calls).topK key).map (·.take k)) := by
  obtain ⟨c, hc⟩ := Option.isSome_iff_exists.1 (Store.mem_keys.1 hkey)
  have hsound := (Store.sound_calls (k := m) calls).of_get? hc
  rw [h.topK_capture hs hc hsound, Store.topK, hc]
  rfl

/-! ## Reachable routers -/

theorem serves_of_ofSnapshots (h : ofSnapshots accepted = .ok r) : r.Serves accepted := by
  suffices hgo : ∀ (rest done : List (Snapshot κ)) (r' : Router κ k), r'.Serves done →
      rest.foldlM Router.publish r' = .ok r → r.Serves (done ++ rest) from
    hgo accepted [] empty serves_empty h
  intro rest
  induction rest with
  | nil =>
    intro done r' hr' h
    cases h
    rw [List.append_nil]
    exact hr'
  | cons s rest ih =>
    intro done r' hr' h
    rw [List.foldlM_cons] at h
    obtain ⟨r'', hpublish, h⟩ := Attempt.bind_eq_ok.1 h
    rw [List.append_cons]
    exact ih _ r'' (hr'.publish hpublish) h

theorem Reachable.serves (h : r.Reachable accepted) : r.Serves accepted := by
  induction h with
  | empty => exact serves_empty
  | ofSnapshots h => exact serves_of_ofSnapshots h
  | offer _ s ih => exact ih.offer s

end Router

/-- **Routed queries read what the owner published.** A reachable router knows exactly the keys of
the snapshots that it has accepted. It answers a query for one of them from the bytes that its owner
published: these are corrupt if they are not whole records, and then the owner and their number are
named; no bytes are an empty chart, and all others the chart that they are decoded to. Nothing but
the owner and these bytes has a part in the answer. If the owner captured a store that calls had led
to, the answer is as much of the answer of this store as the charts of the router hold. -/
theorem answers_published [LawfulEqOrd κ] [DecidableEq κ] {r : Router κ k}
    {accepted : List (Snapshot κ)} (h : r.Reachable accepted) :
    (∀ key, r.topK key = .ok none ↔ ∀ s ∈ accepted, key ∉ s.charts) ∧
    (∀ s ∈ accepted, ∀ key bytes, s.charts[key]? = some bytes → r.ownerOf key = some s.shard ∧
      (∀ e, r.topK key = .error e ↔
        e = .corrupt s.shard ⟨bytes.length⟩ ∧ ¬ 16 ∣ bytes.length) ∧
      (bytes = [] → r.topK key = .ok (some [])) ∧
      (bytes ≠ [] → 16 ∣ bytes.length → ∃ c : Chart k,
        Chart.decode (some bytes) = .ok (some c) ∧ r.topK key = .ok (some c.toList))) ∧
    (∀ (r' : Router κ k) (accepted' : List (Snapshot κ)), r'.Reachable accepted' →
      ∀ s ∈ accepted, ∀ s' ∈ accepted', s.shard = s'.shard → ∀ key ∈ s.charts,
        s.charts[key]? = s'.charts[key]? → r.topK key = r'.topK key) ∧
    ∀ (shard : UInt64) (m : Nat) (calls : List (StoreCall κ)),
      let store : Store κ m := Store.empty.calls calls
      .capture shard store ∈ accepted → ∀ key ∈ store.keys,
        r.topK key = .ok ((store.topK key).map (·.take k)) ∧
          (m = k → r.topK key = .ok (store.topK key)) := by
  have hlists := h.serves.lists
  refine ⟨fun key => hlists.topK_eq_none_iff, ?_, ?_, ?_⟩
  · intro s hs key bytes hkey
    have hmem : key ∈ s.charts := ExtTreeMap.mem_iff_isSome_getElem?.2 (hkey ▸ rfl)
    refine ⟨hlists.ownerOf_eq hs hmem, fun e => hlists.topK_eq_error_iff hs hkey, ?_, ?_⟩
    · rintro rfl
      exact hlists.topK_of_nil hs hkey
    · exact hlists.topK_of_dvd hs hkey
  · intro r' accepted' h' s hs s' hs' hshard key hkey hbytes
    have hkey := ExtTreeMap.getElem?_eq_some_getElem hkey
    rw [hlists.topK_eq hs hkey, h'.serves.lists.topK_eq hs' (hbytes ▸ hkey), hshard]
  · intro shard m calls store hs key hkey
    have htop : r.topK key = .ok ((store.topK key).map (·.take k)) := hlists.topK_calls hs hkey
    refine ⟨htop, ?_⟩
    rintro rfl
    have hlength : (store.chart key).toList.length ≤ m := (Store.sound_calls calls key).length_le
    rw [htop, Store.topK_eq]
    split
    · rw [Option.map_some, List.take_of_length_le hlength]
    · rfl

/-- A router of charts of two entries. One shard captured a store of charts of three, one of which
has become empty; on another a chart is corrupt, and the one next to it is read. -/
theorem answers_published_corrupt :
    let calls : List (StoreCall Nat) := [.apply 1 .add ⟨7, 5⟩, .apply 1 .add ⟨8, 9⟩,
      .apply 1 .add ⟨9, 6⟩, .apply 2 .add ⟨7, 5⟩, .apply 2 .remove ⟨7, 5⟩]
    let store : Store Nat 3 := Store.empty.calls calls
    let a : Snapshot Nat := .capture 4 store
    let b : Snapshot Nat := ⟨0, .ofList [(3, [1]), (5, (⟨7, -1⟩ : Entry).encode)]⟩
    let r : Router Nat 2 := ([a, ⟨4, ∅⟩, b].foldl Router.offer (.empty, [])).1
    r.Reachable [a, b] ∧ r.topK 1 = .ok (some [⟨8, 9⟩, ⟨9, 6⟩]) ∧ r.topK 2 = .ok (some []) ∧
      r.topK 3 = .error (.corrupt 0 ⟨1⟩) ∧ r.topK 5 = .ok (some [⟨7, -1⟩]) ∧
      r.topK 6 = .ok none := by
  intro calls store a b r
  have haccepted : ([a, ⟨4, ∅⟩, b].foldl Router.offer (Router.empty (k := 2), [])).2 = [a, b] := rfl
  have hreach : r.Reachable [a, b] := haccepted ▸ Router.Reachable.empty.foldl_offer _
  obtain ⟨hnone, hbytes, -, hcapture⟩ := answers_published hreach
  have ha : Snapshot.capture 4 store ∈ [a, b] := List.mem_cons_self
  have hb : b ∈ [a, b] := List.mem_cons_of_mem a List.mem_cons_self
  refine ⟨hreach, ?_, ?_, ?_, ?_, ?_⟩
  · exact (hcapture 4 3 calls ha 1 (by decide)).1.trans (by decide)
  · exact (hcapture 4 3 calls ha 2 (by decide)).1.trans (by decide)
  · exact ((hbytes b hb 3 [1] rfl).2.1 _).2 ⟨rfl, by decide⟩
  · obtain ⟨c, hc, htop⟩ := (hbytes b hb 5 _ rfl).2.2.2 (by decide) (by decide)
    have hread : Entry.listOfBytes (⟨7, -1⟩ : Entry).encode = [⟨7, -1⟩] :=
      Entry.listOfBytes_flatMap_encode [⟨7, -1⟩]
    have hdecode : Chart.decode (k := 2) (some (⟨7, -1⟩ : Entry).encode) = .ok _ :=
      Chart.decode_of_dvd (by decide) (by decide)
    rw [hread] at hdecode
    cases hc.symm.trans hdecode
    exact htop.trans (by decide)
  · refine (hnone 6).2 fun s hs => ?_
    rcases List.mem_pair.1 hs with rfl | rfl
    · decide
    · decide

end TopCharts
