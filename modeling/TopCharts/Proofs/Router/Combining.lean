import TopCharts.Proofs.Attempt
import TopCharts.Proofs.Router.Reading

/-!
# When snapshots make a router

* `pairwise_apart_iff`, `exists_ofSnapshots_iff` : snapshots make a router exactly if their shards
  differ and no two of them have a key in common;
* `Lists.eq_of_perm` : the router does not show in which order they came;
* `offers_of_ofSnapshots` : it is the one that publishing them in place leads to;
* `exists_refused` : else the first snapshots that can be published are followed by one that is
  refused, and so is the whole list for the same reason;
* `combined_snapshots` : all this for every list of snapshots.
-/

namespace TopCharts

open Std (ExtTreeMap TransOrd LawfulEqOrd)

variable {κ : Type} [Ord κ] [TransOrd κ] {k : Nat} {snapshots order : List (Snapshot κ)}

theorem Snapshot.pairwise_apart_iff :
    snapshots.Pairwise Snapshot.Apart ↔ (snapshots.map Snapshot.shard).Nodup ∧
      snapshots.Pairwise fun s t => ∀ key ∈ s.charts, key ∉ t.charts := by
  rw [List.Nodup, List.pairwise_map, ← List.pairwise_and_iff]
  exact List.Pairwise.iff fun s t => ⟨fun h => ⟨h.shard, h.keys⟩, fun h => ⟨h.1, h.2⟩⟩

namespace Router

variable [LawfulEqOrd κ] {r r' : Router κ k}

theorem exists_ofSnapshots_iff :
    (∃ r : Router κ k, ofSnapshots snapshots = .ok r) ↔ snapshots.Pairwise Snapshot.Apart := by
  constructor
  · rintro ⟨r, h⟩
    exact (serves_of_ofSnapshots h).apart
  · intro h
    obtain ⟨r, hr, -⟩ := exists_ofSnapshots (k := k) h
    exact ⟨r, hr⟩

theorem Lists.eq_of_perm (h : r.Lists snapshots) (h' : r'.Lists order)
    (hperm : order.Perm snapshots) : r' = r := by
  obtain ⟨shards, directory⟩ := r
  obtain ⟨shards', directory'⟩ := r'
  have hshards : shards' = shards := by
    refine ExtTreeMap.ext_getElem? fun shard => Option.ext fun s => ?_
    rw [h'.shards shard s, h.shards shard s, hperm.mem_iff]
  have hdirectory : directory' = directory := by
    refine ExtTreeMap.ext_getElem? fun key => Option.ext fun shard => ?_
    refine (h'.directory key shard).trans (Iff.trans ?_ (h.directory key shard).symm)
    simp only [hperm.mem_iff]
  rw [hshards, hdirectory]

omit [LawfulEqOrd κ] in
/-- Snapshots that make a router are all accepted when they are published in place. -/
theorem offers_of_ofSnapshots (h : ofSnapshots snapshots = .ok r) :
    offers snapshots = (r, snapshots) := by
  suffices hgo : ∀ (rest done : List (Snapshot κ)) (r' : Router κ k),
      rest.foldlM Router.publish r' = .ok r → rest.foldl offer (r', done) = (r, done ++ rest) from
    hgo snapshots [] empty h
  intro rest
  induction rest with
  | nil =>
    intro done r' h
    cases h
    rw [List.append_nil]
    rfl
  | cons s rest ih =>
    intro done r' h
    rw [List.foldlM_cons] at h
    obtain ⟨r'', hpublish, h⟩ := Attempt.bind_eq_ok.1 h
    have hoffer : offer (r', done) s = (r'', done ++ [s]) := by rw [offer, run_register, hpublish]
    rw [List.foldl_cons, hoffer, ih _ r'' h, List.append_cons done s rest]

/-- Snapshots that make no router begin with some that do, up to the first that is refused. -/
theorem exists_refused {e : RoutingError} (h : ofSnapshots (k := k) snapshots = .error e) :
    ∃ (front : List (Snapshot κ)) (s : Snapshot κ) (r : Router κ k),
      front ++ [s] <+: snapshots ∧ ofSnapshots front = .ok r ∧ r.publish s = .error e ∧
        ∀ part, part <+: snapshots →
          ((∃ r' : Router κ k, ofSnapshots part = .ok r') ↔ part <+: front) := by
  obtain ⟨front, s, r, hprefix, hfront, hs⟩ := Attempt.exists_of_foldlM_eq_error h
  refine ⟨front, s, r, hprefix, hfront, hs, fun part hpart => ⟨fun hmade => ?_, fun hle => ?_⟩⟩
  · refine List.prefix_of_prefix_length_le hpart ((List.prefix_append _ _).trans hprefix) ?_
    by_contra hlong
    have hle : front ++ [s] <+: part := by
      refine List.prefix_of_prefix_length_le hprefix hpart ?_
      rw [List.length_append, List.length_singleton]
      omega
    have hapart := (exists_ofSnapshots_iff.1 hmade).sublist hle.sublist
    obtain ⟨r', hr'⟩ := (serves_of_ofSnapshots hfront).lists.publish_eq_ok.2 fun t ht =>
      (List.pairwise_append.1 hapart).2.2 t ht s (List.mem_singleton_self s)
    rw [hs] at hr'
    cases hr'
  · exact exists_ofSnapshots_iff.2 ((serves_of_ofSnapshots hfront).apart.sublist hle.sublist)

end Router

open Router

/-- **When snapshots combine.** Snapshots make a router exactly if their shards differ and no two of
them have a key in common. They make the same router in any other order. If they make none, the
error is that of publishing them in place one by one: some of the first are all accepted, which are
the most of the first that make a router, and the error is what the next one is refused for. -/
theorem combined_snapshots [LawfulEqOrd κ] (k : Nat) (snapshots : List (Snapshot κ)) :
    ((∃ r : Router κ k, ofSnapshots snapshots = .ok r) ↔
      (snapshots.map Snapshot.shard).Nodup ∧
        snapshots.Pairwise fun s t => ∀ key ∈ s.charts, key ∉ t.charts) ∧
    (∀ r : Router κ k, ofSnapshots snapshots = .ok r →
      ∀ order : List (Snapshot κ), order.Perm snapshots → ofSnapshots order = .ok r) ∧
    ∀ e, ofSnapshots (k := k) snapshots = .error e →
      ∃ (front : List (Snapshot κ)) (s : Snapshot κ) (r : Router κ k),
        front ++ [s] <+: snapshots ∧
        (∀ part, part <+: snapshots →
          ((∃ r' : Router κ k, ofSnapshots part = .ok r') ↔ part <+: front)) ∧
        offers front = (r, front) ∧ (register s).run r = .error e r := by
  refine ⟨exists_ofSnapshots_iff.trans Snapshot.pairwise_apart_iff, ?_, ?_⟩
  · intro r h order hperm
    have hserves := serves_of_ofSnapshots h
    have hapart : order.Pairwise Snapshot.Apart :=
      (hperm.pairwise_iff fun h => h.symm).2 hserves.apart
    obtain ⟨r', hr', hlists⟩ := exists_ofSnapshots (k := k) hapart
    rw [hr', hserves.lists.eq_of_perm hlists hperm]
  · intro e h
    obtain ⟨front, s, r, hprefix, hfront, hs, hmost⟩ := exists_refused h
    refine ⟨front, s, r, hprefix, hmost, offers_of_ofSnapshots hfront, ?_⟩
    rw [run_register, hs]

/-- Two snapshots, of which one has no keys, in both orders. Followed by one of the same shard they
make no router, and what comes after it does not matter. -/
theorem combined_snapshots_refused :
    let a : Snapshot Nat := ⟨3, .ofList [(1, [])]⟩
    let b : Snapshot Nat := ⟨1, ∅⟩
    let c : Snapshot Nat := ⟨1, .ofList [(2, [])]⟩
    let d : Snapshot Nat := ⟨0, .ofList [(1, []), (2, [])]⟩
    let r : Router Nat 2 := (offers [a, b]).1
    (ofSnapshots [a, b] = .ok r ∧ [b, a].Perm [a, b] ∧ ofSnapshots [b, a] = .ok r) ∧
      ofSnapshots (k := 2) [a, b, c, d] = .error (.duplicateShard 1) ∧
      ∃ (front : List (Snapshot Nat)) (s : Snapshot Nat) (r' : Router Nat 2),
        front ++ [s] <+: [a, b, c, d] ∧ offers front = (r', front) ∧
          (register s).run r' = .error (.duplicateShard 1) r' := by
  intro a b c d r
  obtain ⟨-, hperm, -⟩ := combined_snapshots 2 [a, b]
  obtain ⟨-, -, hrefused⟩ := combined_snapshots 2 [a, b, c, d]
  have hmade : ofSnapshots [a, b] = .ok r := rfl
  have horder : [b, a].Perm [a, b] := .swap a b []
  have herror : ofSnapshots (k := 2) [a, b, c, d] = .error (.duplicateShard 1) := rfl
  obtain ⟨front, s, r', hprefix, -, haccepted, hs⟩ := hrefused _ herror
  exact ⟨⟨hmade, horder, hperm r hmade [b, a] horder⟩, herror, front, s, r', hprefix, haccepted, hs⟩

end TopCharts
