import TopCharts.Proofs.Router.Publish

/-!
# Publishing in place

A router that takes a snapshot checks its keys one at a time and then enters them one at a time, so
a refusal could leave a shard half published. It does not.

* `Router.register` : publishing as steps that change the router; a refusal leaves the router as the
  steps before it made it. `run_register` : it gives what `publish` gives, or the router unchanged;
* `Refused accepted s e` : why a snapshot cannot follow others. `Lists.publish_eq_error`,
  `Lists.publish_eq_ok` : these are the errors of `publish`, and it has no others;
* `Router.offer`, `Router.offers` : a router with the snapshots that it has accepted, after one call
  and after many. `serves_offers` : after any calls the router serves just these, and they lie
  apart;
* `consistent_router` : what the directory, the list of the shards and the next call say then.
-/

namespace TopCharts

open Std (ExtTreeMap TransOrd LawfulEqOrd)

variable {κ : Type} [Ord κ] [TransOrd κ] {k : Nat}

/-- Why a snapshot cannot be published after others. A shard that is there comes first, and then the
smallest key that an earlier snapshot has. -/
inductive Snapshot.Refused (s : Snapshot κ) (accepted : List (Snapshot κ)) : RoutingError → Prop where
  | duplicateShard {t : Snapshot κ} (ht : t ∈ accepted) (hshard : t.shard = s.shard) :
      s.Refused accepted (.duplicateShard s.shard)
  | sharedKey {t : Snapshot κ} {key : κ} (hnew : ∀ u ∈ accepted, u.shard ≠ s.shard)
      (ht : t ∈ accepted) (hkey : key ∈ s.charts) (hmem : key ∈ t.charts)
      (hleast : ∀ a ∈ s.charts, compare a key = .lt → ∀ u ∈ accepted, a ∉ u.charts) :
      s.Refused accepted (.sharedKey t.shard s.shard)

namespace Router

/-! ## In steps -/

def requireNew (shard : UInt64) : EStateM RoutingError (Router κ k) Unit := do
  if (← get).shards.contains shard then throw (.duplicateShard shard)

def requireFree (shard : UInt64) (key : κ) : EStateM RoutingError (Router κ k) Unit := do
  match (← get).ownerOf key with
  | some first => throw (.sharedKey first shard)
  | none => pure ()

def enter (shard : UInt64) (key : κ) : EStateM RoutingError (Router κ k) Unit :=
  modify fun r => { r with directory := r.directory.insert key shard }

def register (s : Snapshot κ) : EStateM RoutingError (Router κ k) Unit := do
  requireNew s.shard
  s.charts.keys.forM (requireFree s.shard)
  s.charts.keys.forM (enter s.shard)
  modify fun r => { r with shards := r.shards.insert s.shard s }

omit [TransOrd κ] in
theorem run_requireNew (r : Router κ k) (shard : UInt64) :
    (requireNew shard).run r =
      if r.shards.contains shard then .error (.duplicateShard shard) r else .ok () r := by
  change (if r.shards.contains shard then throw (.duplicateShard shard)
    else pure () : EStateM RoutingError (Router κ k) Unit).run r = _
  split
  · rfl
  · rfl

theorem run_requireFree (r : Router κ k) (shard : UInt64) (key : κ) :
    (requireFree shard key).run r =
      match r.ownerOf key with
      | some first => .error (.sharedKey first shard) r
      | none => .ok () r := by
  change (match r.ownerOf key with
    | some first => throw (.sharedKey first shard)
    | none => pure () : EStateM RoutingError (Router κ k) Unit).run r = _
  cases r.ownerOf key with
  | none => rfl
  | some first => rfl

theorem run_forM_requireFree (r : Router κ k) (shard : UInt64) (keys : List κ) :
    (keys.forM (requireFree shard)).run r =
      match keys.findSome? r.ownerOf with
      | some first => .error (.sharedKey first shard) r
      | none => .ok () r := by
  induction keys with
  | nil => rfl
  | cons key keys ih =>
    change (requireFree shard key >>= fun _ => keys.forM (requireFree shard)).run r = _
    rw [EStateM.run_bind, run_requireFree, List.findSome?_cons]
    cases r.ownerOf key with
    | none => exact ih
    | some first => rfl

theorem run_forM_enter (r : Router κ k) (shard : UInt64) (keys : List κ) :
    (keys.forM (enter shard)).run r = .ok () { r with
      directory := keys.foldl (fun directory key => directory.insert key shard) r.directory } := by
  induction keys generalizing r with
  | nil => rfl
  | cons key keys ih => exact ih { r with directory := r.directory.insert key shard }

/-- **Publishing is atomic.** The steps lead to what `publish` gives, and from a refusal back to the
router that there was: no key is entered before all are checked. -/
theorem run_register (r : Router κ k) (s : Snapshot κ) :
    (register s).run r =
      match r.publish s with
      | .ok r' => .ok () r'
      | .error e => .error e r := by
  rw [register, publish, EStateM.run_bind, run_requireNew]
  by_cases hshard : r.shards.contains s.shard
  · rw [if_pos hshard, if_pos hshard]
  · rw [if_neg hshard, if_neg hshard]
    dsimp only
    rw [EStateM.run_bind, run_forM_requireFree]
    cases s.charts.keys.findSome? r.ownerOf with
    | some first => rfl
    | none =>
      dsimp only
      rw [EStateM.run_bind, run_forM_enter]
      rfl

/-! ## What is refused -/

variable [LawfulEqOrd κ] {r : Router κ k} {s : Snapshot κ} {accepted : List (Snapshot κ)}

theorem findSome?_keys_eq_some {α β : Type} {m : ExtTreeMap κ α} {f : κ → Option β} {b : β} :
    m.keys.findSome? f = some b ↔
      ∃ key ∈ m, f key = some b ∧ ∀ a ∈ m, compare a key = .lt → f a = none := by
  have hordered : m.keys.Pairwise fun a b => compare a b = .lt := ExtTreeMap.ordered_keys
  constructor
  · intro hfind
    obtain ⟨before, key, after, hkeys, hkey, hbefore⟩ := List.findSome?_eq_some_iff.1 hfind
    -- the keys are in order, so those before are all that are smaller
    have hmem : key ∈ m.keys := hkeys ▸ List.mem_append_right before List.mem_cons_self
    refine ⟨key, ExtTreeMap.mem_keys.1 hmem, hkey, fun a ha hlt => ?_⟩
    rw [← ExtTreeMap.mem_keys, hkeys, List.mem_append, List.mem_cons] at ha
    rw [hkeys, List.pairwise_append, List.pairwise_cons] at hordered
    rcases ha with ha | rfl | ha
    · exact hbefore a ha
    · rw [Std.ReflOrd.compare_self] at hlt
      cases hlt
    · rw [Std.OrientedOrd.eq_swap, hordered.2.1.1 a ha] at hlt
      cases hlt
  · rintro ⟨key, hmem, hkey, hleast⟩
    obtain ⟨before, after, hkeys⟩ := List.append_of_mem (ExtTreeMap.mem_keys.2 hmem)
    rw [hkeys, List.pairwise_append] at hordered
    refine List.findSome?_eq_some_iff.2 ⟨before, key, after, hkeys, hkey, fun a ha => ?_⟩
    refine hleast a ?_ (hordered.2.2 a ha key List.mem_cons_self)
    rw [← ExtTreeMap.mem_keys, hkeys]
    exact List.mem_append_left _ ha

theorem Lists.publish_eq_error (h : r.Lists accepted) {e : RoutingError} :
    r.publish s = .error e ↔ s.Refused accepted e := by
  constructor
  · intro hpublish
    rw [Router.publish] at hpublish
    split at hpublish
    · rename_i hshard
      obtain ⟨t, ht, hshard⟩ := h.contains_shard_iff.1 hshard
      cases hpublish
      exact .duplicateShard ht hshard
    · rename_i hshard
      split at hpublish
      · rename_i first hfind
        obtain ⟨key, hkey, hfirst, hleast⟩ := findSome?_keys_eq_some.1 hfind
        obtain ⟨t, ht, rfl, hmem⟩ := (h.directory key first).1 hfirst
        cases hpublish
        refine .sharedKey (fun u hu heq => ?_) ht hkey hmem fun a ha hlt => ?_
        · exact hshard (h.contains_shard_iff.2 ⟨u, hu, heq⟩)
        · exact h.ownerOf_eq_none_iff.1 (hleast a ha hlt)
      · cases hpublish
  · intro hrefused
    rw [Router.publish]
    cases hrefused with
    | duplicateShard ht hshard => rw [if_pos (h.contains_shard_iff.2 ⟨_, ht, hshard⟩)]
    | @sharedKey t key hnew ht hkey hmem hleast =>
      have hshard : ¬ r.shards.contains s.shard := fun hshard => by
        obtain ⟨u, hu, heq⟩ := h.contains_shard_iff.1 hshard
        exact hnew u hu heq
      have hfind : s.charts.keys.findSome? r.ownerOf = some t.shard := by
        refine findSome?_keys_eq_some.2 ⟨key, hkey, h.ownerOf_eq ht hmem, fun a ha hlt => ?_⟩
        exact h.ownerOf_eq_none_iff.2 (hleast a ha hlt)
      rw [if_neg hshard, hfind]

/-- Only snapshots that lie apart from those before are accepted. -/
theorem Lists.apart_of_publish (h : r.Lists accepted) {r' : Router κ k}
    (hpublish : r.publish s = .ok r') : ∀ t ∈ accepted, t.Apart s := by
  intro t ht
  obtain ⟨⟨hshard, hfree⟩, -⟩ := publish_eq_ok_iff.1 hpublish
  refine ⟨fun heq => hshard (h.contains_shard_iff.2 ⟨t, ht, heq⟩), fun key hmem hkey => ?_⟩
  exact h.ownerOf_eq_none_iff.1 (hfree key hkey) t ht hmem

theorem Lists.publish_eq_ok (h : r.Lists accepted) :
    (∃ r', r.publish s = .ok r') ↔ ∀ t ∈ accepted, t.Apart s := by
  constructor
  · rintro ⟨r', hpublish⟩
    exact h.apart_of_publish hpublish
  · intro hapart
    obtain ⟨r', hpublish, -⟩ := h.publish hapart
    exact ⟨r', hpublish⟩

/-! ## Call after call -/

/-- The router holds these snapshots and no others, and they lie apart. -/
structure Serves (r : Router κ k) (accepted : List (Snapshot κ)) : Prop where
  lists : r.Lists accepted
  apart : accepted.Pairwise Snapshot.Apart

omit [LawfulEqOrd κ] in
theorem serves_empty : (empty : Router κ k).Serves [] :=
  ⟨lists_empty, .nil⟩

theorem Serves.publish (h : r.Serves accepted) {r' : Router κ k} (hpublish : r.publish s = .ok r') :
    r'.Serves (accepted ++ [s]) := by
  have hapart := h.lists.apart_of_publish hpublish
  obtain ⟨r'', hpublish', hlists⟩ := h.lists.publish hapart
  obtain rfl : r' = r'' := Except.ok.inj (hpublish.symm.trans hpublish')
  refine ⟨hlists, List.pairwise_append.2 ⟨h.apart, List.pairwise_singleton _ s, ?_⟩⟩
  intro t ht u hu
  rw [List.mem_singleton.1 hu]
  exact hapart t ht

/-- One call on a router, with the snapshots that the router has accepted. -/
def offer (state : Router κ k × List (Snapshot κ)) (s : Snapshot κ) :
    Router κ k × List (Snapshot κ) :=
  match (register s).run state.1 with
  | .ok _ r => (r, state.2 ++ [s])
  | .error _ r => (r, state.2)

def offers (snapshots : List (Snapshot κ)) : Router κ k × List (Snapshot κ) :=
  snapshots.foldl offer (empty, [])

theorem Serves.offer {state : Router κ k × List (Snapshot κ)} (h : state.1.Serves state.2)
    (s : Snapshot κ) : (offer state s).1.Serves (offer state s).2 := by
  rw [Router.offer, run_register]
  cases hpublish : state.1.publish s with
  | ok r' => exact h.publish hpublish
  | error e => exact h

theorem serves_offers (snapshots : List (Snapshot κ)) :
    (offers (k := k) snapshots).1.Serves (offers (k := k) snapshots).2 := by
  suffices hgo : ∀ state : Router κ k × List (Snapshot κ), state.1.Serves state.2 →
      (snapshots.foldl Router.offer state).1.Serves (snapshots.foldl Router.offer state).2 from
    hgo (empty, []) serves_empty
  induction snapshots with
  | nil => exact fun state h => h
  | cons s snapshots ih => exact fun state h => ih (Router.offer state s) (h.offer s)

omit [LawfulEqOrd κ] in
theorem Serves.mem_discovery (h : r.Serves accepted) {shard : UInt64} {keys : List κ} :
    (shard, keys) ∈ r.discovery ↔ ∃ s ∈ accepted, s.shard = shard ∧ s.charts.keys = keys := by
  rw [discovery, List.mem_map]
  constructor
  · rintro ⟨⟨_, s⟩, hs, heq⟩
    cases heq
    obtain ⟨hmem, rfl⟩ := (h.lists.shards _ s).1 (ExtTreeMap.mem_toList_iff_getElem?_eq_some.1 hs)
    exact ⟨s, hmem, rfl, rfl⟩
  · rintro ⟨s, hs, rfl, rfl⟩
    have hshard := (h.lists.shards s.shard s).2 ⟨hs, rfl⟩
    exact ⟨(s.shard, s), ExtTreeMap.mem_toList_iff_getElem?_eq_some.2 hshard, rfl⟩

theorem Serves.pairwise_discovery (h : r.Serves accepted) :
    r.discovery.Pairwise fun a b => a.1 < b.1 ∧ a.2.Disjoint b.2 := by
  have hshards : r.discovery.Pairwise fun a b => a.1 < b.1 := by
    rw [discovery, List.pairwise_map]
    exact ExtTreeMap.ordered_keys_toList.imp Std.compare_eq_lt.1
  refine hshards.imp_of_mem ?_
  intro a b ha hb hlt
  refine ⟨hlt, fun key hkey hkey' => ?_⟩
  obtain ⟨s, hs, hshard, hkeys⟩ := h.mem_discovery.1 ha
  obtain ⟨t, ht, hshard', hkeys'⟩ := h.mem_discovery.1 hb
  have howner := h.lists.ownerOf_eq hs (ExtTreeMap.mem_keys.1 (hkeys ▸ hkey))
  rw [h.lists.ownerOf_eq ht (ExtTreeMap.mem_keys.1 (hkeys' ▸ hkey')), hshard, hshard',
    Option.some_inj] at howner
  exact UInt64.lt_irrefl _ (howner ▸ hlt)

end Router

open Router

/-- **A router stays consistent, whatever is published on it.** After any calls the directory has
exactly the keys of the accepted snapshots, each with the shard of the one that has it, and the
shards are listed by increasing numbers, with keys of their own. A further snapshot is refused just
if its shard or a key of it is there. The error reports the shard first and then the owner of the
smallest such key; the router and all that follows are as if the call had not been made. -/
theorem consistent_router [LawfulEqOrd κ] (k : Nat) (snapshots : List (Snapshot κ)) :
    let r : Router κ k := (offers snapshots).1
    let accepted : List (Snapshot κ) := (offers (k := k) snapshots).2
    (∀ key shard, r.ownerOf key = some shard ↔
      ∃ s ∈ accepted, s.shard = shard ∧ key ∈ s.charts) ∧
    accepted.Pairwise Snapshot.Apart ∧
    (∀ shard keys, (shard, keys) ∈ r.discovery ↔
      ∃ s ∈ accepted, s.shard = shard ∧ s.charts.keys = keys) ∧
    (r.discovery.Pairwise fun a b => a.1 < b.1 ∧ a.2.Disjoint b.2) ∧
    (∀ s, (∃ r', r.publish s = .ok r') ↔ ∀ t ∈ accepted, t.Apart s) ∧
    (∀ s e, r.publish s = .error e ↔ s.Refused accepted e) ∧
    (∀ s r', r.publish s = .ok r' → (register s).run r = .ok () r' ∧
      offers (snapshots ++ [s]) = (r', accepted ++ [s])) ∧
    ∀ s e, r.publish s = .error e → (register s).run r = .error e r ∧
      ∀ later, offers (k := k) (snapshots ++ s :: later) = offers (snapshots ++ later) := by
  intro r accepted
  have h : r.Serves accepted := serves_offers snapshots
  have hoffers (later : List (Snapshot κ)) :
      offers (snapshots ++ later) = later.foldl offer (r, accepted) :=
    List.foldl_append
  refine ⟨h.lists.directory, h.apart, fun _ _ => h.mem_discovery, h.pairwise_discovery,
    fun _ => h.lists.publish_eq_ok, fun _ _ => h.lists.publish_eq_error, ?_, ?_⟩
  · intro s r' hpublish
    have hrun : (register s).run r = .ok () r' := by rw [run_register, hpublish]
    refine ⟨hrun, ?_⟩
    rw [hoffers, List.foldl_cons, List.foldl_nil, offer, hrun]
  · intro s e hpublish
    have hrun : (register s).run r = .error e r := by rw [run_register, hpublish]
    refine ⟨hrun, fun later => ?_⟩
    rw [hoffers, hoffers, List.foldl_cons, offer, hrun]

/-- A shard that publishes twice, a key of another shard, and then a snapshot with keys of two
shards of which the smaller one is reported. -/
theorem consistent_router_two_shards :
    let a : Snapshot Nat := ⟨3, .ofList [(1, []), (4, [])]⟩
    let b : Snapshot Nat := ⟨3, .ofList [(9, [])]⟩
    let c : Snapshot Nat := ⟨1, .ofList [(2, []), (4, [])]⟩
    let d : Snapshot Nat := ⟨1, .ofList [(2, [])]⟩
    let e : Snapshot Nat := ⟨0, .ofList [(0, []), (2, []), (4, [])]⟩
    let r : Router Nat 2 := (offers [a, b, c, d]).1
    r.ownerOf 4 = some 3 ∧ (1, [2]) ∈ r.discovery ∧ e.Refused [a, d] (.sharedKey 1 0) ∧
      offers (k := 2) [a, b, c, d, e, b] = offers [a, b, c, d, b] := by
  intro a b c d e r
  obtain ⟨hdirectory, _, hdiscovery, _, _, herror, _, hlater⟩ := consistent_router 2 [a, b, c, d]
  have haccepted : (offers (k := 2) [a, b, c, d]).2 = [a, d] := rfl
  have hpublish : r.publish e = .error (.sharedKey 1 0) := rfl
  refine ⟨?_, ?_, (herror e _).1 hpublish, (hlater e _ hpublish).2 [b]⟩
  · refine (hdirectory 4 3).2 ⟨a, ?_, rfl, by decide⟩
    rw [haccepted]
    exact List.mem_cons_self
  · refine (hdiscovery 1 [2]).2 ⟨d, ?_, rfl, rfl⟩
    rw [haccepted]
    exact List.mem_cons_of_mem a List.mem_cons_self

end TopCharts
