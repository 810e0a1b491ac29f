import TopCharts.Articles
import TopCharts.Music
import TopCharts.Proofs.Chart.Built
import TopCharts.Proofs.Router.Registration
import TopCharts.Proofs.Store.PerKey

/-!
# The orders that everything is sorted by

* `Entry.Before`, `Change.Before`, `Window.Before`, `Play.Before`, `Song.Before`, `Update.Before` :
  the orders of the data, field by field. The comparisons decide them (`Entry.compare_eq_lt` and
  so on);
* `Chart.KeepsApart`, `Store.KeepsApart`, `Router.KeepsApart` : what the collections that rely on
  these orders hold, they hold once, and a change of one element or key leaves the others as they
  are. `Built.keepsApart` : so does every chart that can be built; `Store.keepsApart`,
  `Router.keepsApart` : every store and every router;
* `lawful_orders` : both together.
-/

namespace TopCharts

open Std (ExtTreeMap TransOrd LawfulEqOrd)

variable {κ : Type} {k : Nat}

/-! ## The data -/

/-- Higher scores rank first, equal scores by ascending identity. -/
def Entry.Before (a b : Entry) : Prop :=
  b.score < a.score ∨ b.score = a.score ∧ a.identity < b.identity

theorem Entry.compare_eq_lt (a b : Entry) : compare a b = .lt ↔ a.Before b := by
  rw [compare_lt_iff_lt, Entry.lt_iff, Entry.Before]

/-- Retractions come before additions. -/
def Change.Before (a b : Change) : Prop :=
  a = .remove ∧ b = .add

theorem Change.compare_eq_lt (a b : Change) : compare a b = .lt ↔ a.Before b := by
  unfold Before
  cases a <;> cases b <;> decide

theorem text_compare_eq_lt (a b : String) : compare a b = .lt ↔ a < b :=
  compareOfLessAndEq_eq_lt

def Window.Before (a b : Window) : Prop :=
  Prod.Lex (· < ·) (· < ·) (a.industry, a.startMs) (b.industry, b.startMs)

theorem Window.compare_eq_lt (a b : Window) : compare a b = .lt ↔ a.Before b :=
  compareLex_eq_lt (text_compare_eq_lt _ _) Std.compare_eq_lt

def Play.Before (a b : Play) : Prop :=
  Prod.Lex (· < ·) (Prod.Lex (· < ·) (· < ·))
    (a.songId, a.durationMs, a.region) (b.songId, b.durationMs, b.region)

theorem Play.compare_eq_lt (a b : Play) : compare a b = .lt ↔ a.Before b := by
  apply compareLex_eq_lt Std.compare_eq_lt
  exact compareLex_eq_lt Std.compare_eq_lt (text_compare_eq_lt _ _)

def Song.Before (a b : Song) : Prop :=
  Prod.Lex (· < ·) (Prod.Lex (· < ·) (Prod.Lex (· < ·) (Prod.Lex (· < ·) (· < ·))))
    (a.id, a.album, a.artist, a.name, a.genre) (b.id, b.album, b.artist, b.name, b.genre)

theorem Song.compare_eq_lt (a b : Song) : compare a b = .lt ↔ a.Before b := by
  apply compareLex_eq_lt Std.compare_eq_lt
  apply compareLex_eq_lt (text_compare_eq_lt _ _)
  apply compareLex_eq_lt (text_compare_eq_lt _ _)
  exact compareLex_eq_lt (text_compare_eq_lt _ _) (text_compare_eq_lt _ _)

/-- Updates by key, the keys in an order of their own, then by change and by rank. -/
def Update.Before (before : κ → κ → Prop) (a b : Update κ) : Prop :=
  Prod.Lex before (Prod.Lex Change.Before Entry.Before)
    (a.key, a.change, a.entry) (b.key, b.change, b.entry)

theorem Update.compare_eq_lt [Ord κ] [LawfulEqOrd κ] {before : κ → κ → Prop}
    (h : Decides compare before) (a b : Update κ) : compare a b = .lt ↔ a.Before before b := by
  apply compareLex_eq_lt (h.lt_iff _ _)
  exact compareLex_eq_lt (Change.compare_eq_lt _ _) (Entry.compare_eq_lt _ _)

/-! ## Charts -/

/-- The ranked entries of a chart are all different, and so are the identities in its map. An
addition ranks the entry and keeps those of all other identities, save the one that it reports; a
retraction takes out the entry equal to its own and keeps all others. -/
structure Chart.KeepsApart (c : Chart k) : Prop where
  ranking : c.toList.Pairwise fun a b => compare a b = .lt
  identities : c.members.keys.Pairwise (· < ·)
  members : ∀ i e, c.get? i = some e ↔ e ∈ c.toList ∧ e.identity = i
  add : ∀ e, ((c.add e).2.toList ++ (c.add e).1.toList).Perm (e :: e.others c.toList)
  remove : ∀ e a, a ∈ (c.remove e).2.toList ↔ a ≠ e ∧ a ∈ c.toList

theorem Chart.Built.keepsApart {c : Chart k} (h : c.Built) : c.KeepsApart where
  ranking := h.sound.ranked.imp compare_lt_iff_lt.2
  identities := ExtTreeMap.ordered_keys.imp Std.compare_eq_lt.1
  members := h.sound.live
  add e := by
    rw [h.sound.toList_add, h.sound.evicted_add, List.take_append_drop]
    exact Entry.insertRanked_perm fun he => (Entry.mem_others.1 he).2 rfl
  remove _ _ := h.sound.mem_remove

/-! ## Stores and routers -/

variable [Ord κ] [TransOrd κ]

/-- The keys of a store are all different. A call changes the charts of the keys that it reaches,
and no others. -/
structure Store.KeepsApart [DecidableEq κ] (s : Store κ k) : Prop where
  keys : s.keys.Pairwise fun a b => compare a b = .lt
  mem_keys : ∀ key, key ∈ s.keys ↔ (s.get? key).isSome
  call : ∀ call key, (s.call call).get? key =
    if call.reaches key then call.effect (s.get? key) else s.get? key

theorem Store.keepsApart [LawfulEqOrd κ] [DecidableEq κ] (s : Store κ k) : s.KeepsApart where
  keys := s.pairwise_keys
  mem_keys _ := Store.mem_keys
  call := s.get?_call

/-- The shards of a router are all different, and so are the keys in its directory and those of each
shard. Publishing adds one shard and its keys, none of which was there, and moves no other key. -/
structure Router.KeepsApart (r : Router κ k) : Prop where
  keys : r.keys.Pairwise fun a b => compare a b = .lt
  mem_keys : ∀ key, key ∈ r.keys ↔ (r.ownerOf key).isSome
  shards : r.shards.keys.Pairwise (· < ·)
  shardKeys : ∀ x ∈ r.discovery, x.2.Pairwise fun a b => compare a b = .lt
  publish : ∀ s r', r.publish s = .ok r' →
    (s.shard ∉ r.shards ∧ ∀ key ∈ s.charts, r.ownerOf key = none) ∧
    (∀ shard, r'.shards[shard]? = if s.shard = shard then some s else r.shards[shard]?) ∧
    ∀ key, r'.ownerOf key = if key ∈ s.charts then some s.shard else r.ownerOf key

theorem Router.keepsApart [LawfulEqOrd κ] (r : Router κ k) : r.KeepsApart where
  keys := r.pairwise_keys
  mem_keys _ := Router.mem_keys
  shards := ExtTreeMap.ordered_keys.imp Std.compare_eq_lt.1
  shardKeys := by
    intro x hx
    rw [discovery, List.mem_map] at hx
    obtain ⟨⟨shard, s⟩, -, rfl⟩ := hx
    exact ExtTreeMap.ordered_keys
  publish := by
    intro s r' hpublish
    obtain ⟨⟨hshard, hfree⟩, -⟩ := publish_eq_ok_iff.1 hpublish
    rw [ExtTreeMap.contains_iff_mem] at hshard
    exact ⟨⟨hshard, hfree⟩, getElem?_shards_publish hpublish, ownerOf_publish hpublish⟩

/-! ## All together -/

/-- **The orders are lawful.** The comparisons of entries, changes, windows, plays and songs decide
strict total orders, those of their fields in turn, with higher scores and retractions first; and
so does that of updates, if the one of the keys does. Only equal values compare equal, and
permutations are sorted alike. So the charts, stores and routers hold every element and every key
once, and none in the place of another. -/
theorem lawful_orders (κ : Type) [Ord κ] [TransOrd κ] [LawfulEqOrd κ] [DecidableEq κ] (k : Nat) :
    (Sorts compare Entry.Before ∧ Sorts compare Change.Before ∧ Sorts compare Window.Before ∧
      Sorts compare Play.Before ∧ Sorts compare Song.Before ∧
      ∀ before : κ → κ → Prop, Decides compare before → Sorts compare (Update.Before before)) ∧
    (∀ c : Chart k, c.Built → c.KeepsApart) ∧
    (∀ s : Store κ k, s.KeepsApart) ∧
    ∀ r : Router κ k, r.KeepsApart := by
  refine ⟨⟨.of_lt_iff Entry.compare_eq_lt, .of_lt_iff Change.compare_eq_lt,
    .of_lt_iff Window.compare_eq_lt, .of_lt_iff Play.compare_eq_lt,
    .of_lt_iff Song.compare_eq_lt, ?_⟩, ?_, Store.keepsApart, Router.keepsApart⟩
  · intro before h
    exact .of_lt_iff (Update.compare_eq_lt h)
  · intro c hc
    exact hc.keepsApart

/-- Two windows of one industry: their updates in order, a chart with two equal scores, a store in
which only the later window is changed, and a router that gets it as a second shard. -/
theorem lawful_orders_windows :
    let a : Window := ⟨"news", 0⟩
    let b : Window := ⟨"news", 3600000⟩
    let us : List (Update Window) :=
      [⟨b, .add, ⟨1, 5⟩⟩, ⟨a, .add, ⟨2, 7⟩⟩, ⟨a, .add, ⟨1, 7⟩⟩, ⟨a, .remove, ⟨1, 3⟩⟩]
    let c : Chart 2 := .ofList [⟨2, 7⟩, ⟨1, 7⟩]
    let s : Store Window 2 := (Store.empty.applyAll us).2
    let first : Snapshot Window := ⟨4, .ofList [(a, [])]⟩
    let r : Router Window 2 := (Router.offers [first]).1
    (us.mergeSort fun x y => (compare x y).isLE) =
      [⟨a, .remove, ⟨1, 3⟩⟩, ⟨a, .add, ⟨1, 7⟩⟩, ⟨a, .add, ⟨2, 7⟩⟩, ⟨b, .add, ⟨1, 5⟩⟩] ∧
    ((c.add ⟨3, 7⟩).2.toList ++ (c.add ⟨3, 7⟩).1.toList).Perm [⟨3, 7⟩, ⟨1, 7⟩, ⟨2, 7⟩] ∧
    (s.call (.apply b .add ⟨9, 9⟩)).get? a = s.get? a ∧
    ∃ r', r.publish ⟨3, .ofList [(b, [])]⟩ = .ok r' ∧ r'.ownerOf a = some 4 ∧
      r'.ownerOf b = some 3 := by
  have hpublish : ∃ r' : Router Window 2,
      (Router.offers [⟨4, .ofList [(Window.mk "news" 0, [])]⟩]).1.publish
        ⟨3, .ofList [(Window.mk "news" 3600000, [])]⟩ = .ok r' := ⟨_, rfl⟩
  obtain ⟨⟨-, -, hwindow, -, -, hupdate⟩, hchart, hstore, hrouter⟩ := lawful_orders Window 2
  intro a b us c s first r
  refine ⟨?_, (hchart c (.ofList _)).add ⟨3, 7⟩, ?_, ?_⟩
  · have hperm : us.Perm [⟨a, .remove, ⟨1, 3⟩⟩, ⟨a, .add, ⟨1, 7⟩⟩, ⟨a, .add, ⟨2, 7⟩⟩,
        ⟨b, .add, ⟨1, 5⟩⟩] := by decide
    rw [(hupdate Window.Before hwindow.toDecides).sort_eq us _ hperm]
    exact List.mergeSort_of_pairwise (by decide)
  · exact ((hstore s).call (.apply b .add ⟨9, 9⟩) a).trans (if_neg (by decide))
  · obtain ⟨r', hpublish⟩ := hpublish
    obtain ⟨-, -, howner⟩ := (hrouter r).publish _ _ hpublish
    refine ⟨r', hpublish, ?_, ?_⟩
    · rw [howner, if_neg (by decide)]
      decide
    · rw [howner, if_pos (by decide)]

end TopCharts
