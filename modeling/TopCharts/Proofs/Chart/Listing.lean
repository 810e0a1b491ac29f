import TopCharts.Proofs.Chart.Sound

/-!
# A chart is a ranked list that is cut off

The plain picture of a chart is one list. An addition drops the entry of the same identity, appends
the new one, sorts the list by rank and cuts it off after `k` entries; a retraction drops the entry
that is equal in both fields; a replacement is that retraction and then that addition.

* `ChartCall`, `ChartReply` : the changes of a chart, and what they report;
* `Chart.call`, `Listing.call` : a change of a chart, and of a list;
* `replies` : the replies to changes made in turn, and the last state;
* `Listing.Shown l c` : the chart `c` is sound and shows `l`; a call keeps it (`call_shown`);
* `Chart.calls_eq_listing` : from the empty chart and the empty list on, every sequence of calls
  gets the same replies, and leaves a chart whose observations are those of the list.
-/

namespace TopCharts

inductive ChartCall where
  | add (e : Entry)
  | remove (e : Entry)
  | replace (old new : Option Entry)
  deriving DecidableEq

inductive ChartReply where
  /-- The entries that fell out. -/
  | dropped (entries : List Entry)
  /-- Whether the entry was there to be taken back. -/
  | found (present : Bool)
  deriving DecidableEq

def Chart.call {k : Nat} (c : Chart k) : ChartCall → ChartReply × Chart k
  | .add e => (.dropped (c.add e).1.toList, (c.add e).2)
  | .remove e => (.found (c.remove e).1, (c.remove e).2)
  | .replace old new => (.dropped (c.replace old new).1.toList, (c.replace old new).2)

namespace Listing

def sort (l : List Entry) : List Entry :=
  l.mergeSort fun a b => (compare a b).isLE

/-- Adds an entry; what lies beyond the first `k` entries is cut off and reported. -/
def add (k : Nat) (l : List Entry) (e : Entry) : List Entry × List Entry :=
  let sorted := sort ((l.filter fun x => x.identity ≠ e.identity) ++ [e])
  (sorted.drop k, sorted.take k)

/-- Drops the entry equal to `e` and reports whether there was one. -/
def remove (l : List Entry) (e : Entry) : Bool × List Entry :=
  (decide (e ∈ l), l.filter (· ≠ e))

def call (k : Nat) (l : List Entry) : ChartCall → ChartReply × List Entry
  | .add e => (.dropped (add k l e).1, (add k l e).2)
  | .remove e => (.found (remove l e).1, (remove l e).2)
  | .replace old new =>
    let rest := match old with
      | some e => (remove l e).2
      | none => l
    match new with
    | some e => (.dropped (add k rest e).1, (add k rest e).2)
    | none => (.dropped [], rest)

end Listing

def replies {σ : Type} (call : σ → ChartCall → ChartReply × σ) (s : σ) :
    List ChartCall → List ChartReply × σ
  | [] => ([], s)
  | c :: cs =>
    let (reply, s) := call s c
    let (rest, s) := replies call s cs
    (reply :: rest, s)

namespace Listing

variable {k : Nat} {c : Chart k} {l : List Entry}

theorem sort_append_singleton (h : Ranked l) {e : Entry} (he : e ∉ l) :
    sort (l ++ [e]) = e.insertRanked l := by
  refine Ranked.ext ?_ (Entry.ranked_insertRanked h) ?_
  · have hnodup : (l ++ [e]).Nodup :=
      List.nodup_append_comm.2 (List.nodup_cons.2 ⟨he, h.nodup⟩)
    exact (pairwise_mergeSort_lt compare hnodup).imp compare_lt_iff_lt.1
  · intro a
    rw [sort, List.mem_mergeSort, List.mem_append, List.mem_singleton, Entry.mem_insertRanked,
      or_comm]

structure Shown (l : List Entry) (c : Chart k) : Prop where
  sound : c.Sound
  toList_eq : c.toList = l

theorem Shown.sort_eq (h : Shown l c) (e : Entry) :
    sort ((l.filter fun x => x.identity ≠ e.identity) ++ [e]) =
      e.insertRanked (e.others c.toList) := by
  rw [h.toList_eq]
  refine sort_append_singleton ?_ fun he => (Entry.mem_others.1 he).2 rfl
  exact List.Pairwise.filter _ (h.toList_eq ▸ h.sound.ranked)

theorem Shown.add (h : Shown l c) (e : Entry) :
    (c.add e).1.toList = (Listing.add k l e).1 ∧ Shown (Listing.add k l e).2 (c.add e).2 := by
  refine ⟨?_, h.sound.add e, ?_⟩
  · rw [h.sound.evicted_add, ← h.sort_eq]
    rfl
  · rw [h.sound.toList_add, ← h.sort_eq]
    rfl

theorem Shown.remove (h : Shown l c) (e : Entry) :
    (c.remove e).1 = (Listing.remove l e).1 ∧ Shown (Listing.remove l e).2 (c.remove e).2 := by
  have hl : l.Nodup := by
    rw [← h.toList_eq]
    exact h.sound.ranked.nodup
  refine ⟨?_, h.sound.remove e, ?_⟩
  · rw [Chart.remove_fst, h.toList_eq]
    rfl
  · rw [Chart.toList_remove, h.toList_eq]
    refine (hl.erase_eq_filter e).trans (List.filter_congr ?_)
    intro x _
    rw [Bool.eq_iff_iff, bne_iff_ne, decide_eq_true_iff]

/-- **A call gets the same reply from a chart and from the list it shows**, and leaves them so. -/
theorem Shown.call (h : Shown l c) (call : ChartCall) :
    (c.call call).1 = (Listing.call k l call).1 ∧
      Shown (Listing.call k l call).2 (c.call call).2 := by
  cases call with
  | add e =>
    obtain ⟨hr, hs⟩ := h.add e
    exact ⟨congrArg ChartReply.dropped hr, hs⟩
  | remove e =>
    obtain ⟨hr, hs⟩ := h.remove e
    exact ⟨congrArg ChartReply.found hr, hs⟩
  | replace old new =>
    have hrest : Shown (match old with | some e => (Listing.remove l e).2 | none => l)
        (match old with | some e => (c.remove e).2 | none => c) := by
      cases old with
      | none => exact h
      | some e => exact (h.remove e).2
    cases new with
    | none => exact ⟨rfl, hrest⟩
    | some e =>
      obtain ⟨hr, hs⟩ := hrest.add e
      exact ⟨congrArg ChartReply.dropped hr, hs⟩

theorem Shown.replies (h : Shown l c) (calls : List ChartCall) :
    (replies Chart.call c calls).1 = (replies (Listing.call k) l calls).1 ∧
      Shown (replies (Listing.call k) l calls).2 (replies Chart.call c calls).2 := by
  induction calls generalizing l c with
  | nil => exact ⟨rfl, h⟩
  | cons call calls ih =>
    obtain ⟨hr, hs⟩ := h.call call
    obtain ⟨hrs, hs⟩ := ih hs
    exact ⟨congrArg₂ List.cons hr hrs, hs⟩

end Listing

/-- **A chart refines the list.** Every sequence of calls on the empty chart gets the replies that
the list gives, and afterwards the chart lists, counts and looks up what is in the list. -/
theorem Chart.calls_eq_listing (k : Nat) (calls : List ChartCall) :
    let chart := replies Chart.call (Chart.empty : Chart k) calls
    let list := replies (Listing.call k) [] calls
    chart.1 = list.1 ∧ chart.2.toList = list.2 ∧ chart.2.size = list.2.length ∧
      ∀ i, chart.2.get? i = list.2.find? (·.identity = i) := by
  intro chart list
  have hstart : Listing.Shown [] (Chart.empty : Chart k) := ⟨Chart.sound_empty, rfl⟩
  obtain ⟨hr, hs⟩ := hstart.replies calls
  refine ⟨hr, hs.toList_eq, ?_, ?_⟩
  · show chart.2.toList.length = list.2.length
    rw [hs.toList_eq]
  · intro i
    rw [hs.sound.get?_eq, hs.toList_eq]

end TopCharts
