import Mathlib
import TopCharts.Proofs.ChangeLog.Feeding
import TopCharts.Proofs.ChangeLog.Turning
import TopCharts.Tracker

/-!
# Charts of a growing table

* `Table κ` : a score for each identity that is listed under a key. `Table.entries` : the entries of
  a key;
* `Table.changes time old new` : the changes that turn one table into another;
* `Table.Grows old new` : no pair disappears and no score falls;
* `turns_changes` : what a drain delivers for any batch with the same net weights;
* `topK_run_growing` : a store fed with the changes of a growing table shows, after every batch, the
  best entries of every key. In a batch the records come in any order, with any that cancel out, and
  the retractions of a key leave several gaps in its chart before the first addition.
-/

namespace TopCharts

open Std (ExtTreeMap TransOrd LawfulEqOrd)

theorem net_map_of_nodup {κ τ : Type} [DecidableEq κ] [DecidableEq τ] {rows : List (κ × Entry)}
    (h : rows.Nodup) (time : τ) (diff : Int64) (t : τ) (key : κ) (e : Entry) :
    net (rows.map fun (key, e) => (⟨time, key, e, diff⟩ : Weighted κ τ)) (t, key, e) =
      if t = time ∧ (key, e) ∈ rows then diff.toInt else 0 := by
  induction h with
  | nil =>
    rw [if_neg fun h => List.not_mem_nil h.2]
    rfl
  | @cons row rows hrow _ ih =>
    obtain ⟨key', e'⟩ := row
    rw [List.map_cons, net_cons, ih]
    show (if (time, key', e') = (t, key, e) then _ else _) + _ = _
    by_cases hplace : (time, key', e') = (t, key, e)
    · obtain ⟨rfl, heq⟩ := Prod.mk.inj hplace
      rw [if_pos hplace, if_neg fun h => hrow _ h.2 heq, if_pos ⟨rfl, heq ▸ List.mem_cons_self⟩,
        Int.add_zero]
    · rw [if_neg hplace, Int.zero_add]
      refine ite_congr (propext (and_congr_right ?_)) (fun _ => rfl) fun _ => rfl
      intro ht
      rw [List.mem_cons, or_iff_right]
      rintro ⟨⟩
      exact hplace (ht ▸ rfl)

/-! ## Tables -/

/-- The scores of the identities that are listed under each key. -/
abbrev Table (κ : Type) [Ord κ] : Type :=
  ExtTreeMap (Tally κ) Int64

namespace Table

variable {κ τ : Type} [Ord κ] [TransOrd κ]

def rows (table : Table κ) : List (κ × Entry) :=
  table.toList.map fun (tally, score) => (tally.group, ⟨tally.identity, score⟩)

def entries [DecidableEq κ] (table : Table κ) (key : κ) : Finset Entry :=
  ((table.rows.filter (·.1 = key)).map Prod.snd).toFinset

/-- The changes from one table to the next: superseded entries are taken back and new ones come. -/
def changes [DecidableEq κ] (old new : Table κ) (time : τ) : List (Weighted κ τ) :=
  ((old.rows.filter (· ∉ new.rows)).map fun (key, e) => ⟨time, key, e, -1⟩) ++
    (new.rows.filter (· ∉ old.rows)).map fun (key, e) => ⟨time, key, e, 1⟩

/-- No pair disappears and no score falls. -/
def Grows (old new : Table κ) : Prop :=
  ∀ x ∈ old.toList, ∃ score ∈ new[x.1]?, x.2 ≤ score

instance (old new : Table κ) : Decidable (old.Grows new) :=
  inferInstanceAs (Decidable (∀ x ∈ old.toList, _))

variable {old new : Table κ} {key : κ} {e : Entry}

theorem mem_rows [LawfulEqOrd κ] {table : Table κ} :
    (key, e) ∈ table.rows ↔ table[(⟨key, e.identity⟩ : Tally κ)]? = some e.score := by
  rw [rows, List.mem_map, ← ExtTreeMap.mem_toList_iff_getElem?_eq_some]
  constructor
  · rintro ⟨x, hx, heq⟩
    obtain ⟨rfl, rfl⟩ := Prod.mk.inj heq
    exact hx
  · intro hx
    exact ⟨_, hx, rfl⟩

theorem nodup_rows [LawfulEqOrd κ] (table : Table κ) : table.rows.Nodup := by
  refine List.Pairwise.map _ (fun x y hxy heq => hxy ?_) ExtTreeMap.distinct_keys_toList
  obtain ⟨hgroup, hentry⟩ := Prod.mk.inj heq
  rw [LawfulEqOrd.compare_eq_iff_eq]
  exact Tally.ext hgroup (Entry.mk.inj hentry).1

variable [DecidableEq κ]

theorem mem_entries {table : Table κ} : e ∈ table.entries key ↔ (key, e) ∈ table.rows := by
  rw [entries, List.mem_toFinset, List.mem_map]
  constructor
  · rintro ⟨⟨_, _⟩, hx, rfl⟩
    obtain ⟨hx, hkey⟩ := List.mem_filter.1 hx
    rw [← of_decide_eq_true hkey]
    exact hx
  · intro hx
    exact ⟨_, List.mem_filter.2 ⟨hx, decide_eq_true rfl⟩, rfl⟩

theorem oneEach_entries [LawfulEqOrd κ] (table : Table κ) (key : κ) :
    OneEach (table.entries key) := by
  intro a ha b hb hid
  rw [mem_entries, mem_rows] at ha hb
  rw [hid, hb] at ha
  exact Entry.ext hid (Option.some.inj ha).symm

theorem Grows.raises [LawfulEqOrd κ] (h : old.Grows new) (key : κ) :
    Raises (old.entries key) (new.entries key) := by
  refine ⟨oneEach_entries old key, oneEach_entries new key, ?_⟩
  intro a ha
  rw [mem_entries, mem_rows, ← ExtTreeMap.mem_toList_iff_getElem?_eq_some] at ha
  obtain ⟨score, hscore, hle⟩ := h _ ha
  refine ⟨⟨a.identity, score⟩, ?_, rfl, hle⟩
  rw [mem_entries, mem_rows]
  exact hscore

/-! ## The changes between two tables -/

theorem changes_self (table : Table κ) (time : τ) : table.changes table time = [] := by
  have hnone : table.rows.filter (· ∉ table.rows) = [] := by
    rw [List.filter_eq_nil_iff]
    intro row hrow
    simpa using hrow
  rw [changes, hnone]
  rfl

variable [DecidableEq τ]

theorem net_changes [LawfulEqOrd κ] (old new : Table κ) (time t : τ) (key : κ) (e : Entry) :
    net (old.changes new time) (t, key, e) =
      (if t = time ∧ e ∈ old.entries key ∧ e ∉ new.entries key then -1 else 0) +
        if t = time ∧ e ∈ new.entries key ∧ e ∉ old.entries key then 1 else 0 := by
  rw [changes, net_append, net_map_of_nodup ((nodup_rows old).filter _),
    net_map_of_nodup ((nodup_rows new).filter _)]
  simp only [List.mem_filter, decide_eq_true_iff, mem_entries]
  rfl

/-- **The updates of a batch** with the net weights of the changes, whatever its records and their
order. -/
theorem turns_changes [LawfulEqOrd κ] [Ord τ] [TransOrd τ] [LawfulEqOrd τ] {time : τ}
    {batch : List (Weighted κ τ)} (hnet : ∀ x, net batch x = net (old.changes new time) x)
    {us : List (Update κ)} (h : ChangeLog.updates batch = .ok us) :
    Turns us old.entries new.entries := by
  refine ChangeLog.turns_updates time (fun t key e => ?_) h
  rw [hnet, net_changes]
  by_cases ht : t = time
  · by_cases hold : e ∈ old.entries key <;> by_cases hnew : e ∈ new.entries key <;>
      simp [ht, hold, hnew]
  · simp [ht]

end Table

/-! ## The run -/

section

variable {κ τ : Type} [Ord κ] [TransOrd κ] [LawfulEqOrd κ] [DecidableEq κ] [Ord τ] [TransOrd τ]
  [LawfulEqOrd τ] [DecidableEq τ] {k : Nat}

theorem Table.entries_empty (key : κ) : (∅ : Table κ).entries key = ∅ := by
  rw [Finset.eq_empty_iff_forall_notMem]
  intro e he
  rw [Table.mem_entries, Table.mem_rows, ExtTreeMap.getElem?_empty] at he
  cases he

theorem Feeding.exact_run {tables : Nat → Table κ} (hempty : tables 0 = ∅)
    (hgrows : ∀ i, (tables i).Grows (tables (i + 1))) {times : Nat → τ}
    {batches : Nat → List (Weighted κ τ)}
    (hbatches : ∀ i x, net (batches i) x = net ((tables i).changes (tables (i + 1)) (times i)) x)
    {n : Nat} {f : Feeding κ τ k} (hf : Feeding.run ((List.range n).map batches) = .ok f) :
    f.store.Exact (tables n).entries := by
  induction n generalizing f with
  | zero =>
    rw [← Attempt.pure_eq_ok.1 hf, hempty, funext Table.entries_empty]
    exact Store.exact_empty
  | succ n ih =>
    rw [List.range_succ, List.map_append, List.map_singleton, run_append_singleton] at hf
    obtain ⟨g, hg, hf⟩ := hf
    obtain ⟨us, hus, hstore⟩ := take_eq_ok_of_run hg hf
    rw [hstore]
    exact (ih hg).applyEach (hgrows n).raises (Table.turns_changes (hbatches n) hus)

/-- **Charts of a growing table are exact.** Feed a store with batches that amount to the changes
of a table that only grows. Unless a drain overflows, the chart of each key shows, after each batch,
the `k` best entries of the key. -/
theorem topK_run_growing (k : Nat) (tables : Nat → Table κ) (times : Nat → τ)
    (batches : Nat → List (Weighted κ τ)) (hempty : tables 0 = ∅)
    (hgrows : ∀ i, (tables i).Grows (tables (i + 1)))
    (hbatches : ∀ i x, net (batches i) x = net ((tables i).changes (tables (i + 1)) (times i)) x)
    {n : Nat} {f : Feeding κ τ k} (hf : Feeding.run ((List.range n).map batches) = .ok f)
    (key : κ) :
    f.store.topK key = if ((tables n).entries key).Nonempty then
      some (best k ((tables n).entries key)) else none :=
  (Feeding.exact_run hempty hgrows hbatches hf).topK_eq key

end

/-! ## An example -/

/-- A table that grows twice: in the second step the first and the last score of a key rise. -/
def risingTable : Nat → Table Nat
  | 0 => ∅
  | 1 => ((ExtTreeMap.empty.insert ⟨1, 7⟩ 5).insert ⟨1, 8⟩ 4).insert ⟨1, 9⟩ 1
  | _ => (((ExtTreeMap.empty.insert ⟨1, 7⟩ 6).insert ⟨1, 8⟩ 4).insert ⟨1, 9⟩ 6).insert ⟨2, 7⟩ 0

/-- Its changes, out of order; in the second batch two records cancel out. -/
def risingBatch : Nat → List (Weighted Nat Nat)
  | 0 => [⟨0, 1, ⟨9, 1⟩, 1⟩, ⟨0, 1, ⟨7, 5⟩, 1⟩, ⟨0, 1, ⟨8, 4⟩, 1⟩]
  | 1 => [⟨1, 1, ⟨7, 6⟩, 1⟩, ⟨1, 1, ⟨9, 6⟩, 1⟩, ⟨1, 1, ⟨9, 1⟩, -1⟩, ⟨1, 2, ⟨7, 0⟩, 1⟩,
      ⟨1, 1, ⟨7, 5⟩, -1⟩, ⟨1, 1, ⟨8, 9⟩, 1⟩, ⟨1, 1, ⟨8, 9⟩, -1⟩]
  | _ => []

theorem grows_risingTable : ∀ i, (risingTable i).Grows (risingTable (i + 1))
  | 0 => by decide +kernel
  | 1 => by decide +kernel
  | n + 2 => by
    show (risingTable 2).Grows (risingTable 2)
    decide +kernel

theorem net_risingBatch :
    ∀ i x, net (risingBatch i) x = net ((risingTable i).changes (risingTable (i + 1)) i) x
  | 0, x => net_perm (by decide +kernel) x
  | 1, x => by
    have hperm : (risingBatch 1).Perm ((risingTable 1).changes (risingTable 2) 1 ++
        [⟨1, 1, ⟨8, 9⟩, 1⟩, ⟨1, 1, ⟨8, 9⟩, -1⟩]) := by decide +kernel
    have hcancel : net [(⟨1, 1, ⟨8, 9⟩, 1⟩ : Weighted Nat Nat), ⟨1, 1, ⟨8, 9⟩, -1⟩] x = 0 := by
      rw [net_cons, net_cons]
      show (if (1, 1, ⟨8, 9⟩) = x then _ else _) + ((if (1, 1, ⟨8, 9⟩) = x then _ else _) + 0) = _
      split <;> rfl
    rw [net_perm hperm, net_append, hcancel, Int.add_zero]
  | n + 2, x => by
    show net [] x = net ((risingTable 2).changes (risingTable 2) (n + 2)) x
    rw [Table.changes_self]

/-- The batches leave gaps that additions fill. -/
theorem topK_run_rising :
    (∀ i, (risingTable i).Grows (risingTable (i + 1))) ∧
      (∀ i x, net (risingBatch i) x = net ((risingTable i).changes (risingTable (i + 1)) i) x) ∧
      ∃ f : Feeding Nat Nat 2, Feeding.run ((List.range 2).map risingBatch) = .ok f ∧
        f.store.topK 1 = some [⟨7, 6⟩, ⟨9, 6⟩] ∧
        ∀ key, f.store.topK key = if ((risingTable 2).entries key).Nonempty then
          some (best 2 ((risingTable 2).entries key)) else none := by
  have htop : (Feeding.run ((List.range 2).map risingBatch) :
      Except Fault (Feeding Nat Nat 2)).toOption.bind (·.store.topK 1) =
        some [⟨7, 6⟩, ⟨9, 6⟩] := by cbv
  cases hf : (Feeding.run ((List.range 2).map risingBatch) : Except Fault (Feeding Nat Nat 2)) with
  | error fault =>
    rw [hf] at htop
    cases htop
  | ok f =>
    rw [hf] at htop
    exact ⟨grows_risingTable, net_risingBatch, f, rfl, htop,
      topK_run_growing 2 risingTable id risingBatch rfl grows_risingTable net_risingBatch hf⟩

end TopCharts
