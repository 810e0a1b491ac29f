import TopCharts.Proofs.Pipeline.History
import TopCharts.Proofs.Store.Whole

/-!
# Pipelines that the charts have room for

* `Tracker.heldIn t group`, `Tracker.recordsIn t group` : the entries that records hold in a group,
  and the number of these records;
* `Tracker.Fits k t` : no two records hold one identity in one group, and no group has more than `k`
  records;
* `Moves.turns_heldIn` : a change of one record turns the entries held before it into those held
  after;
* `Pipeline.Whole` : the chart of each group shows all entries held in it. A change of a record
  keeps it (`Whole.changes`), quietly, and so does an expiry (`Whole.expire`). Between the
  retraction and the addition of one change the charts do not show what is held, neither before it
  nor after;
* `lossless_history` : so it is throughout a history whose records always fit.
-/

namespace TopCharts

open Std (TransOrd LawfulEqOrd)

/-! ## What records hold in a group -/

namespace Tracker

variable {υ γ : Type} [Ord υ] [TransOrd υ] [DecidableEq γ] {k : Nat} {t t' : Tracker υ γ} {group : γ}
  {e : Entry}

def heldIn (t : Tracker υ γ) (group : γ) : Finset Entry :=
  ((t.held.toList.filter (·.2.1 = group)).map (·.2.2)).toFinset

def recordsIn (t : Tracker υ γ) (group : γ) : Nat :=
  t.held.toList.countP (·.2.1 = group)

/-- No identity has two records in one group, and no group has more than `k` records. -/
structure Fits (k : Nat) (t : Tracker υ γ) : Prop where
  oneHolder : t.OneHolder
  room : ∀ group, t.recordsIn group ≤ k

instance [LawfulEqOrd υ] [DecidableEq υ] (k : Nat) (t : Tracker υ γ) : Decidable (t.Fits k) :=
  decidable_of_iff (t.OneHolder ∧ ∀ r ∈ t.held.toList, t.recordsIn r.2.1 ≤ k) <| by
  refine ⟨fun ⟨hone, hroom⟩ => ⟨hone, fun group => ?_⟩, fun h => ⟨h.oneHolder, fun r _ => h.room _⟩⟩
  by_cases hgroup : ∃ r ∈ t.held.toList, r.2.1 = group
  · obtain ⟨r, hr, rfl⟩ := hgroup
    exact hroom r hr
  · rw [recordsIn, List.countP_eq_zero.2 fun r hr => by simpa using fun h => hgroup ⟨r, hr, h⟩]
    exact Nat.zero_le k

theorem card_heldIn_le (t : Tracker υ γ) (group : γ) : (t.heldIn group).card ≤ t.recordsIn group := by
  rw [recordsIn, List.countP_eq_length_filter, ← List.length_map (·.2.2)]
  exact List.toFinset_card_le _

theorem heldIn_empty (group : γ) : (empty : Tracker υ γ).heldIn group = ∅ := by
  have htoList : (∅ : Std.ExtTreeMap υ (γ × Entry)).toList = [] :=
    List.eq_nil_of_length_eq_zero (by simp)
  change ((List.filter _ (∅ : Std.ExtTreeMap υ (γ × Entry)).toList).map _).toFinset = ∅
  rw [htoList]
  rfl

variable [LawfulEqOrd υ]

theorem mem_heldIn : e ∈ t.heldIn group ↔ ∃ record : υ, t.held[record]? = some (group, e) := by
  simp only [heldIn, List.mem_toFinset, List.mem_map, List.mem_filter, decide_eq_true_iff, Prod.exists,
    Std.ExtTreeMap.mem_toList_iff_getElem?_eq_some]
  constructor
  · rintro ⟨record, _, _, ⟨hrecord, rfl⟩, rfl⟩
    exact ⟨record, hrecord⟩
  · rintro ⟨record, hrecord⟩
    exact ⟨record, group, e, ⟨hrecord, rfl⟩, rfl⟩

theorem OneHolder.oneEach (h : t.OneHolder) (group : γ) : OneEach (t.heldIn group) := by
  intro a ha b hb hid
  obtain ⟨r, hr⟩ := mem_heldIn.1 ha
  obtain ⟨r', hr'⟩ := mem_heldIn.1 hb
  obtain rfl := h r r' _ _ hr hr' rfl hid
  rw [hr] at hr'
  exact (Prod.mk.inj (Option.some.inj hr')).2

theorem heldIn_forget (t : Tracker υ γ) (keep : γ → Bool) (group : γ) :
    (t.forget keep).heldIn group = if keep group then t.heldIn group else ∅ := by
  ext e
  rw [mem_heldIn]
  simp only [getElem?_forget, Option.filter_eq_some_iff, exists_and_right, ← mem_heldIn]
  split <;> simp_all

/-! ## Changes of one record -/

/-- Where trackers differ at one record only, its value is the one that the other tracker lacks. -/
theorem mem_heldIn_sdiff {record : υ} (hone : t.OneHolder)
    (others : ∀ r, r ≠ record → t'.held[r]? = t.held[r]?) :
    t.held[record]? = some (group, e) ∧ t'.held[record]? ≠ some (group, e) ↔
      e ∈ t.heldIn group ∧ e ∉ t'.heldIn group := by
  rw [mem_heldIn, mem_heldIn]
  constructor
  · rintro ⟨hold, hnew⟩
    refine ⟨⟨record, hold⟩, ?_⟩
    rintro ⟨r, hr⟩
    by_cases hrecord : r = record
    · exact hnew (hrecord ▸ hr)
    · exact hrecord (hone r record _ _ (others r hrecord ▸ hr) hold rfl rfl)
  · rintro ⟨⟨r, hr⟩, hnone⟩
    by_cases hrecord : r = record
    · exact ⟨hrecord ▸ hr, fun hnew => hnone ⟨record, hnew⟩⟩
    · exact absurd ⟨r, (others r hrecord).trans hr⟩ hnone

theorem Moves.turns_heldIn {record : υ} {change : Step γ × Tracker υ γ} (h : t.Moves record change)
    (hold : t.OneHolder) (hnew : change.2.OneHolder) :
    Turns change.1.updates t.heldIn change.2.heldIn where
  removed group e := by
    rw [Step.remove_mem_updates, h.retracted_iff, mem_heldIn_sdiff hold h.others]
  added group e := by
    rw [Step.add_mem_updates, h.upserted_iff,
      mem_heldIn_sdiff hnew fun r hr => (h.others r hr).symm]
  order := change.1.pairwise_updates.imp fun {u v} huv (_ : u.key = v.key) => huv

end Tracker

/-! ## Whole pipelines -/

namespace Pipeline

variable {υ γ : Type} [Ord υ] [TransOrd υ] [Ord γ] [TransOrd γ] [DecidableEq γ] {k : Nat}
  {p q : Pipeline υ γ k}

/-- The chart of each group shows all entries that records hold in it. -/
def Whole (p : Pipeline υ γ k) : Prop :=
  ∀ group, (p.store.chart group).Whole (p.tracker.heldIn group)

theorem whole_start : (start : Pipeline υ γ k).Whole := by
  intro group
  change ((Store.empty : Store γ k).chart group).Whole ((Tracker.empty : Tracker υ γ).heldIn group)
  rw [Store.chart_empty, Tracker.heldIn_empty]
  exact Chart.whole_empty

variable [LawfulEqOrd υ] [LawfulEqOrd γ]

/-- **A change of a record between states that fit** keeps a pipeline whole, quietly. -/
theorem Whole.changes (h : p.Whole) {us : List (Update γ)} (hchanges : p.Changes us q)
    (hp : p.tracker.OneHolder) (hq : q.tracker.Fits k) :
    q.Whole ∧ ∀ o ∈ (p.store.applyEach us).1, o.stale = false ∧ o.evicted = none := by
  obtain ⟨record, change, hmoves, rfl, rfl⟩ := hchanges
  exact Store.whole_applyEach h hq.oneHolder.oneEach
    (fun group => (Tracker.card_heldIn_le _ group).trans (hq.room group)) change.1.nodup_updates
    (hmoves.turns_heldIn hp hq.oneHolder)

theorem Whole.expire (h : p.Whole) (keep : γ → Bool) : (p.expire keep).Whole := by
  intro group
  change ((p.store.retain keep).2.chart group).Whole ((p.tracker.forget keep).heldIn group)
  rw [Store.chart_retain, Tracker.heldIn_forget]
  split
  · exact h group
  · exact Chart.whole_empty

end Pipeline

theorem Outcome.mergeAll_quiet {outcomes : List Outcome}
    (h : ∀ o ∈ outcomes, o.stale = false ∧ o.evicted = none) :
    (mergeAll outcomes).stale = false ∧ (mergeAll outcomes).evicted = none := by
  unfold mergeAll
  apply List.foldlRecOn (motive := fun o : Outcome => o.stale = false ∧ o.evicted = none) outcomes
  · exact ⟨rfl, rfl⟩
  rintro merged ⟨hstale, hevicted⟩ o ho
  simp [merge, hstale, hevicted, h o ho]

/-! ## Histories -/

namespace ActionKind

variable {α υ γ : Type} {k : Nat} [Ord υ] [TransOrd υ] [Ord γ] [TransOrd γ] [DecidableEq γ]
  {kind : ActionKind α υ γ k} {actions : List α}

/-- The merged outcome of the updates of an action. -/
def outcome (kind : ActionKind α υ γ k) (p : Pipeline υ γ k) (a : α) : Outcome :=
  (p.store.applyAll (kind.sends p a)).1

/-- After every action the chart of a group lists all that is held in it, and no action retracts
what is not ranked or evicts anything. -/
structure Lossless (kind : ActionKind α υ γ k) (actions : List α) : Prop where
  lists : ∀ n ≤ actions.length, ∀ group, ((kind.after actions n).store.topK group).getD [] =
    ((kind.after actions n).tracker.heldIn group).sort
  quiet : ∀ n (_ : n < actions.length),
    (kind.outcome (kind.after actions n) actions[n]).stale = false ∧
      (kind.outcome (kind.after actions n) actions[n]).evicted = none

variable [LawfulEqOrd υ] [LawfulEqOrd γ]

theorem whole_perform {p : Pipeline υ γ k} (h : p.Whole) (hp : p.tracker.OneHolder) {a : α}
    (hq : (kind.perform p a).tracker.Fits k) :
    (kind.perform p a).Whole ∧ (kind.outcome p a).stale = false ∧
      (kind.outcome p a).evicted = none := by
  cases ha : kind.expires a with
  | false =>
    obtain ⟨hwhole, hquiet⟩ := h.changes (kind.changes p a ha) hp hq
    exact ⟨hwhole, Outcome.mergeAll_quiet hquiet⟩
  | true =>
    obtain ⟨hsends, keep, hperform⟩ := kind.expire p a ha
    rw [hperform, outcome, hsends]
    exact ⟨h.expire keep, rfl, rfl⟩

theorem whole_after (h : ∀ n ≤ actions.length, (kind.after actions n).tracker.Fits k) :
    ∀ n ≤ actions.length, (kind.after actions n).Whole := by
  intro n
  induction n with
  | zero => exact fun _ => Pipeline.whole_start
  | succ n ih =>
    intro hn
    have hfits := h (n + 1) hn
    rw [after_succ hn] at hfits ⊢
    exact (whole_perform (ih (Nat.le_of_succ_le hn)) (h n (Nat.le_of_succ_le hn)).oneHolder hfits).1

theorem lossless_of_fits (h : ∀ n ≤ actions.length, (kind.after actions n).tracker.Fits k) :
    kind.Lossless actions where
  lists n hn group := by
    rw [Store.getD_topK, (whole_after h n hn group).toList_eq]
  quiet n hn := by
    have hfits := h (n + 1) hn
    rw [after_succ hn] at hfits
    exact (whole_perform (whole_after h n hn.le) (h n hn.le).oneHolder hfits).2

end ActionKind

/-- **Pipelines with room are lossless.** If after every action no two records hold one identity in
one group and no group has more than `k` records, then after every action the chart of each group
lists exactly what is held in it, and no action is stale or evicts anything. -/
theorem lossless_history {υ γ : Type} [Ord υ] [TransOrd υ] [LawfulEqOrd υ] [Ord γ] [TransOrd γ]
    [LawfulEqOrd γ] [DecidableEq γ] (k : Nat) :
    (∀ actions : List (Action υ γ),
      (∀ n ≤ actions.length, ((ActionKind.table k).after actions n).tracker.Fits k) →
        (ActionKind.table k).Lossless actions) ∧
      ∀ actions : List (TallyAction γ),
        (∀ n ≤ actions.length, ((ActionKind.tallies k).after actions n).tracker.Fits k) →
          (ActionKind.tallies k).Lossless actions :=
  ⟨fun _ => ActionKind.lossless_of_fits, fun _ => ActionKind.lossless_of_fits⟩

/-- A full chart, whose entries lose score, change identity and leave for another group, where one
of them takes an identity that the same group has just released; and tallies that do the like. -/
theorem lossless_history_full :
    let table : List (Action Nat Nat) := [.upsert 1 10 ⟨7, 5⟩, .upsert 2 10 ⟨8, 4⟩,
      .upsert 1 20 ⟨7, 1⟩, .upsert 3 10 ⟨7, -2⟩, .upsert 2 10 ⟨9, -3⟩, .retract 3, .upsert 1 10 ⟨7, 0⟩,
      .upsert 4 20 ⟨7, 6⟩, .expire (· == 10)]
    let tallies : List (TallyAction Nat) := [.increment 10 7 5, .increment 10 8 4,
      .increment 10 7 (-3), .table (.upsert ⟨10, 8⟩ 20 ⟨8, 9⟩), .increment 10 9 1, .increment 20 7 2,
      .table (.retract ⟨10, 7⟩), .increment 20 7 9223372036854775807, .table (.expire (· == 20)),
      .increment 10 9 1]
    (∀ n ≤ table.length, ((ActionKind.table 2).after table n).tracker.Fits 2) ∧
      (∀ n ≤ tallies.length, ((ActionKind.tallies 2).after tallies n).tracker.Fits 2) ∧
      ((ActionKind.table 2).Lossless table ∧ (ActionKind.tallies 2).Lossless tallies) ∧
      ((ActionKind.table 2).after table 8).store.topK 10 = some [⟨7, 0⟩, ⟨9, -3⟩] ∧
      ((ActionKind.tallies 2).after tallies 10).store.topK 20 = some [⟨8, 9⟩, ⟨7, 2⟩] :=
  ⟨by decide +kernel, by decide +kernel,
    ⟨(lossless_history (υ := Nat) 2).1 _ (by decide +kernel),
      (lossless_history (υ := Nat) 2).2 _ (by decide +kernel)⟩,
    by decide +kernel, by decide +kernel⟩

end TopCharts
