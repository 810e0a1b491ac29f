import TopCharts.Proofs.Pipeline.History

/-!
# Evictions and stale retractions balance

A record whose entry fell out of its chart is held and not ranked; when it changes, its retraction
is stale. So the evictions, less the stale retractions, are the records held, less the entries
ranked.

* `Moves.size` : the number of records after a change of one of them;
* `Changes.novel` : if no two records hold one identity in one group, what a change delivers is new
  to its chart. So `Store.ranked_report` counts, and `Changes.balance` adds what happens to the
  records;
* `Changes.ranked_or_evicted` : what a record holds after a change is ranked if it was, or if it is
  new, unless the change evicts it;
* `ActionKind.FellOut` : the entry that a record holds was evicted, and the record has held it
  since;
* `balanced_history` : the balance holds after every action, and only what fell out is retracted
  stale.
-/

namespace TopCharts

open Std (TransOrd LawfulEqOrd)

/-! ## Counting records -/

namespace Tracker

variable {υ γ : Type} [Ord υ] [TransOrd υ]

theorem Step.countP_remove_updates (s : Step γ) :
    s.updates.countP (·.change = .remove) = if s.retracted.isSome then 1 else 0 := by
  obtain ⟨retracted, upserted⟩ := s
  cases retracted <;> cases upserted <;> simp [updates]

theorem Step.countP_add_updates (s : Step γ) :
    s.updates.countP (·.change = .add) = if s.upserted.isSome then 1 else 0 := by
  obtain ⟨retracted, upserted⟩ := s
  cases retracted <;> cases upserted <;> simp [updates]

variable [LawfulEqOrd υ]

theorem size_eq_size_erase (t : Tracker υ γ) (record : υ) :
    t.size = (t.held.erase record).size + if (t.held[record]?).isSome then 1 else 0 := by
  rw [Std.ExtTreeMap.size_erase, Std.ExtTreeMap.contains_eq_isSome_getElem?, size]
  split
  · rename_i hrecord
    have hkeys : record ∈ t.held.keys :=
      Std.ExtTreeMap.mem_keys.2 (Std.ExtTreeMap.mem_iff_isSome_getElem?.2 hrecord)
    have hlength := List.length_pos_of_mem hkeys
    rw [Std.ExtTreeMap.length_keys] at hlength
    omega
  · rfl

theorem Moves.size {t : Tracker υ γ} {record : υ} {change : Step γ × Tracker υ γ}
    (h : t.Moves record change) :
    change.2.size + (if (t.held[record]?).isSome then 1 else 0) =
      t.size + if (change.2.held[record]?).isSome then 1 else 0 := by
  rw [t.size_eq_size_erase record, change.2.size_eq_size_erase record, h.erase_eq]
  omega

theorem Moves.size_updates {t : Tracker υ γ} {record : υ} {change : Step γ × Tracker υ γ}
    (h : t.Moves record change) :
    change.2.size + change.1.updates.countP (·.change = .remove) =
      t.size + change.1.updates.countP (·.change = .add) := by
  have hsize := h.size
  rw [Step.countP_remove_updates, Step.countP_add_updates]
  rcases h.step with ⟨hstep, -⟩ | ⟨hstep, hsame⟩
  · rw [hstep]
    exact hsize
  · rw [hstep]
    rw [hsame] at hsize
    simpa using hsize

end Tracker

/-! ## A change of one record -/

theorem Store.novel_of_remove {κ : Type} [Ord κ] [TransOrd κ] {k : Nat} (s : Store κ k)
    {us : List (Update κ)} (h : ∀ u ∈ us, u.change = .remove) : s.Novel us := by
  induction us generalizing s with
  | nil => trivial
  | cons u us ih =>
    refine ⟨fun hadd => ?_, ih _ fun v hv => h v (List.mem_cons_of_mem u hv)⟩
    rw [h u List.mem_cons_self] at hadd
    cases hadd

namespace Pipeline

variable {υ γ : Type} [Ord υ] [TransOrd υ] [Ord γ] [TransOrd γ] [LawfulEqOrd γ] [DecidableEq γ]
  {k : Nat} {p q : Pipeline υ γ k} {us : List (Update γ)}

theorem Changes.backed (h : p.Changes us q) (hp : p.Backed) : q.Backed := by
  obtain ⟨record, change, hmoves, rfl, rfl⟩ := h
  exact hp.feed hmoves

/-- What a change delivers is new to its chart: whatever is ranked there after the retraction is
held by another record. -/
theorem Changes.novel (h : p.Changes us q) (hp : p.Backed) (hq : q.tracker.OneHolder) :
    p.store.Novel us := by
  obtain ⟨record, change, hmoves, rfl, rfl⟩ := h
  refine Store.Novel.append (p.store.novel_of_remove fun u hu => ?_) ?_
  · obtain ⟨v, -, rfl⟩ := Option.map_eq_some_iff.1 (Option.mem_toList.1 hu)
    rfl
  · cases hupserted : change.1.upserted with
    | none => trivial
    | some v =>
      refine ⟨fun _ a ha hid => ?_, trivial⟩
      obtain ⟨hnew, -⟩ := hmoves.upserted_iff.1 hupserted
      rw [Store.chart_applyEach] at ha
      rcases (hp.sound v.1).mem_updates ha with ⟨ha, hkept⟩ | ⟨u, hu, hadd, -⟩
      · obtain ⟨r, hr⟩ := hp.held v.1 a ha
        have hne : r ≠ record := by
          rintro rfl
          have hretracted : change.1.retracted = some (v.1, a) := by
            refine hmoves.retracted_iff.2 ⟨hr, fun hsame => ?_⟩
            exact (hmoves.upserted_iff.1 hupserted).2 (hr.trans (hsame.symm.trans hnew))
          refine hkept ⟨v.1, .remove, a⟩ (Store.mem_addressed.2 ⟨?_, rfl⟩) rfl rfl
          rw [hretracted]
          exact List.mem_singleton_self _
        exact hne (hq r record _ _ ((hmoves.others r hne).trans hr) hnew rfl hid)
      · obtain ⟨hu, -⟩ := Store.mem_addressed.1 hu
        obtain ⟨w, -, rfl⟩ := Option.map_eq_some_iff.1 (Option.mem_toList.1 hu)
        cases hadd

/-- **The balance of one change.** -/
theorem Changes.balance [LawfulEqOrd υ] (h : p.Changes us q) (hp : p.Backed)
    (hq : q.tracker.OneHolder) :
    evictions (p.store.report us) + q.store.ranked + p.tracker.size =
      stales (p.store.report us) + q.tracker.size + p.store.ranked := by
  have hranked := Store.ranked_report hp.sound (h.novel hp hq)
  obtain ⟨record, change, hmoves, rfl, rfl⟩ := h
  have hsize := hmoves.size_updates
  change change.2.size + _ = _ at hsize
  change _ + (p.store.applyEach _).2.ranked + _ = _ + change.2.size + _
  omega

omit [LawfulEqOrd γ] [DecidableEq γ] in
theorem Changes.spares (h : p.Changes us q) (hp : p.tracker.OneHolder) (hq : q.tracker.OneHolder)
    {r : υ} {v : γ × Entry} (hold : p.tracker.held[r]? = some v)
    (hnew : q.tracker.held[r]? = some v) : ∀ u ∈ us, u.Spares v.1 v.2 := by
  obtain ⟨record, change, hmoves, rfl, rfl⟩ := h
  rintro ⟨group, c, e⟩ hu hgroup
  change group = v.1 at hgroup
  subst hgroup
  constructor
  · rintro (hc : c = .remove) (he : e = v.2)
    subst hc he
    obtain ⟨hheld, hgone⟩ := hmoves.retracted_iff.1 (Tracker.Step.remove_mem_updates.1 hu)
    obtain rfl := hp r record v _ hold hheld rfl rfl
    exact hgone hnew
  · rintro (hc : c = .add) (hid : e.identity = v.2.identity)
    subst hc
    obtain ⟨hheld, hbefore⟩ := hmoves.upserted_iff.1 (Tracker.Step.add_mem_updates.1 hu)
    obtain rfl := hq r record v _ hnew hheld rfl hid.symm
    exact hbefore (hold.trans (hnew.symm.trans hheld))

/-- What a record holds after a change is ranked if it was, or if it is new, unless the change
evicts it. -/
theorem Changes.ranked_or_evicted (h : p.Changes us q) (hsound : p.store.Sound)
    (hp : p.tracker.OneHolder) (hq : q.tracker.OneHolder) {r : υ} {v : γ × Entry}
    (hnew : q.tracker.held[r]? = some v)
    (hranked : p.tracker.held[r]? = some v → v.2 ∈ (p.store.chart v.1).toList) :
    v.2 ∈ (q.store.chart v.1).toList ∨
      ∃ r ∈ p.store.report us, r.1.key = v.1 ∧ r.2.evicted = some v.2 := by
  by_cases hold : p.tracker.held[r]? = some v
  · have hspares := h.spares hp hq hold hnew
    obtain ⟨record, change, hmoves, rfl, rfl⟩ := h
    exact Store.mem_or_evicted hsound (hranked hold) hspares
  · obtain ⟨record, change, hmoves, rfl, rfl⟩ := h
    have hrecord : r = record := by
      by_contra hne
      exact hold ((hmoves.others r hne).symm.trans hnew)
    subst hrecord
    obtain ⟨removes, hupdates⟩ : ∃ removes, change.1.updates = removes ++ [⟨v.1, .add, v.2⟩] := by
      rw [Tracker.Step.updates, hmoves.upserted_iff.2 ⟨hnew, hold⟩]
      exact ⟨_, rfl⟩
    change v.2 ∈ ((p.store.applyEach change.1.updates).2.chart v.1).toList ∨ _
    rw [hupdates, Store.applyEach_append, Store.report_append]
    refine (Store.mem_or_evicted_add (hsound.applyEach removes) v.1 v.2).imp id fun hevicted => ?_
    exact ⟨_, List.mem_append_right _ List.mem_cons_self, rfl, hevicted⟩

omit [LawfulEqOrd γ] [DecidableEq γ] in
/-- A stale retraction takes back what a record holds and its chart does not rank. -/
theorem Changes.of_stale (h : p.Changes us q) {r : Update γ × Outcome} (hr : r ∈ p.store.report us)
    (hchange : r.1.change = .remove) (hstale : r.2.stale) :
    ∃ record : υ, p.tracker.held[record]? = some (r.1.key, r.1.entry) ∧
      r.1.entry ∉ (p.store.chart r.1.key).toList := by
  obtain ⟨record, change, hmoves, rfl, rfl⟩ := h
  rw [Tracker.Step.updates, Store.report_append] at hr
  rcases List.mem_append.1 hr with hr | hr
  · cases hretracted : change.1.retracted with
    | none =>
      rw [hretracted] at hr
      cases hr
    | some v =>
      rw [hretracted] at hr
      obtain rfl := List.mem_singleton.1 hr
      refine ⟨record, (hmoves.retracted_iff.1 hretracted).1, ?_⟩
      change (p.store.apply v.1 .remove v.2).1.stale = true at hstale
      rw [Store.stale_apply_remove, Chart.remove_fst] at hstale
      simpa using hstale
  · obtain ⟨v, -, hv⟩ := Option.map_eq_some_iff.1
      (Option.mem_toList.1 (Store.mem_of_mem_report hr))
    rw [← hv] at hchange
    cases hchange

end Pipeline

/-! ## Histories without expiry -/

namespace ActionKind

variable {α υ γ : Type} {k : Nat} [Ord υ] [TransOrd υ] [Ord γ] [TransOrd γ]

/-- The entry that a record holds after `n` actions was evicted by one of them, and the record has
held it ever since. -/
def FellOut (kind : ActionKind α υ γ k) (actions : List α) (n : Nat) (record : υ) (v : γ × Entry) :
    Prop :=
  ∃ m < n, (∀ j, m < j → j ≤ n → (kind.after actions j).tracker.held[record]? = some v) ∧
    ∃ r ∈ kind.reportAt actions m, r.1.key = v.1 ∧ r.2.evicted = some v.2

/-- After every action the evictions, less the stale retractions, are the records held, less the
entries ranked; and what is retracted stale is held by a record whose entry fell out. -/
structure Balanced (kind : ActionKind α υ γ k) (actions : List α) : Prop where
  balance : ∀ n ≤ actions.length,
    (evictions (kind.journal actions n) : Int) - stales (kind.journal actions n) =
      (kind.after actions n).tracker.size - (kind.after actions n).store.ranked
  fellOut : ∀ n < actions.length, ∀ r ∈ kind.reportAt actions n, r.1.change = .remove → r.2.stale →
    ∃ record, (kind.after actions n).tracker.held[record]? = some (r.1.key, r.1.entry) ∧
      kind.FellOut actions n record (r.1.key, r.1.entry)

variable {kind : ActionKind α υ γ k} {actions : List α}

theorem changes_at (hchanges : ∀ a ∈ actions, kind.expires a = false) {n : Nat}
    (hn : n < actions.length) :
    ∃ us, kind.reportAt actions n = (kind.after actions n).store.report us ∧
      (kind.after actions n).Changes us (kind.after actions (n + 1)) := by
  refine ⟨kind.sends (kind.after actions n) actions[n], ?_, ?_⟩
  · rw [reportAt, List.getElem?_eq_getElem hn]
  · rw [after_succ hn]
    exact kind.changes _ _ (hchanges _ (List.getElem_mem hn))

variable [LawfulEqOrd γ] [DecidableEq γ]

theorem backed_after (hchanges : ∀ a ∈ actions, kind.expires a = false) :
    ∀ n ≤ actions.length, (kind.after actions n).Backed := by
  intro n
  induction n with
  | zero => exact fun _ => Pipeline.backed_start
  | succ n ih =>
    intro hn
    obtain ⟨us, -, h⟩ := changes_at hchanges hn
    exact h.backed (ih (Nat.le_of_succ_le hn))

/-- What a record holds is ranked, or fell out. -/
theorem ranked_or_fellOut (hchanges : ∀ a ∈ actions, kind.expires a = false)
    (hone : ∀ n ≤ actions.length, (kind.after actions n).tracker.OneHolder) :
    ∀ n ≤ actions.length, ∀ record v, (kind.after actions n).tracker.held[record]? = some v →
      v.2 ∈ ((kind.after actions n).store.chart v.1).toList ∨ kind.FellOut actions n record v := by
  intro n
  induction n with
  | zero =>
    intro _ record v hv
    change (∅ : Std.ExtTreeMap υ (γ × Entry))[record]? = some v at hv
    simp at hv
  | succ n ih =>
    intro hn record v hv
    have hle := Nat.le_of_succ_le hn
    obtain ⟨us, hreport, h⟩ := changes_at hchanges hn
    by_cases hfell : (kind.after actions n).tracker.held[record]? = some v ∧
        kind.FellOut actions n record v
    · obtain ⟨-, m, hm, hheld, hevicted⟩ := hfell
      refine .inr ⟨m, Nat.lt_succ_of_lt hm, fun j hj hjn => ?_, hevicted⟩
      rcases Nat.le_succ_iff.1 hjn with hjn | rfl
      · exact hheld j hj hjn
      · exact hv
    · refine (h.ranked_or_evicted (backed_after hchanges n hle).sound (hone n hle) (hone (n + 1) hn)
        hv fun hold => (ih hle record v hold).resolve_right fun hf => hfell ⟨hold, hf⟩).imp id ?_
      rintro ⟨r, hr, hevicted⟩
      refine ⟨n, Nat.lt_succ_self n, fun j hj hjn => ?_, r, hreport ▸ hr, hevicted⟩
      rw [Nat.le_antisymm hjn hj]
      exact hv

theorem balanced_of_oneHolder [LawfulEqOrd υ] (hchanges : ∀ a ∈ actions, kind.expires a = false)
    (hone : ∀ n ≤ actions.length, (kind.after actions n).tracker.OneHolder) :
    kind.Balanced actions where
  balance := by
    suffices h : ∀ n ≤ actions.length,
        evictions (kind.journal actions n) + (kind.after actions n).store.ranked =
          stales (kind.journal actions n) + (kind.after actions n).tracker.size by
      intro n hn
      have := h n hn
      omega
    intro n
    induction n with
    | zero =>
      intro _
      change 0 + (Store.empty : Store γ k).ranked = 0 + (∅ : Std.ExtTreeMap υ (γ × Entry)).size
      rw [Store.ranked_empty, Std.ExtTreeMap.size_empty]
    | succ n ih =>
      intro hn
      have hle := Nat.le_of_succ_le hn
      obtain ⟨us, hreport, h⟩ := changes_at hchanges hn
      have hbefore := ih hle
      have hstep := h.balance (backed_after hchanges n hle) (hone (n + 1) hn)
      rw [journal_succ, evictions_append, stales_append, hreport]
      omega
  fellOut n hn r hr hchange hstale := by
    obtain ⟨us, hreport, h⟩ := changes_at hchanges hn
    obtain ⟨record, hheld, hnot⟩ := h.of_stale (hreport ▸ hr) hchange hstale
    exact ⟨record, hheld,
      (ranked_or_fellOut hchanges hone n hn.le record _ hheld).resolve_left hnot⟩

end ActionKind

/-- **Evictions and stale retractions balance.** If after every action no two records hold one
identity in one group, then after every action the number of additions that evicted an entry, less
the number of retractions that were stale, is the number of records held, less the number of entries
ranked. A retraction is stale only for a record whose entry was evicted while the record held it. -/
theorem balanced_history {υ γ : Type} [Ord υ] [TransOrd υ] [LawfulEqOrd υ] [Ord γ] [TransOrd γ]
    [LawfulEqOrd γ] [DecidableEq γ] (k : Nat) :
    (∀ actions : List (Action υ γ), (∀ a ∈ actions, a.expires = false) →
      (∀ n ≤ actions.length, ((ActionKind.table k).after actions n).tracker.OneHolder) →
        (ActionKind.table k).Balanced actions) ∧
      ∀ actions : List (TallyAction γ), (∀ a ∈ actions, a.expires = false) →
        (∀ n ≤ actions.length, ((ActionKind.tallies k).after actions n).tracker.OneHolder) →
          (ActionKind.tallies k).Balanced actions :=
  ⟨fun _ hchanges hone => ActionKind.balanced_of_oneHolder hchanges hone,
    fun _ hchanges hone => ActionKind.balanced_of_oneHolder hchanges hone⟩

/-- Charts of one place: a record is pushed out and comes back, another pushes out itself, a third
moves away from the group in which it fell out. -/
theorem balanced_history_one_place :
    let table : List (Action Nat Nat) := [.upsert 1 10 ⟨7, 5⟩, .upsert 2 10 ⟨8, 6⟩,
      .upsert 3 10 ⟨9, 1⟩, .upsert 1 20 ⟨7, 9⟩, .retract 2, .upsert 3 10 ⟨9, 4⟩, .upsert 3 10 ⟨9, 4⟩,
      .retract 4]
    let tallies : List (TallyAction Nat) := [.increment 10 7 5, .increment 10 8 6,
      .increment 10 7 (-1), .table (.upsert ⟨10, 7⟩ 20 ⟨7, 1⟩), .increment 20 9 2,
      .increment 20 9 9223372036854775807]
    let evicted n := evictions ((ActionKind.table 1).journal table n)
    let stale n := stales ((ActionKind.table 1).journal table n)
    ((∀ a ∈ table, a.expires = false) ∧ ∀ a ∈ tallies, a.expires = false) ∧
      (∀ n ≤ table.length, ((ActionKind.table 1).after table n).tracker.OneHolder) ∧
      (∀ n ≤ tallies.length, ((ActionKind.tallies 1).after tallies n).tracker.OneHolder) ∧
      ((ActionKind.table 1).Balanced table ∧ (ActionKind.tallies 1).Balanced tallies) ∧
      (evicted 3 = 2 ∧ stale 3 = 0) ∧ evicted 8 = 2 ∧ stale 8 = 2 :=
  ⟨by decide, by decide +kernel, by decide +kernel,
    ⟨(balanced_history (υ := Nat) 1).1 _ (by decide) (by decide +kernel),
      (balanced_history (υ := Nat) 1).2 _ (by decide) (by decide +kernel)⟩,
    by decide +kernel, by decide +kernel⟩

end TopCharts
