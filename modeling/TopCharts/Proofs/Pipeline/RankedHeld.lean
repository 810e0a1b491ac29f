import TopCharts.Proofs.Pipeline.Basic

/-!
# No chart ranks what no record holds

* `Pipeline.RankedHeld p` : every entry in the chart of a group is the value, group and entry, that
  some record holds;
* `rankedHeld_run` : it holds after all actions on a table, and after all actions on tallies.

The charts forget much that is held, but not the other way round: a value leaves its chart with the
step in which its record gives it up. That step also takes it away from any other record that holds
the same value, or that has put another entry of the identity in its place.
-/

namespace TopCharts

open Std (TransOrd LawfulEqOrd)

/-- A replacement ranks nothing but what was ranked and was not taken back, and what is new. -/
theorem Chart.Sound.mem_replace {k : Nat} {c : Chart k} (h : c.Sound) {old new : Option Entry}
    {a : Entry} (ha : a ∈ (c.replace old new).2.toList) :
    a ∈ c.toList ∧ old ≠ some a ∨ new = some a := by
  obtain ⟨c', hsound, hmem, hreplace⟩ : ∃ c' : Chart k, c'.Sound ∧
      (∀ x ∈ c'.toList, x ∈ c.toList ∧ old ≠ some x) ∧
        (c.replace old new).2 = match new with | some e => (c'.add e).2 | none => c' := by
    cases old with
    | none => exact ⟨c, h, fun x hx => ⟨hx, nofun⟩, by cases new <;> rfl⟩
    | some e =>
      refine ⟨(c.remove e).2, h.remove e, ?_, by cases new <;> rfl⟩
      intro x hx
      obtain ⟨hne, hx⟩ := h.mem_remove.1 hx
      exact ⟨hx, fun he => hne (Option.some.inj he).symm⟩
  rw [hreplace] at ha
  cases new with
  | none => exact .inl (hmem a ha)
  | some e =>
    rcases hsound.mem_add ha with rfl | ha
    · exact .inr rfl
    · exact .inl (hmem a ha)

namespace Pipeline

variable {υ γ : Type} [Ord υ] [TransOrd υ] [Ord γ] [TransOrd γ] {k : Nat}

/-- Every entry in the chart of a group is the value that some record holds. -/
def RankedHeld (p : Pipeline υ γ k) : Prop :=
  ∀ group entries, p.store.topK group = some entries →
    ∀ e ∈ entries, ∃ record : υ, p.tracker.held[record]? = some (group, e)

/-- The charts are sound, and rank only what is held. -/
structure Backed (p : Pipeline υ γ k) : Prop where
  sound : p.store.Sound
  held : ∀ group, ∀ e ∈ (p.store.chart group).toList,
    ∃ record : υ, p.tracker.held[record]? = some (group, e)

theorem Backed.rankedHeld {p : Pipeline υ γ k} (h : p.Backed) : p.RankedHeld := by
  intro group entries hentries e he
  rw [Store.topK_eq] at hentries
  split at hentries
  · exact h.held group e (Option.some.inj hentries ▸ he)
  · cases hentries

theorem backed_start : (start : Pipeline υ γ k).Backed where
  sound := Store.sound_empty
  held group e he := by
    have he : e ∈ ((Store.empty : Store γ k).chart group).toList := he
    rw [Store.chart_empty] at he
    cases he

variable [LawfulEqOrd γ]

theorem Backed.feed [DecidableEq γ] {p : Pipeline υ γ k} (h : p.Backed) {record : υ}
    {change : Tracker.Step γ × Tracker υ γ} (hm : p.tracker.Moves record change) :
    (p.feed change).Backed := by
  refine ⟨?_, ?_⟩
  · intro group
    rw [chart_feed]
    exact (h.sound group).replace _ _
  · intro group e he
    show ∃ r : υ, change.2.held[r]? = some (group, e)
    rw [chart_feed] at he
    have kept : e ∈ (p.store.chart group).toList →
        (change.2.held[record]? = p.tracker.held[record]? ∨
          p.tracker.held[record]? ≠ some (group, e)) →
        ∃ r : υ, change.2.held[r]? = some (group, e) := by
      intro he hrecord
      obtain ⟨r, hr⟩ := h.held group e he
      refine ⟨r, ?_⟩
      by_cases hne : r = record
      · subst hne
        exact (hrecord.resolve_right fun hne => hne hr).trans hr
      · exact (hm.others r hne).trans hr
    rcases hm.step with ⟨hstep, -⟩ | ⟨hstep, hsame⟩
    · rw [hstep] at he
      rcases (h.sound group).mem_replace he with ⟨he, hold⟩ | hnew
      · exact kept he (.inr fun hr => hold (Tracker.inGroup_eq_some.2 hr))
      · exact ⟨record, Tracker.inGroup_eq_some.1 hnew⟩
    · rw [hstep] at he
      exact kept he (.inl hsame)

variable [LawfulEqOrd υ]

theorem Backed.expire {p : Pipeline υ γ k} (h : p.Backed) (keep : γ → Bool) :
    (p.expire keep).Backed := by
  have hchart (group : γ) : (p.expire keep).store.chart group =
      if keep group then p.store.chart group else .empty := Store.chart_retain p.store keep group
  refine ⟨?_, ?_⟩
  · intro group
    rw [hchart]
    split
    · exact h.sound group
    · exact Chart.sound_empty
  · intro group e he
    rw [hchart] at he
    split at he
    · rename_i hkeep
      obtain ⟨record, hrecord⟩ := h.held group e he
      refine ⟨record, ?_⟩
      show (p.tracker.forget keep).held[record]? = _
      rw [Tracker.getElem?_forget, hrecord, Option.filter_some, if_pos hkeep]
    · cases he

variable [DecidableEq γ]

/-- **Every action keeps the charts backed.** -/
theorem Backed.perform {p : Pipeline υ γ k} (h : p.Backed) (a : Action υ γ) :
    (p.perform a).Backed := by
  cases a with
  | upsert record group e => exact h.feed (p.tracker.upsert_moves record group e)
  | retract record => exact h.feed (p.tracker.retract_moves record)
  | expire keep => exact h.expire keep

theorem Backed.performTally {p : Pipeline (Tally γ) γ k} (h : p.Backed) (a : TallyAction γ) :
    (p.performTally a).Backed := by
  rcases p.performTally_cases a with hp | ⟨b, hp⟩
  · rw [hp]
    exact h
  · rw [hp]
    exact h.perform b

end Pipeline

/-- **No ghosts.** Whatever happens to the records of a table, or to tallies, every entry in the
chart of a group is the value that some record holds. -/
theorem rankedHeld_run {υ γ : Type} [Ord υ] [TransOrd υ] [LawfulEqOrd υ] [Ord γ] [TransOrd γ]
    [LawfulEqOrd γ] [DecidableEq γ] (k : Nat) :
    (∀ actions : List (Action υ γ), (Pipeline.run actions : Pipeline υ γ k).RankedHeld) ∧
      ∀ actions : List (TallyAction γ),
        (Pipeline.runTally actions : Pipeline (Tally γ) γ k).RankedHeld := by
  constructor
  · intro actions
    apply Pipeline.Backed.rankedHeld
    exact List.foldlRecOn actions _ Pipeline.backed_start fun p h a _ => h.perform a
  · intro actions
    apply Pipeline.Backed.rankedHeld
    exact List.foldlRecOn actions _ Pipeline.backed_start fun p h a _ => h.performTally a

/-- Two records hold one value and one of them is deleted; an entry falls out; a record, and then a
tally, moves to another group. -/
theorem rankedHeld_run_moves :
    let table : Pipeline Nat Nat 2 := .run [.upsert 1 10 ⟨7, 5⟩, .upsert 2 10 ⟨7, 5⟩,
      .upsert 3 10 ⟨8, 4⟩, .upsert 4 10 ⟨9, 6⟩, .retract 1, .upsert 4 20 ⟨9, 3⟩,
      .upsert 5 10 ⟨6, 1⟩]
    let tallies : Pipeline (Tally Nat) Nat 2 := .runTally [.increment 10 7 5, .increment 10 8 4,
      .table (.upsert ⟨10, 7⟩ 20 ⟨7, 1⟩), .increment 10 8 (-1), .increment 20 9 6,
      .table (.expire (· == 20)), .increment 20 7 2]
    (table.RankedHeld ∧ table.store.topK 10 = some [⟨6, 1⟩] ∧ table.store.topK 20 = some [⟨9, 3⟩]) ∧
      tallies.RankedHeld ∧ tallies.store.topK 20 = some [⟨9, 6⟩, ⟨7, 2⟩] :=
  ⟨⟨(rankedHeld_run (υ := Nat) 2).1 _, by decide, by decide⟩, (rankedHeld_run (υ := Nat) 2).2 _,
    by decide +kernel⟩

end TopCharts
