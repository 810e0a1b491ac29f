import Mathlib
import TopCharts.Proofs.ChangeLog.Milestones
import TopCharts.Proofs.ChangeLog.Turning
import TopCharts.Proofs.Store.Whole

/-!
# Feeds that the charts have room for

* `present changes key` : the entries under a key with a total of one;
* `Fits k changes` : every entry is there once or not at all, with an identity of its own, and no
  key has more than `k`;
* `steps_whole` : a time between two collections that fit keeps the charts whole, quietly;
* `lossless_run` : if a feeding fits after every time of every batch, then after every batch the
  chart of a key shows all that is present. No retraction is stale and no addition evicts anything,
  although scores may fall and identities change places while a chart is full.
-/

namespace TopCharts

open Std (TransOrd LawfulEqOrd)

variable {κ τ : Type} [DecidableEq κ] {k : Nat}

def present (changes : List (Weighted κ τ)) (key : κ) : Finset Entry :=
  ((changes.map Weighted.entry).filter fun e => total changes key e = 1).toFinset

theorem mem_present {changes : List (Weighted κ τ)} {key : κ} {e : Entry} :
    e ∈ present changes key ↔ total changes key e = 1 := by
  rw [present, List.mem_toFinset, List.mem_filter, decide_eq_true_iff, and_iff_right_iff_imp]
  intro hone
  by_contra hnone
  rw [total_eq_zero fun r hr _ hentry => hnone (List.mem_map.2 ⟨r, hr, hentry⟩)] at hone
  cases hone

/-- Every entry is there once or not at all, with an identity of its own, and there is room for the
entries of each key. -/
structure Fits (k : Nat) (changes : List (Weighted κ τ)) : Prop where
  zero_or_one : ∀ key e, total changes key e = 0 ∨ total changes key e = 1
  oneEach : ∀ key, OneEach (present changes key)
  room : ∀ key, (present changes key).card ≤ k

instance (s : Finset Entry) : Decidable (OneEach s) :=
  inferInstanceAs (Decidable (∀ a ∈ s, ∀ b ∈ s, a.identity = b.identity → a = b))

/-- What holds of nothing and of the keys that records have holds of every key. -/
theorem present_induction {changes : List (Weighted κ τ)} {p : Finset Entry → Prop} (hempty : p ∅)
    (h : ∀ r ∈ changes, p (present changes r.key)) (key : κ) : p (present changes key) := by
  by_cases hkey : ∃ r ∈ changes, r.key = key
  · obtain ⟨r, hr, rfl⟩ := hkey
    exact h r hr
  · have hnone : present changes key = ∅ := by
      rw [Finset.eq_empty_iff_forall_notMem]
      intro e he
      rw [mem_present, total_eq_zero fun r hr heq => absurd ⟨r, hr, heq⟩ hkey] at he
      cases he
    rw [hnone]
    exact hempty

instance (changes : List (Weighted κ τ)) : Decidable (Fits k changes) :=
  decidable_of_iff ((∀ r ∈ changes, total changes r.key r.entry = 0 ∨
      total changes r.key r.entry = 1) ∧
    ∀ r ∈ changes, OneEach (present changes r.key) ∧ (present changes r.key).card ≤ k) <| by
  constructor
  · rintro ⟨htotal, hkey⟩
    have hempty : OneEach (∅ : Finset Entry) := fun a ha => absurd ha (Finset.notMem_empty a)
    refine ⟨total_induction (p := fun n => n = 0 ∨ n = 1) (.inl rfl) htotal, ?_, ?_⟩
    · exact present_induction hempty fun r hr => (hkey r hr).1
    · exact present_induction (p := fun s => s.card ≤ k) (Nat.zero_le k) fun r hr => (hkey r hr).2
  · exact fun h => ⟨fun r _ => h.zero_or_one _ _, fun r _ => ⟨h.oneEach _, h.room _⟩⟩

variable [Ord κ] [TransOrd κ] [LawfulEqOrd κ]

structure Shows (s : Store κ k) (changes : List (Weighted κ τ)) : Prop where
  fits : Fits k changes
  whole : ∀ key, (s.chart key).Whole (present changes key)

omit [LawfulEqOrd κ] in
theorem shows_empty : Shows (.empty : Store κ k) ([] : List (Weighted κ τ)) where
  fits := ⟨fun _ _ => .inl rfl, fun _ a ha => absurd ha (Finset.notMem_empty a),
    fun _ => Nat.zero_le k⟩
  whole key := by
    rw [Store.chart_empty]
    exact Chart.whole_empty

/-- **A time between two collections that fit** keeps the charts whole, quietly. -/
theorem steps_whole {after : List (Weighted κ τ)} (hafter : Fits k after) :
    Steps (fun changes (s : Store κ k) => Shows s changes)
      (fun o => o.stale = false ∧ o.evicted = none) after := by
  intro before s us hshows hus
  have hturns : Turns us (present before) (present after) := by
    refine hus.turns fun key e => ?_
    simp only [mem_present]
    have hold := hshows.fits.zero_or_one key e
    have hnew := hafter.zero_or_one key e
    rcases hold with hold | hold <;> rcases hnew with hnew | hnew <;> simp [hold, hnew]
  have hnodup : us.Nodup := hus.order.imp fun {u v} hlt heq => by
    rw [heq, Std.ReflOrd.compare_self] at hlt
    cases hlt
  obtain ⟨hwhole, hquiet⟩ :=
    Store.whole_applyEach hshows.whole hafter.oneEach hafter.room hnodup hturns
  exact ⟨⟨hafter, hwhole⟩, hquiet⟩

variable [Ord τ] [TransOrd τ] [LawfulEqOrd τ] [DecidableEq τ]

/-- **Feeds that fit are lossless.** If the changes fit after every time of every batch, then after
every batch the chart of each key lists exactly the entries that are present, and the updates of the
next batch are neither stale nor do they evict anything. -/
theorem lossless_run {batches done rest : List (List (Weighted κ τ))}
    (h : ∀ changes ∈ milestones [] batches, Fits k changes) (hsplit : batches = done ++ rest)
    {f : Feeding κ τ k} (hf : Feeding.run done = .ok f) :
    (∀ key, (f.store.topK key).getD [] = (present done.flatten key).sort) ∧
      ∀ batch ∈ rest.head?, ∀ outcomes, f.outcomes batch = .ok outcomes →
        ∀ o ∈ outcomes, o.stale = false ∧ o.evicted = none := by
  rw [hsplit, milestones_append] at h
  have hshows : Shows f.store done.flatten :=
    Steps.run (fun after hafter => steps_whole (h after (List.mem_append_left _ hafter)))
      shows_empty hf
  refine ⟨fun key => ?_, fun batch hbatch outcomes houtcomes => ?_⟩
  · rw [Store.getD_topK, (hshows.whole key).toList_eq]
  · obtain ⟨us, hus, rfl⟩ := Feeding.outcomes_eq_ok_of_run hf houtcomes
    obtain ⟨later, rfl⟩ := List.head?_eq_some_iff.1 hbatch
    refine (Steps.batch (fun r hr => steps_whole (h _ (List.mem_append_right _ ?_))) hshows hus).2
    exact List.mem_append_left _ (List.mem_map_of_mem hr)

/-- Full charts whose scores fall and whose identities change places, within a time and from one
time of a batch to the next. -/
theorem lossless_run_full :
    let first : List (Weighted Nat Nat) := [⟨0, 1, ⟨7, 5⟩, 1⟩, ⟨0, 1, ⟨8, 4⟩, 1⟩, ⟨0, 2, ⟨7, 0⟩, 1⟩,
      ⟨1, 1, ⟨9, 6⟩, 1⟩, ⟨1, 1, ⟨7, 5⟩, -1⟩]
    let second : List (Weighted Nat Nat) := [⟨0, 1, ⟨6, 9⟩, 1⟩, ⟨0, 1, ⟨8, 1⟩, 1⟩, ⟨0, 1, ⟨9, 6⟩, -1⟩,
      ⟨0, 2, ⟨7, 0⟩, -1⟩, ⟨1, 1, ⟨6, 9⟩, -1⟩, ⟨0, 1, ⟨8, 4⟩, -1⟩, ⟨1, 1, ⟨9, -3⟩, 1⟩]
    (∀ changes ∈ milestones [] [first, second], Fits 2 changes) ∧
      (∃ f : Feeding Nat Nat 2, Feeding.run [first, second] = .ok f ∧
        f.store.topK 1 = some [⟨8, 1⟩, ⟨9, -3⟩] ∧ f.store.topK 2 = some [] ∧
        ∀ key, (f.store.topK key).getD [] = (present [first, second].flatten key).sort) ∧
      ∃ f : Feeding Nat Nat 2, Feeding.run [first] = .ok f ∧
        ∀ outcomes, f.outcomes second = .ok outcomes →
          ∀ o ∈ outcomes, o.stale = false ∧ o.evicted = none := by
  intro first second
  have hmilestones : ∀ changes ∈ milestones [] [first, second], Fits 2 changes := by
    decide +kernel
  have htop : (Feeding.run [first, second] : Except Fault (Feeding Nat Nat 2)).toOption.map
      (fun f => (f.store.topK 1, f.store.topK 2)) = some (some [⟨8, 1⟩, ⟨9, -3⟩], some []) := by cbv
  have hfirst : (Feeding.run [first] : Except Fault (Feeding Nat Nat 2)).toOption.isSome := by cbv
  refine ⟨hmilestones, ?_, ?_⟩
  · cases hf : (Feeding.run [first, second] : Except Fault (Feeding Nat Nat 2)) with
    | error fault =>
      rw [hf] at htop
      cases htop
    | ok f =>
      rw [hf] at htop
      obtain ⟨htop₁, htop₂⟩ := Prod.mk.inj (Option.some.inj htop)
      exact ⟨f, rfl, htop₁, htop₂, (lossless_run hmilestones (List.append_nil _).symm hf).1⟩
  · cases hf : (Feeding.run [first] : Except Fault (Feeding Nat Nat 2)) with
    | error fault =>
      rw [hf] at hfirst
      cases hfirst
    | ok f =>
      have hsplit : [first, second] = [first] ++ [second] := rfl
      exact ⟨f, rfl, (lossless_run hmilestones hsplit hf).2 second rfl⟩

end TopCharts
