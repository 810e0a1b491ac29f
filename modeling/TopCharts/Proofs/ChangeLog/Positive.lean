import Mathlib
import TopCharts.Proofs.ChangeLog.Milestones

/-!
# Charts rank only what is there

The records of a change log add up to a collection. As long as no total is negative when a time is
complete, a store that is fed from the log ranks only entries whose total is positive:

* `NonNegative changes` : no total is negative;
* `Ranks s changes` : the charts of `s` are sound and rank only entries with a positive total;
* `steps_ranks` : a time keeps this. An entry that stays ranked was not taken back, so its weight at
  the time is not negative; and an entry that is delivered was at least zero before;
* `total_pos_of_ranked` : so it holds after every batch of a feeding.

Totals may exceed one, and several entries of one identity may be there at once.
-/

namespace TopCharts

open Std (TransOrd LawfulEqOrd)

variable {κ τ : Type} [DecidableEq κ] {k : Nat}

def NonNegative (changes : List (Weighted κ τ)) : Prop :=
  ∀ key e, 0 ≤ total changes key e

instance (changes : List (Weighted κ τ)) : Decidable (NonNegative changes) :=
  decidable_of_iff (∀ r ∈ changes, 0 ≤ total changes r.key r.entry)
    ⟨fun h => total_induction (Int.le_refl 0) h, fun h r _ => h r.key r.entry⟩

variable [Ord κ] [TransOrd κ] [LawfulEqOrd κ]

/-- The charts are sound and rank only entries with a positive total. -/
structure Ranks (s : Store κ k) (changes : List (Weighted κ τ)) : Prop where
  sound : s.Sound
  nonNegative : NonNegative changes
  positive : ∀ key, ∀ e ∈ (s.chart key).toList, 0 < total changes key e

omit [LawfulEqOrd κ] in
theorem ranks_empty : Ranks (.empty : Store κ k) ([] : List (Weighted κ τ)) where
  sound := Store.sound_empty
  nonNegative _ _ := Int.le_refl 0
  positive key e he := by
    rw [Store.chart_empty] at he
    cases he

/-- **A time keeps the charts within the collection.** -/
theorem steps_ranks {after : List (Weighted κ τ)} (hafter : NonNegative after) :
    Steps (fun changes (s : Store κ k) => Ranks s changes) (fun _ => True) after := by
  intro before s us hranks hus
  refine ⟨⟨hranks.sound.applyEach us, hafter, fun key e he => ?_⟩, fun _ _ => trivial⟩
  rw [Store.chart_applyEach] at he
  rcases (hranks.sound key).mem_updates he with ⟨hbefore, hkept⟩ | ⟨u, hu, hadd, rfl⟩
  · have hpos := hranks.positive key e hbefore
    have hweight : ¬ total after key e - total before key e < 0 := by
      rw [← hus.removed]
      intro hu
      exact hkept _ (Store.mem_addressed.2 ⟨hu, rfl⟩) rfl rfl
    omega
  · obtain ⟨hmem, rfl⟩ := Store.mem_addressed.1 hu
    have hpos := hranks.nonNegative u.key u.entry
    have hweight := (hus.added u.key u.entry).1 (hadd ▸ hmem)
    omega

variable [Ord τ] [TransOrd τ] [LawfulEqOrd τ] [DecidableEq τ]

/-- **Charts never outlive the collection they are fed from.** If no total is negative after any
time of any batch, then after every batch each ranked entry has a positive total. -/
theorem total_pos_of_ranked {batches done rest : List (List (Weighted κ τ))}
    (h : ∀ changes ∈ milestones [] batches, NonNegative changes) (hsplit : batches = done ++ rest)
    {f : Feeding κ τ k} (hf : Feeding.run done = .ok f) :
    ∀ key entries, f.store.topK key = some entries →
      ∀ e ∈ entries, 0 < total done.flatten key e := by
  have hsteps : ∀ after ∈ milestones [] done,
      Steps (fun changes (s : Store κ k) => Ranks s changes) (fun _ => True) after := by
    intro after hafter
    refine steps_ranks (h after ?_)
    rw [hsplit, milestones_append]
    exact List.mem_append_left _ hafter
  have hranks : Ranks f.store done.flatten := Steps.run hsteps ranks_empty hf
  intro key entries hentries e he
  rw [Store.topK_eq] at hentries
  split at hentries
  · exact hranks.positive key e (Option.some.inj hentries ▸ he)
  · cases hentries

/-- Two batches of several times: a weight of two of which one is taken back, entries that fall out,
and an entry that is delivered before the other entry of its identity is taken back. -/
theorem total_pos_of_ranked_twice :
    let first : List (Weighted Nat Nat) := [⟨1, 1, ⟨7, 5⟩, -1⟩, ⟨0, 1, ⟨7, 5⟩, 1⟩, ⟨0, 1, ⟨8, 4⟩, 1⟩,
      ⟨0, 1, ⟨7, 5⟩, 1⟩, ⟨0, 1, ⟨9, 6⟩, 2⟩, ⟨1, 2, ⟨8, 1⟩, 3⟩]
    let second : List (Weighted Nat Nat) := [⟨1, 1, ⟨9, 6⟩, -2⟩, ⟨0, 1, ⟨9, 2⟩, 1⟩, ⟨1, 1, ⟨7, 3⟩, 1⟩,
      ⟨2, 2, ⟨8, 1⟩, -3⟩]
    (∀ changes ∈ milestones [] [first, second], NonNegative changes) ∧
      ∃ f : Feeding Nat Nat 2, Feeding.run [first, second] = .ok f ∧
        f.store.topK 1 = some [⟨7, 3⟩, ⟨9, 2⟩] ∧ f.store.topK 2 = some [] ∧
        ∀ key entries, f.store.topK key = some entries →
          ∀ e ∈ entries, 0 < total [first, second].flatten key e := by
  intro first second
  have hmilestones : ∀ changes ∈ milestones [] [first, second], NonNegative changes := by
    decide +kernel
  have htop : (Feeding.run [first, second] : Except Fault (Feeding Nat Nat 2)).toOption.map
      (fun f => (f.store.topK 1, f.store.topK 2)) = some (some [⟨7, 3⟩, ⟨9, 2⟩], some []) := by cbv
  cases hf : (Feeding.run [first, second] : Except Fault (Feeding Nat Nat 2)) with
  | error fault =>
    rw [hf] at htop
    cases htop
  | ok f =>
    rw [hf] at htop
    obtain ⟨htop₁, htop₂⟩ := Prod.mk.inj (Option.some.inj htop)
    exact ⟨hmilestones, f, rfl, htop₁, htop₂,
      total_pos_of_ranked hmilestones (List.append_nil _).symm hf⟩

end TopCharts
