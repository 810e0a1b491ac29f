import TopCharts.Proofs.ChangeLog.Feeding
import TopCharts.Proofs.ChangeLog.Times
import TopCharts.Proofs.Store.View

/-!
# The milestones of a feeding

A batch may hold records of several times, and its drain goes through them one after another. What
is to hold of a feeding is therefore followed from time to time, and not from batch to batch.

* `milestones before batches` : what has been recorded when each time of each batch is complete;
* `Steps inv quiet after` : updates that deliver the change of the totals up to a milestone keep an
  invariant, and their outcomes are as wanted;
* `Steps.time`, `Steps.batch` : so do the updates of one time and the whole drain of a batch, if all
  its milestones are so;
* `Steps.run` : and so the invariant holds after every run.
-/

namespace TopCharts

open Attempt
open Std (TransOrd LawfulEqOrd)

variable {κ τ : Type} {k : Nat}

/-- What has been recorded when each time of each batch is complete. -/
def milestones [Ord τ] (before : List (Weighted κ τ)) :
    List (List (Weighted κ τ)) → List (List (Weighted κ τ))
  | [] => []
  | batch :: later =>
    batch.map (fun r => before ++ ChangeLog.upTo r.time batch) ++
      milestones (before ++ batch) later

theorem milestones_append [Ord τ] (before : List (Weighted κ τ))
    (batches later : List (List (Weighted κ τ))) :
    milestones before (batches ++ later) =
      milestones before batches ++ milestones (before ++ batches.flatten) later := by
  induction batches generalizing before with
  | nil => rw [List.flatten_nil, List.append_nil]; rfl
  | cons batch batches ih =>
    rw [List.cons_append, milestones, milestones, ih, List.append_assoc, List.flatten_cons,
      List.append_assoc]

variable [Ord κ] [TransOrd κ] [LawfulEqOrd κ] [DecidableEq κ]

/-- Whatever was recorded before, updates that deliver the change of the totals up to `after` keep
`inv`, and their outcomes satisfy `quiet`. -/
def Steps (inv : List (Weighted κ τ) → Store κ k → Prop) (quiet : Outcome → Prop)
    (after : List (Weighted κ τ)) : Prop :=
  ∀ before s us, inv before s →
    Delivers us (fun key e => total after key e - total before key e) →
      inv after (s.applyEach us).2 ∧ ∀ o ∈ (s.applyEach us).1, quiet o

variable [Ord τ] [TransOrd τ] [LawfulEqOrd τ] [DecidableEq τ]
  {inv : List (Weighted κ τ) → Store κ k → Prop} {quiet : Outcome → Prop}

section

variable {before rs : List (Weighted κ τ)}
  (h : ∀ r ∈ rs, Steps inv quiet (before ++ ChangeLog.upTo r.time rs)) {s : Store κ k}

include h

omit [LawfulEqOrd κ] in
theorem Steps.time {done rest : List τ} {t : τ} (htimes : ChangeLog.times rs = done ++ t :: rest)
    (hs : inv (before ++ rs.filter (·.time ∈ done)) s) {us : List (Update κ)}
    (hus : Delivers us fun key e => net rs (t, key, e)) :
    inv (before ++ rs.filter (·.time ∈ done ++ [t])) (s.applyEach us).2 ∧
      ∀ o ∈ (s.applyEach us).1, quiet o := by
  have hnew : t ∉ done := fun ht => by
    have hsorted := ChangeLog.pairwise_times rs
    rw [htimes, List.pairwise_append] at hsorted
    have hlt := hsorted.2.2 t ht t List.mem_cons_self
    rw [Std.ReflOrd.compare_self] at hlt
    cases hlt
  obtain ⟨r, hr, rfl⟩ :=
    ChangeLog.mem_times.1 (htimes ▸ List.mem_append_right done List.mem_cons_self)
  have htotal (key : κ) (e : Entry) : total (before ++ ChangeLog.upTo r.time rs) key e -
      total (before ++ rs.filter (·.time ∈ done)) key e = net rs (r.time, key, e) := by
    rw [← ChangeLog.filter_eq_upTo htimes, total_append, total_append, total_filter_append hnew]
    omega
  simp only [← htotal] at hus
  rw [ChangeLog.filter_eq_upTo htimes]
  exact h r hr _ s us hs hus

/-- **A drain keeps what each of its milestones keeps.** -/
theorem Steps.batch (hs : inv before s) {us : List (Update κ)}
    (hus : ChangeLog.updates rs = .ok us) :
    inv (before ++ rs) (s.applyEach us).2 ∧ ∀ o ∈ (s.applyEach us).1, quiet o := by
  obtain ⟨part, rfl, hpart⟩ := ChangeLog.updates_eq_flatMap hus
  -- the induction is on the times that are still to come
  suffices hgo : ∀ (rest done : List τ) (s : Store κ k), ChangeLog.times rs = done ++ rest →
      inv (before ++ rs.filter (·.time ∈ done)) s →
        inv (before ++ rs) (s.applyEach (rest.flatMap part)).2 ∧
          ∀ o ∈ (s.applyEach (rest.flatMap part)).1, quiet o by
    refine hgo _ [] s rfl ?_
    have hnone : rs.filter (·.time ∈ ([] : List τ)) = [] := by
      simp
    rw [hnone, List.append_nil]
    exact hs
  intro rest
  induction rest with
  | nil =>
    intro done s htimes hs
    have hall : rs.filter (·.time ∈ done) = rs := by
      refine List.filter_eq_self.2 fun r hr => decide_eq_true ?_
      have htime := ChangeLog.mem_times.2 ⟨r, hr, rfl⟩
      rw [htimes, List.append_nil] at htime
      exact htime
    rw [hall] at hs
    exact ⟨hs, fun o ho => absurd ho List.not_mem_nil⟩
  | cons t rest ih =>
    intro done s htimes hs
    obtain ⟨hinv, hquiet⟩ := Steps.time h htimes hs (hpart t)
    obtain ⟨hinv, hrest⟩ := ih (done ++ [t]) _ (by rw [htimes, List.append_assoc]; rfl) hinv
    rw [List.flatMap_cons, Store.applyEach_append]
    refine ⟨hinv, fun o ho => ?_⟩
    rcases List.mem_append.1 ho with ho | ho
    · exact hquiet o ho
    · exact hrest o ho

end

/-- **A run keeps what each of its milestones keeps.** -/
theorem Steps.run {batches : List (List (Weighted κ τ))}
    (h : ∀ after ∈ milestones [] batches, Steps inv quiet after) (hstart : inv [] .empty)
    {f : Feeding κ τ k} (hf : Feeding.run batches = .ok f) : inv batches.flatten f.store := by
  induction batches using List.reverseRecOn generalizing f with
  | nil =>
    rw [← pure_eq_ok.1 hf]
    exact hstart
  | append_singleton batches batch ih =>
    obtain ⟨g, hg, hf⟩ := Feeding.run_append_singleton.1 hf
    obtain ⟨us, hus, hstore⟩ := Feeding.take_eq_ok_of_run hg hf
    rw [milestones_append] at h
    have hinv := ih (fun after hafter => h after (List.mem_append_left _ hafter)) hg
    rw [hstore, List.flatten_append, List.flatten_singleton]
    refine (Steps.batch (fun r hr => h _ (List.mem_append_right _ ?_)) hinv hus).1
    exact List.mem_append_left _ (List.mem_map_of_mem hr)

end TopCharts
