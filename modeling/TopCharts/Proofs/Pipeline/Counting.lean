import TopCharts.Proofs.Collection.Totals
import TopCharts.Proofs.Pipeline.Basic
import TopCharts.Proofs.Store.Exact

/-!
# Charts of counts that only grow

* `CountAction`, `Pipeline.count`, `Pipeline.runCounts` : counting up within groups, and letting
  groups expire. A total that is no word ends the run;
* `counted actions group` : what was counted in a group since it was last expired;
* `Growing actions` : no count that has begun is taken down, and every total is a word;
* `topK_runCounts` : then the run does not end early, and after every step the charts are those of
  the groups counted since they were last expired, each with the best of its totals.

The invariant is `Pipeline.Counted`. Its charts are exact between actions and not within one: an
increment first takes back the old total, which leaves a gap if it was ranked.
-/

namespace TopCharts

open Std (TransOrd LawfulEqOrd)

/-! ## Actions -/

inductive CountAction (γ : Type) where
  | increment (group : γ) (identity delta : Int64)
  /-- The groups that fail `keep` are dropped. -/
  | expire (keep : γ → Bool)

namespace CountAction

variable {γ : Type}

/-- What is counted in a group after an action. -/
def tally [DecidableEq γ] (group : γ) (c : Collection Int64) : CountAction γ → Collection Int64
  | .increment g identity delta => if g = group then c.tally identity delta else c
  | .expire keep => if keep group then c else .empty

/-- The action takes down no count that has begun, and its total is a word. -/
def Grows (counts : γ → Collection Int64) : CountAction γ → Prop
  | .increment group identity delta =>
    (identity ∈ (counts group).rows.map Prod.fst → 0 ≤ delta) ∧
      IsWord ((counts group).multiplicity identity + delta.toInt)
  | .expire _ => True

instance (counts : γ → Collection Int64) : (a : CountAction γ) → Decidable (a.Grows counts)
  | .increment _ _ _ => inferInstanceAs (Decidable (_ ∧ _))
  | .expire _ => .isTrue trivial

end CountAction

section

variable {γ : Type} [DecidableEq γ]

def counted (actions : List (CountAction γ)) (group : γ) : Collection Int64 :=
  actions.foldl (CountAction.tally group) .empty

theorem counted_append_singleton (actions : List (CountAction γ)) (a : CountAction γ) :
    counted (actions ++ [a]) = fun group => a.tally group (counted actions group) := by
  funext group
  rw [counted, List.foldl_append]
  rfl

/-- Every action of a run counts up, from what was counted before it. -/
def Growing (actions : List (CountAction γ)) : Prop :=
  ∀ n (_ : n < actions.length), actions[n].Grows (counted (actions.take n))

instance (actions : List (CountAction γ)) : Decidable (Growing actions) :=
  Nat.decidableBallLT _ _

end

namespace Pipeline

variable {γ : Type} [Ord γ] [TransOrd γ] [DecidableEq γ] {k : Nat}

def count (p : Pipeline (Tally γ) γ k) : CountAction γ → Except Fault (Pipeline (Tally γ) γ k)
  | .increment group identity delta => p.increment group identity delta
  | .expire keep => return p.expire keep

def runCounts (actions : List (CountAction γ)) : Except Fault (Pipeline (Tally γ) γ k) :=
  actions.foldlM count start

end Pipeline

/-! ## Trackers of totals -/

section

variable {γ : Type} [Ord γ] [TransOrd γ] {t : Tracker (Tally γ) γ} {counts : γ → Collection Int64}

/-- The tracker holds the totals, each for its own tally. -/
def Tracker.Totals (t : Tracker (Tally γ) γ) (counts : γ → Collection Int64) : Prop :=
  ∀ group identity, t.held[(⟨group, identity⟩ : Tally γ)]? =
    ((counts group).total? identity).map fun total => (group, ⟨identity, total⟩)

theorem Tracker.Totals.score_eq (h : t.Totals counts) (group : γ) (identity : Int64) :
    t.score group identity = ((counts group).total? identity).getD 0 := by
  rw [Tracker.score, h]
  cases (counts group).total? identity with
  | none => rfl
  | some total => rfl

/-- The tally of a value that counts. -/
def Tally.ofValue (value : γ × Entry) : Tally γ :=
  ⟨value.1, value.2.identity⟩

theorem Tracker.Totals.ofValue (h : t.Totals counts) (tally : Tally γ) (value : γ × Entry)
    (hv : t.held[tally]? = some value) : Tally.ofValue value = tally := by
  rw [h tally.group tally.identity, Option.map_eq_some_iff] at hv
  obtain ⟨total, -, rfl⟩ := hv
  rfl

theorem Tracker.Totals.getElem?_ofValue (h : t.Totals counts) {group : γ} {e : Entry} :
    t.held[Tally.ofValue (group, e)]? = some (group, e) ↔ e ∈ (counts group).totals := by
  rw [Tally.ofValue, h, Collection.mem_totals, Option.map_eq_some_iff]
  constructor
  · rintro ⟨total, htotal, hvalue⟩
    rw [htotal, ← (Prod.mk.inj hvalue).2]
  · intro htotal
    exact ⟨e.score, htotal, rfl⟩

theorem Tracker.Totals.upsert [LawfulEqOrd γ] [DecidableEq γ] (h : t.Totals counts) (group : γ)
    (identity delta : Int64) :
    (t.upsert ⟨group, identity⟩ group ⟨identity,
      .ofInt ((counts group).multiplicity identity + delta.toInt)⟩).2.Totals
        fun g => (CountAction.increment group identity delta).tally g (counts g) := by
  intro g i
  show (t.held.insert _ _)[_]? = ((if group = g then _ else _ : Collection Int64).total? i).map _
  rw [Std.ExtTreeMap.getElem?_insert]
  simp only [LawfulEqOrd.compare_eq_iff_eq, Tally.mk.injEq]
  by_cases hg : group = g
  · subst hg
    rw [if_pos rfl, Collection.total?_tally]
    by_cases hi : identity = i
    · subst hi
      rw [if_pos ⟨rfl, rfl⟩, if_pos rfl]
      rfl
    · rw [if_neg fun h => hi h.2, if_neg hi, h]
  · rw [if_neg fun h => hg h.1, if_neg hg, h]

theorem Tracker.Totals.forget [LawfulEqOrd γ] [DecidableEq γ] (h : t.Totals counts)
    (keep : γ → Bool) :
    (t.forget keep).Totals fun g => (CountAction.expire keep).tally g (counts g) := by
  intro g i
  rw [Tracker.getElem?_forget, h]
  show _ = ((if keep g then counts g else .empty : Collection Int64).total? i).map _
  by_cases hkeep : keep g
  · rw [if_pos hkeep]
    cases (counts g).total? i with
    | none => rfl
    | some total => exact Option.filter_some.trans (if_pos hkeep)
  · rw [if_neg hkeep]
    cases (counts g).total? i with
    | none => rfl
    | some total => exact Option.filter_some.trans (if_neg hkeep)

end

/-! ## The invariant -/

/-- What a step of the tracker takes back and delivers is what the totals lose and gain. -/
theorem Tracker.Moves.turns {γ : Type} [Ord γ] [TransOrd γ] {t : Tracker (Tally γ) γ}
    {record : Tally γ} {change : Tracker.Step γ × Tracker (Tally γ) γ} (h : t.Moves record change)
    {old new : γ → Collection Int64} (hold : t.Totals old) (hnew : change.2.Totals new) :
    Turns change.1.updates (fun group => (old group).totals) fun group => (new group).totals where
  removed group e := by
    rw [Tracker.Step.remove_mem_updates, (h.step_iff hold.ofValue hnew.ofValue _).1,
      hold.getElem?_ofValue, ne_eq, hnew.getElem?_ofValue]
  added group e := by
    rw [Tracker.Step.add_mem_updates, (h.step_iff hold.ofValue hnew.ofValue _).2,
      hnew.getElem?_ofValue, ne_eq, hold.getElem?_ofValue]
  order := change.1.pairwise_updates.imp fun {u v} huv (_ : u.key = v.key) => huv

namespace Pipeline

variable {γ : Type} [Ord γ] [TransOrd γ] {k : Nat} {p : Pipeline (Tally γ) γ k}
  {counts : γ → Collection Int64}

/-- The state after counting: the tracker holds the totals, and the charts show the best of them. -/
structure Counted (p : Pipeline (Tally γ) γ k) (counts : γ → Collection Int64) : Prop where
  totals : p.tracker.Totals counts
  words : ∀ group identity, IsWord ((counts group).multiplicity identity)
  exact : p.store.Exact fun group => (counts group).totals

theorem counted_start : (start : Pipeline (Tally γ) γ k).Counted fun _ => .empty where
  totals _ _ := Std.ExtTreeMap.getElem?_empty
  words _ _ := show IsWord 0 by decide
  exact := by
    rw [Collection.totals_empty]
    exact Store.exact_empty

variable [DecidableEq γ]

/-- Counting goes on from the total, and is not refused if it leaves a word. -/
theorem Counted.increment_eq (h : p.Counted counts) (group : γ) {identity delta : Int64}
    (hword : IsWord ((counts group).multiplicity identity + delta.toInt)) :
    p.increment group identity delta =
      .ok (p.feed (p.tracker.upsert ⟨group, identity⟩ group ⟨identity,
        .ofInt ((counts group).multiplicity identity + delta.toInt)⟩)) := by
  have hscore : (p.tracker.score group identity).toInt = (counts group).multiplicity identity := by
    rw [h.totals.score_eq, Collection.toInt_getD_total? (h.words group identity)]
  rw [Pipeline.increment, Tracker.increment_eq_ok_iff.2 ⟨_, ?_, rfl⟩]
  · rfl
  · rw [hscore, hword.toInt_ofInt]

theorem Counted.isWord_of_increment (h : p.Counted counts) {group : γ} {identity delta : Int64}
    {q : Pipeline (Tally γ) γ k} (hq : p.increment group identity delta = .ok q) :
    IsWord ((counts group).multiplicity identity + delta.toInt) := by
  obtain ⟨change, hchange, -⟩ := Attempt.bind_eq_ok.1 hq
  obtain ⟨score, hscore, -⟩ := Tracker.increment_eq_ok_iff.1 hchange
  rw [h.totals.score_eq, Collection.toInt_getD_total? (h.words group identity)] at hscore
  rw [hscore]
  exact ⟨score.minValue_le_toInt, score.toInt_le⟩

variable [LawfulEqOrd γ]

theorem Counted.increment (h : p.Counted counts) {group : γ} {identity delta : Int64}
    (hgrows : (CountAction.increment group identity delta).Grows counts) :
    ∃ q, p.increment group identity delta = .ok q ∧
      q.Counted fun g => (CountAction.increment group identity delta).tally g (counts g) := by
  obtain ⟨hdelta, hword⟩ := hgrows
  have htotals := h.totals.upsert group identity delta
  refine ⟨_, h.increment_eq group hword, htotals, ?_, ?_⟩
  · intro g
    show ∀ i, IsWord ((if group = g then _ else _ : Collection Int64).multiplicity i)
    split
    · rename_i hg
      subst hg
      exact Collection.isWord_tally (h.words group) hword
    · exact h.words g
  · refine h.exact.applyEach (fun g => ?_) ((p.tracker.upsert_moves _ _ _).turns h.totals htotals)
    show Raises _ (if group = g then _ else _ : Collection Int64).totals
    split
    · rename_i hg
      subst hg
      exact Collection.raises_tally (h.words group identity) hword hdelta
    · exact .refl (Collection.oneEach_totals _)

theorem Counted.expire (h : p.Counted counts) (keep : γ → Bool) :
    (p.expire keep).Counted fun g => (CountAction.expire keep).tally g (counts g) := by
  have htally (g : γ) : (CountAction.expire keep).tally g (counts g) =
      if keep g then counts g else .empty := rfl
  refine ⟨h.totals.forget keep, ?_, ?_⟩
  · intro g i
    rw [htally]
    split
    · exact h.words g i
    · exact show IsWord 0 by decide
  · have hsets (g : γ) : ((CountAction.expire keep).tally g (counts g)).totals =
        if keep g then (counts g).totals else ∅ := by
      rw [htally, apply_ite Collection.totals, Collection.totals_empty]
    simp only [hsets]
    exact h.exact.retain keep

/-- **Every action that grows keeps the state counted**, and none is refused. -/
theorem Counted.count (h : p.Counted counts) {a : CountAction γ} (ha : a.Grows counts) :
    ∃ q, p.count a = .ok q ∧ q.Counted fun group => a.tally group (counts group) := by
  cases a with
  | increment group identity delta => exact h.increment ha
  | expire keep => exact ⟨_, rfl, h.expire keep⟩

theorem exists_counted_runCounts (k : Nat) {actions : List (CountAction γ)} (h : Growing actions)
    (n : Nat) :
    ∃ p : Pipeline (Tally γ) γ k, runCounts (actions.take n) = .ok p ∧
      p.Counted (counted (actions.take n)) := by
  induction n with
  | zero => exact ⟨start, rfl, counted_start⟩
  | succ n ih =>
    obtain ⟨p, hrun, hp⟩ := ih
    by_cases hn : n < actions.length
    · obtain ⟨q, hcount, hq⟩ := hp.count (h n hn)
      rw [List.take_succ_eq_append_getElem hn]
      refine ⟨q, ?_, ?_⟩
      · rw [runCounts, List.foldlM_append, Attempt.bind_eq_ok]
        exact ⟨p, hrun, Attempt.bind_eq_ok.2 ⟨q, hcount, rfl⟩⟩
      · rw [counted_append_singleton]
        exact hq
    · rw [List.take_of_length_le (Nat.le_succ_of_le (Nat.le_of_not_lt hn))]
      rw [List.take_of_length_le (Nat.le_of_not_lt hn)] at hrun hp
      exact ⟨p, hrun, hp⟩

end Pipeline

/-- **Charts of growing counts are exact.** If no count that has begun is taken down and every total
is a word, then after each step the keys are the groups counted since they were last expired, and
the chart of each shows the `k` best of the totals counted since. -/
theorem topK_runCounts {γ : Type} [Ord γ] [TransOrd γ] [LawfulEqOrd γ] [DecidableEq γ] (k : Nat)
    {actions : List (CountAction γ)} (h : Growing actions) (n : Nat) :
    ∃ p : Pipeline (Tally γ) γ k, Pipeline.runCounts (actions.take n) = .ok p ∧
      (∀ group, group ∈ p.store.keys ↔ (counted (actions.take n) group).rows ≠ []) ∧
      ∀ group ∈ p.store.keys,
        p.store.topK group = some (best k (counted (actions.take n) group).totals) := by
  obtain ⟨p, hrun, hp⟩ := Pipeline.exists_counted_runCounts k h n
  have hkeys (group : γ) :
      group ∈ p.store.keys ↔ (counted (actions.take n) group).totals.Nonempty := by
    rw [Store.mem_keys, hp.exact.known]
  refine ⟨p, hrun, ?_, ?_⟩
  · intro group
    rw [hkeys, Collection.totals_nonempty]
  · intro group hgroup
    rw [hp.exact.topK_eq, if_pos ((hkeys group).1 hgroup)]

/-- A total falls out and comes back at a tie; the group expires and starts afresh. -/
theorem topK_runCounts_restart :
    let actions : List (CountAction Nat) := [.increment 1 7 3, .increment 1 8 3,
      .increment 1 9 (-2), .increment 2 7 1, .increment 1 9 6, .increment 1 8 1, .increment 1 8 0,
      .expire (· == 2), .increment 1 9 1]
    let after n : Except Fault (Pipeline (Tally Nat) Nat 2) :=
      Pipeline.runCounts (actions.take n)
    Growing actions ∧
      (∃ p, after 9 = .ok p ∧
        (∀ group, group ∈ p.store.keys ↔ (counted (actions.take 9) group).rows ≠ []) ∧
        ∀ group ∈ p.store.keys,
          p.store.topK group = some (best 2 (counted (actions.take 9) group).totals)) ∧
      (after 5).toOption.bind (·.store.topK 1) = some [⟨9, 4⟩, ⟨7, 3⟩] ∧
      (after 7).toOption.bind (·.store.topK 1) = some [⟨8, 4⟩, ⟨9, 4⟩] ∧
      (after 9).toOption.bind (·.store.topK 1) = some [⟨9, 1⟩] :=
  ⟨by decide, topK_runCounts 2 (by decide) 9, by decide, by decide, by decide +kernel⟩

end TopCharts
