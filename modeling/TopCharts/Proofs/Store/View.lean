import TopCharts.Proofs.Chart.Exact
import TopCharts.Store

/-!
# A store, key by key

* `Chart.update`, `Chart.updates` : the chart that one change, or the changes of a list of updates,
  leaves;
* `Store.chart s key` : the chart of a key, empty if the key has none. With `get?` it is all that
  the queries show (`mem_keys`, `topK_eq`);
* `Store.addressed key us` : the updates of `us` to one key. After `applyEach` the chart of a key
  has taken exactly these, in their order (`get?_applyEach`, `chart_applyEach`), and the keys are
  those from before and those addressed (`isSome_get?_applyEach`);
* `get?_retain` : `retain` drops whole charts and changes none.
-/

namespace TopCharts

open Std (TransOrd LawfulEqOrd)

variable {κ : Type} {k : Nat}

namespace Chart

def update (c : Chart k) (change : Change) (e : Entry) : Chart k :=
  match change with
  | .add => (c.add e).2
  | .remove => (c.remove e).2

def updates (c : Chart k) (us : List (Update κ)) : Chart k :=
  us.foldl (fun c u => c.update u.change u.entry) c

theorem updates_append (c : Chart k) (us vs : List (Update κ)) :
    c.updates (us ++ vs) = (c.updates us).updates vs :=
  List.foldl_append

theorem updates_of_add {us : List (Update κ)} (h : ∀ u ∈ us, u.change = .add) (c : Chart k) :
    c.updates us = (us.map Update.entry).foldl (fun c e => (c.add e).2) c := by
  rw [List.foldl_map]
  refine List.foldl_ext _ _ c ?_
  intro c u hu
  rw [h u hu]
  rfl

theorem updates_of_remove {us : List (Update κ)} (h : ∀ u ∈ us, u.change = .remove)
    (c : Chart k) : c.updates us = (us.map Update.entry).foldl (fun c e => (c.remove e).2) c := by
  rw [List.foldl_map]
  refine List.foldl_ext _ _ c ?_
  intro c u hu
  rw [h u hu]
  rfl

theorem Sound.update {c : Chart k} (h : c.Sound) (change : Change) (e : Entry) :
    (c.update change e).Sound := by
  cases change with
  | add => exact h.add e
  | remove => exact h.remove e

theorem Sound.updates {c : Chart k} (h : c.Sound) (us : List (Update κ)) :
    (c.updates us).Sound := by
  induction us generalizing c with
  | nil => exact h
  | cons u us ih => exact ih (h.update u.change u.entry)

/-- What is ranked after updates was ranked before and never taken back, or was delivered. -/
theorem Sound.mem_updates {c : Chart k} (h : c.Sound) {us : List (Update κ)} {a : Entry}
    (ha : a ∈ (c.updates us).toList) :
    (a ∈ c.toList ∧ ∀ u ∈ us, u.change = .remove → u.entry ≠ a) ∨
      ∃ u ∈ us, u.change = .add ∧ u.entry = a := by
  induction us generalizing c with
  | nil => exact .inl ⟨ha, fun u hu => absurd hu List.not_mem_nil⟩
  | cons u us ih =>
    rcases ih (h.update u.change u.entry) ha with ⟨ha, hus⟩ | ⟨v, hv, hadd⟩
    · cases hchange : u.change with
      | add =>
        rw [hchange] at ha
        rcases h.mem_add ha with rfl | ha
        · exact .inr ⟨u, List.mem_cons_self, hchange, rfl⟩
        · refine .inl ⟨ha, fun v hv hremove => ?_⟩
          rcases List.mem_cons.1 hv with rfl | hv
          · rw [hchange] at hremove
            cases hremove
          · exact hus v hv hremove
      | remove =>
        rw [hchange] at ha
        obtain ⟨hne, ha⟩ := h.mem_remove.1 ha
        refine .inl ⟨ha, fun v hv hremove => ?_⟩
        rcases List.mem_cons.1 hv with rfl | hv
        · exact hne.symm
        · exact hus v hv hremove
    · exact .inr ⟨v, List.mem_cons_of_mem u hv, hadd⟩

end Chart

namespace Store

variable [Ord κ] [TransOrd κ] {s : Store κ k}

def chart (s : Store κ k) (key : κ) : Chart k :=
  (s.get? key).getD .empty

theorem get?_empty (key : κ) : (empty : Store κ k).get? key = none :=
  Std.ExtTreeMap.getElem?_empty

theorem chart_empty (key : κ) : (empty : Store κ k).chart key = .empty := by
  rw [chart, get?_empty]
  rfl

theorem getD_charts (s : Store κ k) (key : κ) : s.charts.getD key .empty = s.chart key :=
  Std.ExtTreeMap.getD_eq_getD_getElem?

theorem topK_eq (s : Store κ k) (key : κ) :
    s.topK key = if (s.get? key).isSome then some (s.chart key).toList else none := by
  rw [topK, chart]
  cases s.get? key with
  | none => rfl
  | some c => rfl

theorem getD_topK (s : Store κ k) (key : κ) : (s.topK key).getD [] = (s.chart key).toList := by
  rw [topK, chart]
  cases s.get? key with
  | none => rfl
  | some c => rfl

theorem mem_keys [LawfulEqOrd κ] {key : κ} : key ∈ s.keys ↔ (s.get? key).isSome := by
  rw [keys, Std.ExtTreeMap.mem_keys, get?, Std.ExtTreeMap.mem_iff_isSome_getElem?]

theorem pairwise_keys (s : Store κ k) : s.keys.Pairwise fun a b => compare a b = .lt :=
  Std.ExtTreeMap.ordered_keys

/-! ## Updates -/

theorem applyEach_cons (s : Store κ k) (u : Update κ) (us : List (Update κ)) :
    s.applyEach (u :: us) =
      ((s.applyUpdate u).1 :: ((s.applyUpdate u).2.applyEach us).1,
        ((s.applyUpdate u).2.applyEach us).2) :=
  rfl

theorem applyEach_append (s : Store κ k) (us vs : List (Update κ)) :
    s.applyEach (us ++ vs) =
      ((s.applyEach us).1 ++ ((s.applyEach us).2.applyEach vs).1,
        ((s.applyEach us).2.applyEach vs).2) := by
  induction us generalizing s with
  | nil => rfl
  | cons u us ih => rw [List.cons_append, applyEach_cons, ih, applyEach_cons, List.cons_append]

variable [LawfulEqOrd κ] [DecidableEq κ]

theorem get?_apply (s : Store κ k) (key : κ) (change : Change) (e : Entry) (a : κ) :
    (s.apply key change e).2.get? a =
      if key = a then some ((s.chart key).update change e) else s.get? a := by
  have happly : (s.apply key change e).2 =
      ⟨s.charts.insert key ((s.charts.getD key .empty).update change e)⟩ := by
    cases change with
    | add => rfl
    | remove => rfl
  rw [happly, getD_charts, get?, Std.ExtTreeMap.getElem?_insert]
  simp only [LawfulEqOrd.compare_eq_iff_eq]
  rfl

theorem chart_apply_self (s : Store κ k) (key : κ) (change : Change) (e : Entry) :
    (s.apply key change e).2.chart key = (s.chart key).update change e := by
  rw [chart, get?_apply, if_pos rfl]
  rfl

section

omit [Ord κ] [TransOrd κ] [LawfulEqOrd κ]

def addressed (key : κ) (us : List (Update κ)) : List (Update κ) :=
  us.filter (·.key = key)

theorem mem_addressed {key : κ} {us : List (Update κ)} {u : Update κ} :
    u ∈ addressed key us ↔ u ∈ us ∧ u.key = key := by
  rw [addressed, List.mem_filter, decide_eq_true_iff]

theorem addressed_eq_nil {key : κ} {us : List (Update κ)} :
    addressed key us = [] ↔ ¬ ∃ u ∈ us, u.key = key := by
  rw [addressed, List.filter_eq_nil_iff, not_exists]
  simp only [decide_eq_true_iff, not_and]

theorem addressed_cons (key : κ) (u : Update κ) (us : List (Update κ)) :
    addressed key (u :: us) = if u.key = key then u :: addressed key us else addressed key us := by
  rw [addressed, List.filter_cons]
  simp only [decide_eq_true_iff]
  rfl

end

theorem chart_applyUpdate (s : Store κ k) (u : Update κ) (key : κ) :
    (s.applyUpdate u).2.chart key =
      if u.key = key then (s.chart key).update u.change u.entry else s.chart key := by
  rw [chart, applyUpdate, get?_apply]
  split
  · rename_i hkey
    rw [hkey]
    rfl
  · rfl

/-- The chart of a key takes exactly the updates that are addressed to it, the first of which
creates it. -/
theorem get?_applyEach (s : Store κ k) (us : List (Update κ)) (key : κ) :
    (s.applyEach us).2.get? key =
      if ∃ u ∈ us, u.key = key then some ((s.chart key).updates (addressed key us))
      else s.get? key := by
  induction us generalizing s with
  | nil =>
    rw [if_neg fun ⟨_, hu, _⟩ => absurd hu List.not_mem_nil]
    rfl
  | cons u us ih =>
    rw [applyEach_cons, ih, chart_applyUpdate, addressed_cons, applyUpdate, get?_apply]
    simp only [List.mem_cons, exists_eq_or_imp]
    by_cases hkey : u.key = key
    · simp only [hkey, ↓reduceIte, true_or]
      split
      · rfl
      · rename_i hus
        rw [addressed_eq_nil.2 hus]
        rfl
    · simp only [hkey, ↓reduceIte, false_or]

theorem chart_applyEach (s : Store κ k) (us : List (Update κ)) (key : κ) :
    (s.applyEach us).2.chart key = (s.chart key).updates (addressed key us) := by
  rw [chart, get?_applyEach]
  split
  · rfl
  · rename_i hus
    rw [addressed_eq_nil.2 hus]
    rfl

theorem isSome_get?_applyEach (s : Store κ k) (us : List (Update κ)) (key : κ) :
    ((s.applyEach us).2.get? key).isSome ↔ (s.get? key).isSome ∨ ∃ u ∈ us, u.key = key := by
  rw [get?_applyEach]
  split
  · rename_i hus
    exact iff_of_true rfl (.inr hus)
  · rename_i hus
    exact (or_iff_left hus).symm

omit [DecidableEq κ] in
theorem get?_retain (s : Store κ k) (keep : κ → Bool) (key : κ) :
    (s.retain keep).2.get? key = if keep key then s.get? key else none := by
  show (s.charts.filter fun key _ => keep key)[key]? = _
  rw [Std.ExtTreeMap.getElem?_filter', get?]
  cases s.charts[key]? with
  | none => split <;> rfl
  | some c => exact Option.filter_some

omit [DecidableEq κ] in
theorem chart_retain (s : Store κ k) (keep : κ → Bool) (key : κ) :
    (s.retain keep).2.chart key = if keep key then s.chart key else .empty := by
  rw [chart, get?_retain]
  split <;> rfl

/-! ## What all charts satisfy -/

omit [DecidableEq κ] in
def Sound (s : Store κ k) : Prop :=
  ∀ key, (s.chart key).Sound

omit [LawfulEqOrd κ] [DecidableEq κ] in
theorem sound_empty : (empty : Store κ k).Sound := by
  intro key
  rw [chart_empty]
  exact Chart.sound_empty

omit [LawfulEqOrd κ] [DecidableEq κ] in
theorem Sound.of_get? (h : s.Sound) {key : κ} {c : Chart k} (hkey : s.get? key = some c) :
    c.Sound := by
  have hsound := h key
  rw [chart, hkey] at hsound
  exact hsound

theorem Sound.applyEach (h : s.Sound) (us : List (Update κ)) : (s.applyEach us).2.Sound := by
  intro key
  rw [chart_applyEach]
  exact (h key).updates _

end Store

end TopCharts
