import Mathlib.Data.List.SplitBy
import TopCharts.Arrangement.Merge
import TopCharts.Proofs.Collection.Table

/-!
# Merges lose nothing

* `recorded rows f` : the sum of `f` over the records of some rows, whatever their times;
* `recorded_settleKey`, `recorded_store` : settling the rows of a key and storing them keep it;
* `Merge.Sound m` : what is through and what is still due are together the two runs. A merge is
  sound from its beginning, and work on it, however little, keeps it so (`Sound.work`);
* `Merge.Sound.finish` : so a merge that comes to its end holds the two runs.
-/

namespace TopCharts

open Attempt
open Std (TransOrd LawfulEqOrd)

variable {α : Type}

instance [Ord α] [TransOrd α] [LawfulEqOrd α] : LawfulEqOrd (Stamped α) where
  eq_of_compare {a b} h := by
    obtain ⟨hr, ht⟩ := compareLex_eq_eq.1 h
    cases a
    cases b
    exact congr (congrArg Stamped.mk (LawfulEqOrd.eq_of_compare hr)) (LawfulEqOrd.eq_of_compare ht)

/-! ## Rows and their records -/

/-- The sum of a function over the records of some rows. -/
def recorded (rows : List (Stamped α × Int)) (f : α → Int) : Int :=
  Collection.sum ⟨rows⟩ fun s => f s.record

theorem recorded_nil (f : α → Int) : recorded [] f = 0 :=
  rfl

theorem recorded_append (rows more : List (Stamped α × Int)) (f : α → Int) :
    recorded (rows ++ more) f = recorded rows f + recorded more f :=
  Collection.sum_append_rows rows more _

theorem recorded_reverse (rows : List (Stamped α × Int)) (f : α → Int) :
    recorded rows.reverse f = recorded rows f :=
  Collection.sum_perm rows.reverse_perm _

theorem recorded_cons_flatten (rows : List (Stamped α × Int))
    (more : List (List (Stamped α × Int))) (f : α → Int) :
    recorded (rows :: more).flatten f = recorded rows f + recorded more.flatten f := by
  rw [List.flatten_cons, recorded_append]

namespace Merge

variable [Ord α] [TransOrd α] {m : Merge α}

/-! ## The rows of one key -/

/-- Settling the rows of a key keeps their records: only times are forgotten. -/
theorem recorded_settleKey [LawfulEqOrd α] [DecidableEq α] {horizon : Horizon}
    {rows rows' : List (Stamped α × Int)} (h : settleKey horizon rows = .ok rows') (f : α → Int) :
    recorded rows' f = recorded rows f := by
  obtain ⟨settled, hsettled, h⟩ := bind_eq_ok.1 h
  rw [pure_eq_ok] at h
  obtain ⟨rfl, -⟩ := Collection.settle_eq_ok hsettled
  rw [← h]
  show Collection.sum (Collection.consolidate _) _ = _
  rw [Collection.sum_consolidate, Collection.sum_map]
  rfl

omit [TransOrd α] in
theorem recorded_store (through rows : List (Stamped α × Int)) (f : α → Int) :
    recorded (store through rows).2 f = recorded through f + recorded rows f := by
  -- the groups of `rows` are put before `through` one after the other
  have hgroups (groups : List (List (Stamped α × Int))) (cost : Nat)
      (through : List (Stamped α × Int)) :
      recorded (groups.foldl (fun (state : Nat × List (Stamped α × Int)) rows =>
          (if repeats state.2 rows then state.1 else state.1 + rows.length,
            rows.reverse ++ state.2)) (cost, through)).2 f =
        recorded through f + recorded groups.flatten f := by
    induction groups generalizing cost through with
    | nil => exact (add_zero _).symm
    | cons rows groups ih =>
      rw [List.foldl_cons, ih, recorded_cons_flatten, recorded_append, recorded_reverse]
      dsimp only
      omega
  have hstore := hgroups (rows.splitBy fun a b => compare a.1.record b.1.record = .eq) 0 through
  rw [List.flatten_splitBy] at hstore
  exact hstore

/-! ## Merges -/

/-- What is through and what is due are together the two runs. -/
def Sound (m : Merge α) : Prop :=
  ∀ f, recorded m.through f + recorded m.due.flatten f =
    recorded m.older.rows f + recorded m.newer.rows f

omit [Ord α] [TransOrd α] in
theorem sound_begin {κ : Type} [Ord κ] [ArrangedBy α κ] (horizon : Horizon) (older newer : Run α) :
    (begin horizon older newer).Sound := by
  intro f
  show recorded [] f + recorded (byKey older newer).flatten f =
    recorded older.rows f + recorded newer.rows f
  have hperm : (byKey older newer).flatten.Perm (older.rows ++ newer.rows) := by
    rw [byKey, List.flatten_splitBy]
    exact List.mergeSort_perm _ _
  have hrows : recorded (byKey older newer).flatten f = recorded (older.rows ++ newer.rows) f :=
    Collection.sum_perm hperm _
  rw [hrows, recorded_append, recorded_nil, zero_add]

omit [Ord α] [TransOrd α] in
theorem Sound.extend (h : m.Sound) (run : Run α) : (m.extend run).Sound := by
  intro f
  have hsound := h f
  have hdue : (m.due ++ run.rows.map ([·])).flatten = m.due.flatten ++ run.rows := by
    rw [List.flatten_append, ← List.flatMap_def, List.flatMap_singleton']
  show recorded m.through f + recorded (m.due ++ run.rows.map ([·])).flatten f =
    recorded m.older.rows f + recorded (m.newer.rows ++ run.rows) f
  rw [hdue, recorded_append, recorded_append]
  omega

variable [LawfulEqOrd α] [DecidableEq α]

/-- Work on a merge keeps the records, and is over only when nothing is due. -/
theorem recorded_workOn {horizon : Horizon} {effort left : Nat}
    {due due' : List (List (Stamped α × Int))} {through through' : List (Stamped α × Int)}
    (h : workOn horizon effort due through = .ok (left, due', through')) :
    (∀ f, recorded through' f + recorded due'.flatten f =
        recorded through f + recorded due.flatten f) ∧ (left ≠ 0 → due' = []) := by
  induction due generalizing effort through with
  | nil =>
    rw [workOn] at h
    cases h
    exact ⟨fun f => rfl, fun _ => rfl⟩
  | cons rows due ih =>
    cases effort with
    | zero =>
      cases h
      exact ⟨fun f => rfl, fun h => absurd rfl h⟩
    | succ effort =>
      obtain ⟨settled, hsettled, h⟩ := bind_eq_ok.1 h
      have hstored := recorded_store through settled
      generalize store through settled = stored at h hstored
      obtain ⟨cost, kept⟩ := stored
      obtain ⟨hrecorded, hleft⟩ := ih h
      refine ⟨fun f => ?_, hleft⟩
      have hstored := hstored f
      rw [recorded_settleKey hsettled] at hstored
      rw [hrecorded, recorded_cons_flatten]
      dsimp only at hstored
      omega

/-- Work on a sound merge leaves a sound merge of the same runs, or a run that holds both. -/
theorem Sound.work (h : m.Sound) {effort : Nat} {result : Merge α ⊕ Run α}
    (hwork : m.work effort = .ok result) :
    match result with
    | .inl m' => m'.Sound ∧ m'.older = m.older ∧ m'.newer = m.newer
    | .inr run => ∀ f, recorded run.rows f = recorded m.older.rows f + recorded m.newer.rows f := by
  obtain ⟨⟨left, due, through⟩, hon, hwork⟩ := bind_eq_ok.1 hwork
  obtain ⟨hrecorded, hleft⟩ := recorded_workOn hon
  dsimp only at hwork
  split at hwork
  · rw [pure_eq_ok] at hwork
    subst hwork
    exact ⟨fun f => (hrecorded f).trans (h f), rfl, rfl⟩
  · rename_i hne
    rw [pure_eq_ok] at hwork
    subst hwork
    intro f
    have hdone := (hrecorded f).trans (h f)
    rw [hleft hne, List.flatten_nil, recorded_nil, add_zero] at hdone
    show recorded through.reverse f = _
    rw [recorded_reverse, hdone]

theorem Sound.finish (h : m.Sound) {run : Run α} (hfinish : m.finish = .ok run) (f : α → Int) :
    recorded run.rows f = recorded m.older.rows f + recorded m.newer.rows f := by
  obtain ⟨rest, hrest, hfinish⟩ := bind_eq_ok.1 hfinish
  rw [pure_eq_ok] at hfinish
  subst hfinish
  have hflat (due : List (List (Stamped α × Int))) (rest : List (List (Stamped α × Int)))
      (hrest : due.mapM (settleKey m.horizon) = .ok rest) :
      recorded rest.flatten f = recorded due.flatten f := by
    induction due generalizing rest with
    | nil =>
      rw [← pure_eq_ok.1 hrest]
      rfl
    | cons rows due ih =>
      rw [List.mapM_cons] at hrest
      obtain ⟨settled, hsettled, hrest⟩ := bind_eq_ok.1 hrest
      obtain ⟨rest', hrest', hrest⟩ := bind_eq_ok.1 hrest
      rw [← pure_eq_ok.1 hrest, recorded_cons_flatten, recorded_cons_flatten,
        recorded_settleKey hsettled, ih rest' hrest']
  show recorded (m.through.reverse ++ rest.flatten) f = _
  rw [recorded_append, recorded_reverse, hflat m.due rest hrest]
  exact h f

end Merge

end TopCharts
