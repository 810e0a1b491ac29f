import TopCharts.Proofs.ChangeLog.Overflow
import TopCharts.Shared

/-!
# Change logs behind several handles

A handle that is cloned shares the log of the handle it is cloned from. So the handles fall into
classes, one for each handle that was made new: its clones, their clones, and so on.

* `LogAction`, `LogPool.act` : what can be done with handles; `LogPool.after`, `LogPool.reply` : the
  logs before action `n` of a history, and what this action replies;
* `originals` : for each handle the one made new that it comes from;
* `recordedAt`, `drainsAt` : whether an action records through a handle of an original, or drains;
* `outstanding` : what was recorded through the handles of an original and not drained since.
  `outstanding_succ` says what one action does to it, and `recorded_eq` that no change is lost and
  none is delivered twice;
* `LogPool.Keeps` : the logs hold what is outstanding. Every action keeps this (`Keeps.act`);
* `LogPool.drains_deliver_once` : what a drain delivers, when it fails, and what it leaves.
-/

namespace TopCharts

open Std (TransOrd LawfulEqOrd)

variable {κ τ : Type}

/-- What can be done with handles of change logs. The handles are numbered as they are made. -/
inductive LogAction (κ τ : Type) where
  /-- Makes a log of its own, and a handle to it. -/
  | new
  /-- Makes one more handle to the log of a handle. -/
  | clone (handle : Nat)
  | record (handle : Nat) (change : Weighted κ τ)
  | drain (handle : Nat)

/-- The originals of all handles after an action, from those before it. A new handle is its own
original, and a clone has the original of the handle it is cloned from. -/
def LogAction.enroll (before : List Nat) : LogAction κ τ → List Nat
  | .new => before ++ [before.length]
  | .clone handle => before ++ before[handle]?.toList
  | .record _ _ => before
  | .drain _ => before

/-! ## What a history says of its handles -/

section

variable (actions : List (LogAction κ τ))

/-- The original of every handle there is before action `n`. -/
def originals (n : Nat) : List Nat :=
  (actions.take n).foldl LogAction.enroll []

/-- The change that action `n` records through a handle of an original. -/
def recordedAt (original n : Nat) : Option (Weighted κ τ) :=
  match actions[n]? with
  | some (.record handle change) =>
    if (originals actions n)[handle]? = some original then some change else none
  | _ => none

/-- Action `n` drains through a handle of an original. -/
def drainsAt (original n : Nat) : Bool :=
  match actions[n]? with
  | some (.drain handle) => (originals actions n)[handle]? = some original
  | _ => false

/-- What was recorded through the handles of an original before action `n`, and was not followed by
a drain through any of them. -/
def outstanding (n original : Nat) : List (Weighted κ τ) :=
  (List.range n).filterMap fun i =>
    if ∀ j < n, i < j → drainsAt actions original j = false then recordedAt actions original i
    else none

variable {actions} {n original : Nat}

theorem originals_succ {a : LogAction κ τ} (ha : actions[n]? = some a) :
    originals actions (n + 1) = a.enroll (originals actions n) := by
  rw [originals, List.take_add_one, ha, Option.toList_some, List.foldl_append]
  rfl

theorem recordedAt_of_drainsAt (h : drainsAt actions original n = true) :
    recordedAt actions original n = none := by
  unfold drainsAt at h
  unfold recordedAt
  cases ha : actions[n]? with
  | none => rfl
  | some a =>
    rw [ha] at h
    cases a with
    | record handle change => cases h
    | _ => rfl

/-- **One action** drains what is outstanding, or adds what it records. -/
theorem outstanding_succ (n original : Nat) :
    outstanding actions (n + 1) original =
      if drainsAt actions original n then []
      else outstanding actions n original ++ (recordedAt actions original n).toList := by
  rw [outstanding, List.range_succ, List.filterMap_append]
  have hlast : [n].filterMap (fun i =>
      if ∀ j < n + 1, i < j → drainsAt actions original j = false then recordedAt actions original i
      else none) = (recordedAt actions original n).toList := by
    have hnone : ∀ j < n + 1, n < j → drainsAt actions original j = false :=
      fun j hj hnj => absurd (Nat.lt_of_lt_of_le hnj (Nat.le_of_lt_succ hj)) (Nat.lt_irrefl n)
    rw [List.filterMap_cons, if_pos hnone]
    cases recordedAt actions original n <;> rfl
  rw [hlast]
  split
  · rename_i hdrains
    rw [recordedAt_of_drainsAt hdrains, Option.toList_none, List.append_nil,
      List.filterMap_eq_nil_iff]
    intro i hi
    refine if_neg fun hnone => ?_
    rw [hnone n (Nat.lt_succ_self n) (List.mem_range.1 hi)] at hdrains
    cases hdrains
  · rename_i hdrains
    rw [outstanding]
    congr 1
    refine List.filterMap_congr fun i _ => if_congr ?_ rfl rfl
    refine ⟨fun h j hj => h j (Nat.lt_succ_of_lt hj), fun h j hj hij => ?_⟩
    rcases Nat.lt_succ_iff_lt_or_eq.1 hj with hj | rfl
    · exact h j hj hij
    · exact Bool.eq_false_iff.2 hdrains

/-- **No change is lost and none is delivered twice**: what was recorded through the handles of an
original is what its drains found outstanding, one after the other, and what still is. -/
theorem recorded_eq (n original : Nat) :
    (List.range n).filterMap (recordedAt actions original) =
      ((List.range n).filter (drainsAt actions original)).flatMap
        (outstanding actions · original) ++ outstanding actions n original := by
  induction n with
  | zero => rfl
  | succ n ih =>
    rw [List.range_succ, List.filterMap_append, List.filter_append, List.flatMap_append, ih,
      outstanding_succ]
    split
    · rename_i hdrains
      simp [recordedAt_of_drainsAt hdrains, hdrains]
    · rename_i hdrains
      cases hrecorded : recordedAt actions original n <;> simp [hdrains, hrecorded]

end

/-! ## The logs -/

abbrev LogPool (κ τ : Type) := Shared (ChangeLog κ τ)

namespace LogPool

variable [Ord κ] [Ord τ]

/-- What an action does to the logs; a drain replies with the updates, or with a fault. -/
def act (p : LogPool κ τ) :
    LogAction κ τ → Option (Except Fault (List (Update κ))) × LogPool κ τ
  | .new => (none, p.alloc .empty)
  | .clone handle => (none, p.share handle)
  | .record handle change => (none, p.modify handle fun log => log.record change)
  | .drain handle =>
    ((p.get? handle).map fun log => log.drain.1, p.modify handle fun log => log.drain.2)

variable (actions : List (LogAction κ τ))

def after (n : Nat) : LogPool κ τ :=
  (actions.take n).foldl (fun p a => (p.act a).2) ⟨[], []⟩

def reply (n : Nat) : Option (Except Fault (List (Update κ))) :=
  actions[n]?.bind fun a => ((after actions n).act a).1

variable {actions} {n : Nat} {p : LogPool κ τ} {homes : List Nat}

theorem after_succ {a : LogAction κ τ} (ha : actions[n]? = some a) :
    after actions (n + 1) = ((after actions n).act a).2 := by
  rw [after, List.take_add_one, ha, Option.toList_some, List.foldl_append]
  rfl

omit [Ord κ] [Ord τ]

def logAt (actions : List (LogAction κ τ)) (n original : Nat) : ChangeLog κ τ :=
  ⟨(outstanding actions n original).toArray⟩

theorem logAt_succ (n original : Nat) :
    logAt actions (n + 1) original =
      if drainsAt actions original n then .empty
      else (recordedAt actions original n).elim (logAt actions n original)
        (logAt actions n original).record := by
  rw [logAt, outstanding_succ]
  split
  · rfl
  · cases recordedAt actions original n with
    | none => exact congrArg (fun l => ChangeLog.mk l.toArray) (List.append_nil _)
    | some change =>
      rw [Option.toList_some, Option.elim_some, logAt, ChangeLog.record, List.push_toArray]

/-- The logs hold what is outstanding before action `n`. The log at a position is that of the
original in `homes` there. -/
structure Keeps (actions : List (LogAction κ τ)) (n : Nat) (homes : List Nat) (p : LogPool κ τ) :
    Prop where
  values : p.values = homes.map (logAt actions n)
  handles : p.handles.map (homes[·]?) = (originals actions n).map some
  nodup : homes.Nodup
  lt_of_mem : ∀ original ∈ homes, original < p.handles.length
  fresh : ∀ original, p.handles.length ≤ original → logAt actions n original = .empty

theorem Keeps.home (h : Keeps actions n homes p) (handle : Nat) :
    p.handles[handle]?.bind (homes[·]?) = (originals actions n)[handle]? := by
  have heq := congrArg (·[handle]?) h.handles
  simp only [List.getElem?_map] at heq
  cases hp : p.handles[handle]? <;> cases ho : (originals actions n)[handle]? <;> simp_all

theorem Keeps.get? (h : Keeps actions n homes p) (handle : Nat) :
    p.get? handle = (originals actions n)[handle]?.map (logAt actions n) := by
  have hget : p.get? handle = p.handles[handle]?.bind (p.values[·]?) := rfl
  rw [hget, ← h.home, h.values, Option.map_bind]
  simp only [List.getElem?_map]
  rfl

theorem Keeps.lt_length (h : Keeps actions n homes p) {handle original : Nat}
    (ho : (originals actions n)[handle]? = some original) : original < p.handles.length := by
  rw [← h.home, Option.bind_eq_some_iff] at ho
  obtain ⟨position, -, hposition⟩ := ho
  exact h.lt_of_mem original (List.mem_of_getElem? hposition)

theorem Keeps.length_originals (h : Keeps actions n homes p) :
    (originals actions n).length = p.handles.length := by
  have heq := congrArg List.length h.handles
  rw [List.length_map, List.length_map] at heq
  exact heq.symm

theorem logAt_of_makes {a : LogAction κ τ} (ha : actions[n]? = some a)
    (hmakes : a = .new ∨ ∃ handle, a = .clone handle) (original : Nat) :
    logAt actions (n + 1) original = logAt actions n original := by
  have hquiet : drainsAt actions original n = false ∧ recordedAt actions original n = none := by
    unfold drainsAt recordedAt
    rw [ha]
    rcases hmakes with rfl | ⟨handle, rfl⟩ <;> exact ⟨rfl, rfl⟩
  rw [logAt_succ, hquiet.1, hquiet.2]
  rfl

theorem Keeps.alloc (h : Keeps actions n homes p) (ha : actions[n]? = some .new) :
    Keeps actions (n + 1) (homes ++ [p.handles.length]) (p.alloc .empty) := by
  have hsame := logAt_of_makes ha (.inl rfl)
  have hlength : (p.handles ++ [p.values.length]).length = p.handles.length + 1 :=
    List.length_append
  constructor
  · show p.values ++ [.empty] = _
    rw [List.map_append, List.map_singleton, hsame, h.fresh _ (Nat.le_refl _), h.values]
    exact congrArg (· ++ _) (List.map_congr_left fun original _ => (hsame original).symm)
  · show (p.handles ++ [p.values.length]).map _ = _
    rw [originals_succ ha, LogAction.enroll, h.length_originals, List.map_append, List.map_append,
      ← h.handles, h.values, List.length_map]
    congr 1
    · refine List.map_congr_left fun position hposition => ?_
      obtain ⟨original, -, ho⟩ := List.mem_map.1 (h.handles ▸ List.mem_map_of_mem hposition)
      exact List.getElem?_append_left (List.getElem?_eq_some_iff.1 ho.symm).1
    · simp
  · refine List.nodup_append.2 ⟨h.nodup, List.nodup_singleton _, fun original ho new hnew => ?_⟩
    rw [List.mem_singleton.1 hnew]
    exact (h.lt_of_mem original ho).ne
  · intro original ho
    show original < (p.handles ++ [p.values.length]).length
    rw [hlength]
    rcases List.mem_append.1 ho with ho | ho
    · exact Nat.lt_succ_of_lt (h.lt_of_mem original ho)
    · rw [List.mem_singleton.1 ho]
      exact Nat.lt_succ_self _
  · intro original ho
    change (p.handles ++ [p.values.length]).length ≤ original at ho
    rw [hlength] at ho
    rw [hsame]
    exact h.fresh original (Nat.le_of_succ_le ho)

theorem Keeps.share (h : Keeps actions n homes p) {handle : Nat}
    (ha : actions[n]? = some (.clone handle)) : Keeps actions (n + 1) homes (p.share handle) := by
  have hsame := logAt_of_makes ha (.inr ⟨handle, rfl⟩)
  have hle : p.handles.length ≤ (p.handles ++ p.handles[handle]?.toList).length := by
    rw [List.length_append]
    exact Nat.le_add_right _ _
  constructor
  · show p.values = _
    rw [h.values]
    exact List.map_congr_left fun original _ => (hsame original).symm
  · show (p.handles ++ p.handles[handle]?.toList).map _ = _
    rw [originals_succ ha, LogAction.enroll, List.map_append, List.map_append, h.handles, ← h.home]
    congr 1
    cases hp : p.handles[handle]? with
    | none => rfl
    | some position =>
      obtain ⟨original, -, ho⟩ :=
        List.mem_map.1 (h.handles ▸ List.mem_map_of_mem (List.mem_of_getElem? hp))
      simp [← ho]
  · exact h.nodup
  · exact fun original ho => Nat.lt_of_lt_of_le (h.lt_of_mem original ho) hle
  · intro original ho
    rw [hsame]
    exact h.fresh original (Nat.le_trans hle ho)

/-- An action on the log of a handle changes this log alone. -/
theorem Keeps.modify (h : Keeps actions n homes p) {handle : Nat}
    {f : ChangeLog κ τ → ChangeLog κ τ}
    (horiginals : originals actions (n + 1) = originals actions n)
    (hnext : ∀ original, logAt actions (n + 1) original =
      if (originals actions n)[handle]? = some original then f (logAt actions n original)
      else logAt actions n original) :
    Keeps actions (n + 1) homes (p.modify handle f) := by
  have hhandles : (p.modify handle f).handles = p.handles := by
    unfold Shared.modify
    split <;> rfl
  constructor
  · cases hp : p.handles[handle]? with
    | none =>
      have hmodify : p.modify handle f = p := by
        rw [Shared.modify, hp]
      have hnone : (originals actions n)[handle]? = none := by
        rw [← h.home, hp]
        rfl
      rw [hmodify, h.values]
      refine List.map_congr_left fun original _ => ?_
      rw [hnext, hnone, if_neg nofun]
    | some position =>
      have hmodify : (p.modify handle f).values = p.values.modify position f := by
        rw [Shared.modify, hp]
      have hhome : (originals actions n)[handle]? = homes[position]? := by
        rw [← h.home, hp]
        rfl
      rw [hmodify]
      apply List.ext_getElem?
      intro i
      rw [List.getElem?_modify, h.values, List.getElem?_map, List.getElem?_map]
      cases hi : homes[i]? with
      | none => rfl
      | some original =>
        have hposition : (originals actions n)[handle]? = some original ↔ position = i := by
          rw [hhome, ← hi]
          refine ⟨fun heq => ?_, fun heq => heq ▸ rfl⟩
          exact ((List.getElem?_inj (List.getElem?_eq_some_iff.1 hi).1 h.nodup).1 heq.symm).symm
        show some (if position = i then _ else _) = some _
        rw [hnext, if_congr hposition rfl rfl]
  · rw [hhandles, horiginals]
    exact h.handles
  · exact h.nodup
  · rw [hhandles]
    exact h.lt_of_mem
  · rw [hhandles]
    intro original ho
    rw [hnext, if_neg fun hhandle => Nat.not_lt_of_le ho (h.lt_length hhandle)]
    exact h.fresh original ho

theorem Keeps.record (h : Keeps actions n homes p) {handle : Nat} {change : Weighted κ τ}
    (ha : actions[n]? = some (.record handle change)) :
    Keeps actions (n + 1) homes (p.modify handle fun log => log.record change) := by
  refine h.modify (originals_succ ha) fun original => ?_
  have hdrains : drainsAt actions original n = false := by
    unfold drainsAt
    rw [ha]
  have hrecorded : recordedAt actions original n =
      if (originals actions n)[handle]? = some original then some change else none := by
    unfold recordedAt
    rw [ha]
  rw [logAt_succ, hdrains, hrecorded, if_neg Bool.false_ne_true]
  split <;> rfl

theorem logAt_of_drain {handle : Nat} (ha : actions[n]? = some (.drain handle)) (original : Nat) :
    logAt actions (n + 1) original =
      if (originals actions n)[handle]? = some original then .empty
      else logAt actions n original := by
  have hdrains : drainsAt actions original n =
      decide ((originals actions n)[handle]? = some original) := by
    unfold drainsAt
    rw [ha]
  have hrecorded : recordedAt actions original n = none := by
    unfold recordedAt
    rw [ha]
  rw [logAt_succ, hdrains, hrecorded]
  exact if_congr decide_eq_true_iff rfl rfl

variable [Ord κ] [Ord τ]

/-- **One action** keeps that the logs hold what is outstanding. -/
theorem Keeps.act (h : Keeps actions n homes p) {a : LogAction κ τ} (ha : actions[n]? = some a) :
    ∃ homes, Keeps actions (n + 1) homes (p.act a).2 := by
  cases a with
  | new => exact ⟨_, h.alloc ha⟩
  | clone handle => exact ⟨_, h.share ha⟩
  | record handle change => exact ⟨_, h.record ha⟩
  | drain handle => exact ⟨_, h.modify (originals_succ ha) (logAt_of_drain ha)⟩

/-- **The logs hold what is outstanding**, at each point of a history. -/
theorem exists_keeps_after (actions : List (LogAction κ τ)) {n : Nat} (hn : n ≤ actions.length) :
    ∃ homes, Keeps actions n homes (after actions n) := by
  induction n with
  | zero => exact ⟨[], rfl, rfl, .nil, nofun, fun _ _ => rfl⟩
  | succ n ih =>
    obtain ⟨homes, h⟩ := ih (Nat.le_of_succ_le hn)
    have ha := List.getElem?_eq_getElem hn
    rw [after_succ ha]
    exact h.act ha

theorem get?_after (actions : List (LogAction κ τ)) {n : Nat} (hn : n ≤ actions.length)
    (handle : Nat) :
    (after actions n).get? handle = (originals actions n)[handle]?.map (logAt actions n) :=
  let ⟨_, h⟩ := exists_keeps_after actions hn
  h.get? handle

/-- A drain empties the log of its handle, and leaves every other log as it is. -/
theorem get?_after_drain {handle original : Nat} (ha : actions[n]? = some (.drain handle))
    (ho : (originals actions n)[handle]? = some original) (other : Nat) :
    (after actions (n + 1)).get? other =
      if (originals actions n)[other]? = some original then some .empty
      else (after actions n).get? other := by
  obtain ⟨hn, -⟩ := List.getElem?_eq_some_iff.1 ha
  rw [get?_after actions hn, get?_after actions hn.le, originals_succ ha, LogAction.enroll]
  cases hother : (originals actions n)[other]? with
  | none => rfl
  | some home =>
    rw [Option.map_some, Option.map_some, logAt_of_drain ha, ho]
    simp only [Option.some.injEq, eq_comm (a := home), apply_ite some]

/-- **Every change is delivered once.** At each point `n` of a history,

* `pending` counts, for each handle, what was recorded through the handles of its original and not
  drained through any of them since; this and what the earlier drains found is all that was
  recorded;
* a drain replies with the updates these changes amount to. It fails exactly if a running sum of
  them, in the order recorded, is no word (by an addition), or if all are and some net weight is the
  least word (by a negation). In any case the log is empty afterwards, behind all its handles, and
  every other log is as it was. -/
theorem drains_deliver_once [TransOrd κ] [LawfulEqOrd κ] [DecidableEq κ] [TransOrd τ]
    [LawfulEqOrd τ] [DecidableEq τ] (actions : List (LogAction κ τ)) {n : Nat}
    (hn : n ≤ actions.length) :
    (∀ handle, ((after actions n).get? handle).map ChangeLog.pending =
      (originals actions n)[handle]?.map fun original =>
        (outstanding actions n original).length) ∧
    (∀ original, (List.range n).filterMap (recordedAt actions original) =
      ((List.range n).filter (drainsAt actions original)).flatMap
        (outstanding actions · original) ++ outstanding actions n original) ∧
    ∀ handle original, actions[n]? = some (.drain handle) →
      (originals actions n)[handle]? = some original →
      ∃ result, reply actions n = some result ∧
        result = ChangeLog.updates (outstanding actions n original) ∧
        (∀ fault, result = .error fault ↔
          fault = .addOverflow ∧ ¬ SumsFit (outstanding actions n original) ∨
          fault = .negOverflow ∧ SumsFit (outstanding actions n original) ∧
            ∃ x, net (outstanding actions n original) x = Int64.minValue.toInt) ∧
        ∀ other, (after actions (n + 1)).get? other =
          if (originals actions n)[other]? = some original then some .empty
          else (after actions n).get? other := by
  refine ⟨fun handle => ?_, recorded_eq n, fun handle original ha ho => ?_⟩
  · rw [get?_after actions hn, Option.map_map]
    rfl
  · refine ⟨_, ?_, rfl, fun fault => ChangeLog.updates_eq_error_iff, get?_after_drain ha ho⟩
    rw [reply, ha, Option.bind_some, act, get?_after actions hn, ho]
    rfl

/-- A log behind three handles and another one: a drain through the first handle finds what was
recorded through the other two, and fails; the next one delivers what was recorded since. -/
theorem drains_deliver_once_overflow :
    let actions : List (LogAction Nat Nat) := [.new, .clone 0, .new,
      .record 1 ⟨0, 1, ⟨7, 5⟩, Int64.maxValue⟩, .clone 1, .record 2 ⟨0, 1, ⟨7, 5⟩, 1⟩,
      .record 3 ⟨0, 1, ⟨7, 5⟩, 1⟩, .drain 0, .record 0 ⟨0, 1, ⟨8, 1⟩, 1⟩, .drain 3]
    originals actions 7 = [0, 0, 2, 0] ∧
    (List.range 4).map (fun handle => ((after actions 7).get? handle).map ChangeLog.pending) =
      [some 2, some 2, some 1, some 2] ∧
    reply actions 7 = some (.error .addOverflow) ∧
    (∀ other, (after actions 8).get? other =
      if (originals actions 7)[other]? = some 0 then some .empty
      else (after actions 7).get? other) ∧
    reply actions 9 = some (.ok [⟨1, .add, ⟨8, 1⟩⟩]) := by
  intro actions
  obtain ⟨hpending, -, hdrain⟩ := drains_deliver_once actions (show 7 ≤ actions.length by decide)
  obtain ⟨result, hreply, -, hfault, hleft⟩ := hdrain 0 0 rfl rfl
  have hoverflow : result = .error .addOverflow := (hfault _).2 (.inl ⟨rfl, by decide +kernel⟩)
  refine ⟨rfl, ?_, hoverflow ▸ hreply, hleft, ?_⟩
  · simp only [hpending]
    rfl
  · obtain ⟨-, -, hdrain⟩ := drains_deliver_once actions (show 9 ≤ actions.length by decide)
    obtain ⟨result, hreply, hresult, -⟩ := hdrain 3 0 rfl rfl
    rw [hreply, hresult]
    cbv

end LogPool

end TopCharts
