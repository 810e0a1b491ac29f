import TopCharts.Proofs.Chart.Codec
import TopCharts.Proofs.Store.View

/-!
# The charts of a store do not touch

* `StoreCall`, `Store.call`, `Store.calls` : the changes of a store, one and in turn; `reaches` and
  `effect` : the keys that a call is about, and what it does to their charts;
* `Store.get?_call` : a call has its effect on the keys it reaches and none on the others;
  `Store.get?_calls` : so the chart of a key only takes the calls that reach it, in their order;
* `Store.ext_get?` : a store is determined by its charts; `Store.sound_calls` : the charts that
  calls lead to are sound;
* `Store.independent_charts` : what a key shows is a matter of its own updates, in whatever way they
  alternate with those of other keys.
-/

namespace TopCharts

open Std (ExtTreeMap TransOrd LawfulEqOrd)

inductive StoreCall (κ : Type) where
  | apply (key : κ) (change : Change) (e : Entry)
  | replace (key : κ) (old new : Option Entry)
  | restore (key : κ) (bytes : Option (List UInt8))
  | drop (key : κ)
  | retain (keep : κ → Bool)

variable {κ : Type} {k : Nat}

namespace StoreCall

/-- The call names the key, or it is one that the call drops. -/
def reaches [DecidableEq κ] : StoreCall κ → κ → Bool
  | apply key _ _, a => key = a
  | replace key _ _, a => key = a
  | restore key _, a => key = a
  | drop key, a => key = a
  | retain keep, a => !keep a

def effect : StoreCall κ → Option (Chart k) → Option (Chart k)
  | apply _ change e, c => some ((c.getD .empty).update change e)
  | replace _ none none, c => c
  | replace _ old new, c => some ((c.getD .empty).replace old new).2
  | restore _ bytes, c =>
    match Chart.decode bytes with
    | .ok restored => restored
    | .error _ => c
  | drop _, _ => none
  | retain _, _ => none

end StoreCall

namespace Store

variable [Ord κ] [TransOrd κ]

/-- The store after a call. Bytes that cannot be decoded are refused, and the store stays. -/
def call (s : Store κ k) : StoreCall κ → Store κ k
  | .apply key change e => (s.apply key change e).2
  | .replace key old new => (s.applyChange key old new).2
  | .restore key bytes =>
    match s.restore key bytes with
    | .ok (_, s) => s
    | .error _ => s
  | .drop key => (s.dropKey key).2
  | .retain keep => (s.retain keep).2

def calls (s : Store κ k) (calls : List (StoreCall κ)) : Store κ k :=
  calls.foldl call s

variable [LawfulEqOrd κ]

theorem ext_get? {s t : Store κ k} (h : ∀ key, s.get? key = t.get? key) : s = t := by
  obtain ⟨charts⟩ := s
  obtain ⟨charts'⟩ := t
  congr 1
  exact ExtTreeMap.ext_getElem? h

variable [DecidableEq κ]

theorem get?_dropKey (s : Store κ k) (key a : κ) :
    (s.dropKey key).2.get? a = if key = a then none else s.get? a := by
  show (s.charts.erase key)[a]? = _
  rw [ExtTreeMap.getElem?_erase]
  simp only [LawfulEqOrd.compare_eq_iff_eq]
  rfl

theorem get?_applyChange (s : Store κ k) (key : κ) (old new : Option Entry) (a : κ) :
    (s.applyChange key old new).2.get? a =
      if key = a then (StoreCall.replace key old new).effect (s.get? a) else s.get? a := by
  cases old with
  | none =>
    cases new with
    | none => exact (ite_self _).symm
    | some new =>
      refine (get?_apply s key .add new a).trans (ite_congr rfl ?_ fun _ => rfl)
      rintro rfl
      rfl
  | some old =>
    cases new with
    | none =>
      refine (get?_apply s key .remove old a).trans (ite_congr rfl ?_ fun _ => rfl)
      rintro rfl
      rfl
    | some new =>
      change ((s.apply key .remove old).2.apply key .add new).2.get? a = _
      rw [get?_apply, chart_apply_self, get?_apply]
      split
      · rename_i hkey
        subst hkey
        rfl
      · rfl

theorem get?_restore (s : Store κ k) (key : κ) (bytes : Option (List UInt8)) (a : κ) :
    (s.call (.restore key bytes)).get? a =
      if key = a then (StoreCall.restore key bytes).effect (s.get? a) else s.get? a := by
  rw [call, restore, StoreCall.effect]
  cases Chart.decode (k := k) bytes with
  | error cause => exact (ite_self _).symm
  | ok restored =>
    cases restored with
    | some c =>
      show (s.charts.insert key c)[a]? = _
      rw [ExtTreeMap.getElem?_insert]
      simp only [LawfulEqOrd.compare_eq_iff_eq]
      rfl
    | none => exact get?_dropKey s key a

theorem get?_call (s : Store κ k) (call : StoreCall κ) (key : κ) :
    (s.call call).get? key = if call.reaches key then call.effect (s.get? key) else s.get? key := by
  cases call with
  | apply a change e =>
    simp only [StoreCall.reaches, decide_eq_true_iff]
    refine (get?_apply s a change e key).trans (ite_congr rfl ?_ fun _ => rfl)
    rintro rfl
    rfl
  | replace a old new =>
    simp only [StoreCall.reaches, decide_eq_true_iff]
    exact get?_applyChange s a old new key
  | restore a bytes =>
    simp only [StoreCall.reaches, decide_eq_true_iff]
    exact get?_restore s a bytes key
  | drop a =>
    simp only [StoreCall.reaches, decide_eq_true_iff]
    exact get?_dropKey s a key
  | retain keep =>
    refine (get?_retain s keep key).trans ?_
    rw [StoreCall.reaches]
    cases keep key with
    | true => rfl
    | false => rfl

/-- The chart of a key only takes the calls that reach it, in their order. -/
theorem get?_calls (s : Store κ k) (calls : List (StoreCall κ)) (key : κ) :
    (s.calls calls).get? key =
      (calls.filter (·.reaches key)).foldl (fun c call => call.effect c) (s.get? key) := by
  induction calls generalizing s with
  | nil => rfl
  | cons call calls ih =>
    refine (ih (s.call call)).trans ?_
    rw [get?_call, List.filter_cons]
    split
    · rfl
    · rfl

/-! ## Stores that calls lead to -/

omit [DecidableEq κ] [Ord κ] [TransOrd κ] [LawfulEqOrd κ] in
theorem sound_effect {c : Option (Chart k)} (h : (c.getD .empty).Sound) (call : StoreCall κ) :
    ((call.effect c).getD .empty).Sound := by
  cases call with
  | apply key change e => exact h.update change e
  | replace key old new =>
    have hreplace : ((c.getD .empty).replace old new).2.Sound := h.replace old new
    cases old with
    | none =>
      cases new with
      | none => exact h
      | some new => exact hreplace
    | some old => exact hreplace
  | restore key bytes =>
    rw [StoreCall.effect]
    cases hdecode : Chart.decode (k := k) bytes with
    | error cause => exact h
    | ok restored =>
      cases restored with
      | none => exact Chart.sound_empty
      | some restored => exact Chart.sound_of_decode hdecode
  | drop key => exact Chart.sound_empty
  | retain keep => exact Chart.sound_empty

theorem Sound.call {s : Store κ k} (h : s.Sound) (call : StoreCall κ) : (s.call call).Sound := by
  intro key
  rw [chart, get?_call]
  split
  · exact sound_effect (h key) call
  · exact h key

theorem sound_calls (calls : List (StoreCall κ)) : ((empty : Store κ k).calls calls).Sound :=
  List.foldlRecOn calls _ sound_empty fun _ h call _ => h.call call

end Store

/-- **The charts of a store are independent.** From the empty store on, a key has a chart once it is
addressed, and it is the one that the updates to the key alone lead to. So updates that are the same
for every key leave the same store, in whatever order the keys take turns, and no call alters the
chart of a key that it does not reach. -/
theorem Store.independent_charts [Ord κ] [TransOrd κ] [LawfulEqOrd κ] [DecidableEq κ] (k : Nat) :
    (∀ (us : List (Update κ)) (key : κ), ((empty : Store κ k).applyAll us).2.get? key =
      if ∃ u ∈ us, u.key = key then some (Chart.empty.updates (addressed key us)) else none) ∧
    (∀ (s : Store κ k) (us vs : List (Update κ)), (∀ key, addressed key us = addressed key vs) →
      (s.applyAll us).2 = (s.applyAll vs).2) ∧
    ∀ (s : Store κ k) (calls : List (StoreCall κ)) (key : κ),
      (∀ call ∈ calls, ¬ call.reaches key) → (s.calls calls).get? key = s.get? key := by
  refine ⟨?_, ?_, ?_⟩
  · intro us key
    refine (get?_applyEach empty us key).trans ?_
    rw [get?_empty, chart_empty]
  · intro s us vs hsame
    apply ext_get?
    intro key
    have haddressed : (∃ u ∈ us, u.key = key) ↔ ∃ v ∈ vs, v.key = key := by
      rw [← not_iff_not, ← addressed_eq_nil, ← addressed_eq_nil, hsame]
    refine (get?_applyEach s us key).trans (Eq.trans ?_ (get?_applyEach s vs key).symm)
    rw [hsame]
    exact ite_congr (propext haddressed) (fun _ => rfl) fun _ => rfl
  · intro s calls key hcalls
    have hnone : calls.filter (·.reaches key) = [] :=
      List.filter_eq_nil_iff.2 hcalls
    rw [get?_calls, hnone, List.foldl_nil]

/-- Two keys take turns in charts of one place, and then one of them is dropped. -/
theorem Store.independent_charts_interleaved :
    let us : List (Update Nat) := [⟨1, .add, ⟨7, 30⟩⟩, ⟨2, .add, ⟨7, 10⟩⟩, ⟨1, .add, ⟨8, 20⟩⟩,
      ⟨2, .add, ⟨8, 40⟩⟩, ⟨1, .remove, ⟨7, 30⟩⟩]
    let vs : List (Update Nat) := [⟨2, .add, ⟨7, 10⟩⟩, ⟨2, .add, ⟨8, 40⟩⟩, ⟨1, .add, ⟨7, 30⟩⟩,
      ⟨1, .add, ⟨8, 20⟩⟩, ⟨1, .remove, ⟨7, 30⟩⟩]
    let calls : List (StoreCall Nat) := [.replace 3 (some ⟨7, 30⟩) (some ⟨7, 50⟩), .drop 2,
      .restore 4 (some [0]), .retain fun key => key ≤ 2]
    let s : Store Nat 1 := (empty.applyAll us).2
    s.get? 1 = some (Chart.empty.updates (addressed 1 us)) ∧ s.get? 3 = none ∧
      s = (empty.applyAll vs).2 ∧ (s.calls calls).get? 1 = s.get? 1 := by
  intro us vs calls s
  obtain ⟨hcharts, hsame, hcalls⟩ := independent_charts (κ := Nat) 1
  refine ⟨?_, ?_, ?_, ?_⟩
  · exact (hcharts us 1).trans (if_pos ⟨_, List.mem_cons_self, rfl⟩)
  · exact (hcharts us 3).trans (if_neg (by decide))
  · apply hsame empty us vs
    intro key
    by_cases h1 : 1 = key
    · subst h1
      rfl
    · by_cases h2 : 2 = key
      · subst h2
        rfl
      · simp [addressed, us, vs, h1, h2]
  · exact hcalls s calls 1 (by decide)

end TopCharts
