import TopCharts.Arrangement.Layers
import TopCharts.Proofs.Arrangement.Merging

/-!
# Layers lose nothing

* `Layer.total`, `runTotal` : the sums over the records of a layer and of a run that may be there;
* `Holds layers content` : all merges in some layers are sound, and their sums are `content`;
* each step keeps the sums: a run that is received or placed adds its own (`Holds.place`), and runs
  that are merged, move up, or are lowered change nothing (`Holds.workOn`, `Holds.clear`,
  `Holds.tidy`);
* `Sound.add` : so layers to which a run is added hold what they held, and the run.
-/

namespace TopCharts

open Attempt
open Std (TransOrd LawfulEqOrd)

variable {α κ : Type}

/-! ## One layer -/

def runTotal (run : Option (Run α)) (f : α → Int) : Int :=
  match run with
  | some run => recorded run.rows f
  | none => 0

namespace Layer

def total (f : α → Int) : Layer α → Int
  | vacant => 0
  | single run => recorded run.rows f
  | merging m => recorded m.older.rows f + recorded m.newer.rows f

def Sound : Layer α → Prop
  | merging m => m.Sound
  | _ => True

theorem sound_vacant : (vacant : Layer α).Sound :=
  trivial

theorem sound_single (run : Run α) : (single run).Sound :=
  trivial

theorem recorded_runs (layer : Layer α) (f : α → Int) :
    recorded (layer.runs.flatMap Collection.rows) f = layer.total f := by
  cases layer with
  | vacant => rfl
  | single run =>
    show recorded (run.rows ++ []) f = _
    rw [List.append_nil]
    rfl
  | merging m =>
    show recorded (m.older.rows ++ (m.newer.rows ++ [])) f = _
    rw [List.append_nil, recorded_append]
    rfl

section

variable [Ord κ] [ArrangedBy α κ] {layer : Layer α}

theorem Sound.receive (h : layer.Sound) (horizon : Horizon) (run : Run α) :
    (layer.receive horizon run).Sound := by
  cases layer with
  | vacant => trivial
  | single older => exact Merge.sound_begin horizon older run
  | merging m => exact Merge.Sound.extend h run

theorem total_receive (horizon : Horizon) (run : Run α) (layer : Layer α) (f : α → Int) :
    (layer.receive horizon run).total f = layer.total f + recorded run.rows f := by
  cases layer with
  | vacant => exact (zero_add _).symm
  | single older => rfl
  | merging m =>
    show recorded m.older.rows f + recorded (m.newer.rows ++ run.rows) f = _
    rw [recorded_append, ← add_assoc]
    rfl

/-- A layer that gets a run, if there is one. -/
def receive? (horizon : Horizon) (run : Option (Run α)) (layer : Layer α) : Layer α :=
  match run with
  | some run => layer.receive horizon run
  | none => layer

theorem Sound.receive? (h : layer.Sound) (horizon : Horizon) (run : Option (Run α)) :
    (layer.receive? horizon run).Sound := by
  cases run with
  | some run => exact h.receive horizon run
  | none => exact h

theorem total_receive? (horizon : Horizon) (run : Option (Run α)) (layer : Layer α)
    (f : α → Int) : (layer.receive? horizon run).total f = layer.total f + runTotal run f := by
  cases run with
  | some run => exact total_receive horizon run layer f
  | none => exact (add_zero _).symm

end

variable [Ord α] [TransOrd α] [LawfulEqOrd α] [DecidableEq α] {layer layer' : Layer α}

theorem Sound.work (h : layer.Sound) {effort : Nat} {risen : Option (Run α)}
    (hwork : layer.work effort = .ok (layer', risen)) :
    layer'.Sound ∧ ∀ f, layer'.total f + runTotal risen f = layer.total f := by
  cases layer with
  | vacant =>
    cases hwork
    exact ⟨trivial, fun f => rfl⟩
  | single run =>
    cases hwork
    exact ⟨trivial, fun f => add_zero _⟩
  | merging m =>
    obtain ⟨result, hresult, hwork⟩ := bind_eq_ok.1 hwork
    have hmerge := Merge.Sound.work h hresult
    cases result with
    | inl m' =>
      obtain ⟨hsound, holder, hnewer⟩ := hmerge
      cases hwork
      refine ⟨hsound, fun f => ?_⟩
      show recorded m'.older.rows f + recorded m'.newer.rows f + 0 = _
      rw [holder, hnewer, add_zero]
      rfl
    | inr run =>
      cases hwork
      exact ⟨trivial, fun f => (zero_add _).trans (hmerge f)⟩

theorem Sound.finish (h : layer.Sound) {run : Option (Run α)} (hfinish : layer.finish = .ok run)
    (f : α → Int) : runTotal run f = layer.total f := by
  cases layer with
  | vacant =>
    cases hfinish
    rfl
  | single run =>
    cases hfinish
    rfl
  | merging m =>
    obtain ⟨merged, hmerged, hfinish⟩ := bind_eq_ok.1 hfinish
    cases hfinish
    exact Merge.Sound.finish h hmerged f

end Layer

/-! ## Lists of layers -/

namespace Layers

/-- All merges in the layers are sound, and their sums are these. -/
structure Holds (layers : List (Layer α)) (content : (α → Int) → Int) : Prop where
  sound : ∀ layer ∈ layers, layer.Sound
  total : ∀ f, (layers.map (Layer.total f)).sum = content f

variable {layers : List (Layer α)} {content : (α → Int) → Int}

theorem Holds.congr (h : Holds layers content) {content' : (α → Int) → Int}
    (heq : ∀ f, content f = content' f) : Holds layers content' :=
  ⟨h.sound, fun f => (h.total f).trans (heq f)⟩

theorem holds_nil : Holds ([] : List (Layer α)) fun _ => 0 :=
  ⟨fun _ h => absurd h List.not_mem_nil, fun _ => rfl⟩

theorem Holds.cons (h : Holds layers content) {layer : Layer α} (hlayer : layer.Sound) :
    Holds (layer :: layers) fun f => layer.total f + content f where
  sound a ha := by
    rcases List.mem_cons.1 ha with rfl | ha
    · exact hlayer
    · exact h.sound a ha
  total f := by rw [List.map_cons, List.sum_cons, h.total]

theorem Holds.uncons {layer : Layer α} (h : Holds (layer :: layers) content) :
    layer.Sound ∧ Holds layers fun f => content f - layer.total f := by
  refine ⟨h.sound layer List.mem_cons_self,
    fun a ha => h.sound a (List.mem_cons_of_mem layer ha), fun f => ?_⟩
  have htotal := h.total f
  rw [List.map_cons, List.sum_cons] at htotal
  omega

theorem Holds.perm (h : Holds layers content) {layers' : List (Layer α)}
    (hperm : layers'.Perm layers) : Holds layers' content where
  sound a ha := h.sound a (hperm.mem_iff.1 ha)
  total f := by rw [(hperm.map (Layer.total f)).sum_eq, h.total]

theorem Holds.append (h : Holds layers content) {more : List (Layer α)}
    {content' : (α → Int) → Int} (hmore : Holds more content') :
    Holds (layers ++ more) fun f => content f + content' f where
  sound a ha := (List.mem_append.1 ha).elim (h.sound a) (hmore.sound a)
  total f := by rw [List.map_append, List.sum_append, h.total, hmore.total]

theorem Holds.set (h : Holds layers content) {index : Nat} {layer layer' : Layer α}
    (hlayer : layers[index]? = some layer) (hsound : layer'.Sound) :
    Holds (layers.set index layer') fun f => content f - layer.total f + layer'.total f := by
  induction layers generalizing index content with
  | nil => cases hlayer
  | cons first layers ih =>
    obtain ⟨hfirst, hlayers⟩ := h.uncons
    cases index with
    | zero =>
      cases hlayer
      refine (hlayers.cons hsound).congr fun f => ?_
      omega
    | succ index =>
      refine ((ih hlayers hlayer).cons hfirst).congr fun f => ?_
      omega

theorem Holds.exists_split (h : Holds layers content) (index : Nat) :
    ∃ lower upper : (α → Int) → Int, Holds (layers.take index) lower ∧
      Holds (layers.drop index) upper ∧ ∀ f, lower f + upper f = content f := by
  refine ⟨_, _, ⟨fun a ha => h.sound a (List.mem_of_mem_take ha), fun f => rfl⟩,
    ⟨fun a ha => h.sound a (List.mem_of_mem_drop ha), fun f => rfl⟩, fun f => ?_⟩
  rw [← List.sum_append, ← List.map_append, List.take_append_drop, h.total]

theorem holds_replicate_vacant (n : Nat) :
    Holds (List.replicate n (.vacant : Layer α)) fun _ => 0 := by
  induction n with
  | zero => exact holds_nil
  | succ n ih => exact (ih.cons Layer.sound_vacant).congr fun _ => rfl

section

variable [Ord κ] [ArrangedBy α κ]

theorem Holds.place (h : Holds layers content) (horizon : Horizon) (run : Run α) (index : Nat) :
    Holds (place horizon run index layers) fun f => content f + recorded run.rows f := by
  induction index generalizing layers content with
  | zero =>
    cases layers with
    | nil =>
      refine (holds_nil.cons (Layer.sound_single run)).congr fun f => ?_
      rw [← h.total f, List.map_nil, List.sum_nil]
      exact add_comm _ _
    | cons layer layers =>
      obtain ⟨hlayer, hlayers⟩ := h.uncons
      refine (hlayers.cons (hlayer.receive horizon run)).congr fun f => ?_
      rw [Layer.total_receive]
      omega
  | succ index ih =>
    cases layers with
    | nil =>
      refine ((ih h).cons Layer.sound_vacant).congr fun f => ?_
      exact zero_add _
    | cons layer layers =>
      obtain ⟨hlayer, hlayers⟩ := h.uncons
      refine ((ih hlayers).cons hlayer).congr fun f => ?_
      omega

theorem Holds.lower (h : Holds layers content) (horizon : Horizon) (run : Run α) :
    Holds (lower horizon run layers) fun f => recorded run.rows f + content f := by
  induction layers generalizing content with
  | nil => exact h.cons (Layer.sound_single run)
  | cons layer layers ih =>
    cases layer with
    | vacant =>
      rw [Layers.lower]
      split
      · obtain ⟨-, hlayers⟩ := h.uncons
        exact (ih hlayers).congr fun f => congrArg (recorded run.rows f + ·) (sub_zero _)
      · exact h.cons (Layer.sound_single run)
    | single newer =>
      rw [Layers.lower]
      split
      · obtain ⟨-, hlayers⟩ := h.uncons
        have hmerging : (Layer.merging (.begin horizon run newer)).Sound :=
          Merge.sound_begin horizon run newer
        refine (hlayers.cons hmerging).congr ?_
        intro f
        show recorded run.rows f + recorded newer.rows f + (content f - recorded newer.rows f) = _
        omega
      · exact h.cons (Layer.sound_single run)
    | merging m => exact h.cons (Layer.sound_single run)

theorem Holds.tidy (h : Holds layers content) (horizon : Horizon) :
    Holds (tidy horizon layers) content := by
  have hreverse : Holds layers.reverse content := h.perm layers.reverse_perm
  rw [Layers.tidy]
  split
  · rename_i run rest heq
    rw [heq] at hreverse
    obtain ⟨-, hrest⟩ := hreverse.uncons
    refine ((hrest.lower horizon run).perm (List.reverse_perm _)).congr fun f => ?_
    show recorded run.rows f + (content f - recorded run.rows f) = content f
    omega
  · exact h

variable [Ord α] [TransOrd α] [LawfulEqOrd α] [DecidableEq α]

theorem Holds.workOn (h : Holds layers content) {horizon : Horizon} {effort : Nat}
    {risen : Option (Run α)} {layers' : List (Layer α)}
    (hwork : workOn horizon effort risen layers = .ok layers') :
    Holds layers' fun f => content f + runTotal risen f := by
  induction layers generalizing content risen layers' with
  | nil =>
    cases risen with
    | none =>
      cases hwork
      exact h.congr fun f => (add_zero _).symm
    | some run =>
      cases hwork
      refine (h.cons (Layer.sound_single run)).congr fun f => ?_
      exact add_comm _ _
  | cons layer layers ih =>
    obtain ⟨hlayer, hlayers⟩ := h.uncons
    have hstep : Layers.workOn horizon effort risen (layer :: layers) =
        (layer.receive? horizon risen).work effort >>= fun worked => do
          return worked.1 :: (← Layers.workOn horizon effort worked.2 layers) := by
      cases risen <;> rfl
    rw [hstep] at hwork
    obtain ⟨⟨layer₁, risen₁⟩, hwork₁, hwork⟩ := bind_eq_ok.1 hwork
    obtain ⟨layers₁, hwork₂, hwork⟩ := bind_eq_ok.1 hwork
    cases hwork
    obtain ⟨hsound, htotal⟩ := (hlayer.receive? horizon risen).work hwork₁
    refine ((ih hlayers hwork₂).cons hsound).congr fun f => ?_
    have htotal : layer₁.total f + runTotal risen₁ f = layer.total f + runTotal risen f := by
      rw [htotal, Layer.total_receive?]
    show layer₁.total f + (content f - layer.total f + runTotal risen₁ f) = _
    omega

/-- Layers that are united hand up all their records, with those of the newer run. -/
theorem Holds.unite (h : Holds layers content) {horizon : Horizon} {newer united : Option (Run α)}
    (hunite : unite horizon layers newer = .ok united) (f : α → Int) :
    runTotal united f = content f + runTotal newer f := by
  induction layers generalizing content newer with
  | nil =>
    cases hunite
    rw [← h.total f]
    exact (zero_add _).symm
  | cons layer layers ih =>
    obtain ⟨hlayer, hlayers⟩ := h.uncons
    have hstep : Layers.unite horizon (layer :: layers) newer =
        (layer.receive? horizon newer).finish >>= fun newer =>
          Layers.unite horizon layers newer := by
      cases newer <;> rfl
    rw [hstep] at hunite
    obtain ⟨newer₁, hfinish, hunite⟩ := bind_eq_ok.1 hunite
    have htotal := (hlayer.receive? horizon newer).finish hfinish f
    rw [Layer.total_receive?] at htotal
    have hrest := ih hlayers hunite
    omega

theorem Holds.clear (h : Holds layers content) {horizon : Horizon} {index : Nat}
    {layers' : List (Layer α)} (hclear : clear horizon index layers = .ok layers') :
    Holds layers' content := by
  obtain ⟨lower, upper, hlower, hupper, hsplit⟩ := h.exists_split index
  obtain ⟨united, hunite, hclear⟩ := bind_eq_ok.1 hclear
  cases united with
  | none =>
    cases hclear
    exact h
  | some run =>
    have hrun := hlower.unite hunite
    have hplaced : Holds (Layers.place horizon run index
        (.replicate index .vacant ++ layers.drop index)) content := by
      refine (((holds_replicate_vacant index).append hupper).place horizon run index).congr ?_
      intro f
      have hrun : recorded run.rows f = lower f + 0 := hrun f
      have hsplit := hsplit f
      omega
    dsimp only at hclear
    split at hclear
    · rename_i m hm
      obtain ⟨merged, hmerged, hclear⟩ := bind_eq_ok.1 hclear
      cases hclear
      have hmerge : m.Sound := hplaced.sound _ (List.mem_of_getElem? hm)
      refine ((hplaced.set hm Layer.sound_vacant).place horizon merged (index + 1)).congr ?_
      intro f
      have hmerged := hmerge.finish hmerged f
      have htotal : Layer.total f (.merging m) =
          recorded m.older.rows f + recorded m.newer.rows f := rfl
      have hvacant : Layer.total f (.vacant : Layer α) = 0 := rfl
      omega
    · cases hclear
      exact hplaced

def total (l : Layers α) (f : α → Int) : Int :=
  recorded (l.runs.flatMap Collection.rows) f

omit [Ord κ] [ArrangedBy α κ] [Ord α] [TransOrd α] [LawfulEqOrd α] [DecidableEq α] in
theorem sum_total (l : Layers α) (f : α → Int) :
    (l.layers.map (Layer.total f)).sum = l.total f := by
  have hruns (layers : List (Layer α)) :
      recorded ((layers.flatMap Layer.runs).flatMap Collection.rows) f =
        (layers.map (Layer.total f)).sum := by
    induction layers with
    | nil => rfl
    | cons layer layers ih =>
      rw [List.flatMap_cons, List.flatMap_append, recorded_append, ih, Layer.recorded_runs,
        List.map_cons, List.sum_cons]
  rw [total, runs, hruns, (l.layers.reverse_perm.map _).sum_eq]

def Sound (l : Layers α) : Prop :=
  ∀ layer ∈ l.layers, layer.Sound

/-- **A run that is added to sound layers joins what they hold.** -/
theorem Sound.add {l l' : Layers α} (h : l.Sound) {horizon : Horizon} {run : Run α}
    (hadd : l.add horizon run = .ok l') :
    l'.Sound ∧ ∀ f, l'.total f = l.total f + recorded run.rows f := by
  have hholds : Holds l.layers l.total := ⟨h, l.sum_total⟩
  rw [Layers.add] at hadd
  split at hadd
  · rename_i hempty
    cases hadd
    have hrows : run.rows = [] := List.isEmpty_iff.1 (Bool.and_eq_true_iff.1 hempty).1
    refine ⟨h, fun f => ?_⟩
    rw [hrows, recorded_nil, add_zero]
  · obtain ⟨layers₁, hwork, hadd⟩ := bind_eq_ok.1 hadd
    obtain ⟨layers₂, hclear, hadd⟩ := bind_eq_ok.1 hadd
    cases hadd
    have hadded := ((((hholds.workOn hwork).clear hclear).place horizon run
      (level run.rows.length)).tidy horizon)
    refine ⟨hadded.sound, fun f => ?_⟩
    rw [← sum_total, hadded.total]
    exact congrArg (· + recorded run.rows f) (add_zero _)

end

end Layers

end TopCharts
