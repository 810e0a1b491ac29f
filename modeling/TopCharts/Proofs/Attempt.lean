import TopCharts.Attempt

/-!
# Attempts, and attempts over lists

* `Attempt.Meets x W P` : the attempt `x` succeeds if `W` holds, and its result satisfies `P`. With
  `False` for `W` this says what a success leaves, and nothing about when there is one;
* `Meets.bind`, `Meets.foldlM` : attempts in sequence and over a list, from what each of them meets;
  `exists_of_foldlM_eq_error` : which of them is refused;
* `mapM_eq_ok`, `exists_mapM_eq_ok`, `getElem?_of_mapM_eq_ok` : a list is worked off if each of its
  elements is, with the results position by position; `exists_of_mapM_eq_error` : else it is refused
  for the reason of one of them.
-/

namespace TopCharts

open Attempt

/-- The attempt succeeds if `W` holds, and its result satisfies `P`. -/
structure Attempt.Meets {ε α : Type} (x : Except ε α) (W : Prop) (P : α → Prop) : Prop where
  succeeds : W → ∃ a, x = .ok a
  result : ∀ a, x = .ok a → P a

namespace Attempt

variable {ε α β σ : Type}

theorem Meets.ok {W : Prop} {P : α → Prop} {a : α} (h : P a) :
    Meets (.ok a : Except ε α) W P where
  succeeds _ := ⟨a, rfl⟩
  result _ hb := Except.ok.inj hb ▸ h

theorem Meets.imp {x : Except ε α} {V W : Prop} {P Q : α → Prop} (h : Meets x V P) (hV : W → V)
    (hP : ∀ a, P a → Q a) : Meets x W Q where
  succeeds hW := h.succeeds (hV hW)
  result a ha := hP a (h.result a ha)

theorem Meets.of_map {x : Except ε α} {y : Except ε β} {f : α → β} {W : Prop} {P : β → Prop}
    (hxy : x.map f = y) (hy : Meets y W P) : Meets x W fun a => P (f a) where
  succeeds hW := by
    obtain ⟨b, hb⟩ := hy.succeeds hW
    cases x with
    | ok a => exact ⟨a, rfl⟩
    | error e => exact nomatch hxy.trans hb
  result a ha := by
    subst ha
    exact hy.result (f a) hxy.symm

theorem Meets.bind {x : Except ε α} {f : α → Except ε β} {V W : Prop} {P : α → Prop}
    {Q : β → Prop} (hx : Meets x V P) (hV : W → V) (hf : ∀ a, P a → Meets (f a) W Q) :
    Meets (x >>= f) W Q where
  succeeds hW := by
    obtain ⟨a, ha⟩ := hx.succeeds (hV hW)
    obtain ⟨b, hb⟩ := (hf a (hx.result a ha)).succeeds hW
    exact ⟨b, bind_eq_ok.2 ⟨a, ha, hb⟩⟩
  result b hb := by
    obtain ⟨a, ha, hb⟩ := bind_eq_ok.1 hb
    exact (hf a (hx.result a ha)).result b hb

/-- A list that is worked off, from what each element meets after those before it. -/
theorem Meets.foldlM {l : List α} {step : σ → α → Except ε σ} {W : List α → Prop}
    {P : List α → σ → Prop} (hmono : ∀ before more, W (before ++ more) → W before)
    (hstep : ∀ before, ∀ a ∈ l, ∀ s, P before s →
      Meets (step s a) (W (before ++ [a])) (P (before ++ [a])))
    {before : List α} {s : σ} (hs : P before s) :
    Meets (l.foldlM step s) (W (before ++ l)) (P (before ++ l)) := by
  induction l generalizing before s with
  | nil =>
    rw [List.append_nil]
    exact .ok hs
  | cons a l ih =>
    rw [List.foldlM_cons, List.append_cons]
    refine (hstep before a List.mem_cons_self s hs).bind (hmono _ l) fun s hs => ?_
    exact ih (fun before b hb => hstep before b (List.mem_cons_of_mem a hb)) hs

/-- The reason why a list is not worked off is that of the first step that is refused. -/
theorem exists_of_foldlM_eq_error {l : List α} {step : σ → α → Except ε σ} {s : σ} {e : ε}
    (h : l.foldlM step s = .error e) :
    ∃ front a s', front ++ [a] <+: l ∧ front.foldlM step s = .ok s' ∧ step s' a = .error e := by
  induction l generalizing s with
  | nil => cases h
  | cons b l ih =>
    rw [List.foldlM_cons] at h
    rcases bind_eq_error.1 h with h | ⟨s₁, hb, h⟩
    · exact ⟨[], b, s, ⟨l, rfl⟩, rfl, h⟩
    · obtain ⟨front, a, s₂, hprefix, hfront, ha⟩ := ih h
      refine ⟨b :: front, a, s₂, (List.prefix_cons_inj b).2 hprefix, ?_, ha⟩
      rw [List.foldlM_cons]
      exact bind_eq_ok.2 ⟨s₁, hb, hfront⟩

theorem mapM_eq_ok {l : List α} {f : α → Except ε β} {g : α → β}
    (h : ∀ a ∈ l, f a = .ok (g a)) : l.mapM f = .ok (l.map g) := by
  induction l with
  | nil => rfl
  | cons a l ih =>
    rw [List.mapM_cons, h a List.mem_cons_self, List.map_cons]
    exact bind_eq_ok.2 ⟨g a, rfl, bind_eq_ok.2
      ⟨l.map g, ih fun b hb => h b (List.mem_cons_of_mem a hb), rfl⟩⟩

theorem exists_mapM_eq_ok {l : List α} {f : α → Except ε β} (h : ∀ a ∈ l, ∃ b, f a = .ok b) :
    ∃ bs, l.mapM f = .ok bs := by
  induction l with
  | nil => exact ⟨[], rfl⟩
  | cons a l ih =>
    obtain ⟨b, hb⟩ := h a List.mem_cons_self
    obtain ⟨bs, hbs⟩ := ih fun a ha => h a (List.mem_cons_of_mem _ ha)
    rw [List.mapM_cons]
    exact ⟨b :: bs, bind_eq_ok.2 ⟨b, hb, bind_eq_ok.2 ⟨bs, hbs, rfl⟩⟩⟩

theorem exists_of_mapM_eq_ok {l : List α} {f : α → Except ε β} {bs : List β}
    (h : l.mapM f = .ok bs) : ∀ a ∈ l, ∃ b, f a = .ok b := by
  induction l generalizing bs with
  | nil => exact fun a ha => absurd ha List.not_mem_nil
  | cons a l ih =>
    rw [List.mapM_cons] at h
    obtain ⟨b, hb, h⟩ := bind_eq_ok.1 h
    obtain ⟨bs', hbs, -⟩ := bind_eq_ok.1 h
    intro x hx
    rcases List.mem_cons.1 hx with rfl | hx
    · exact ⟨b, hb⟩
    · exact ih hbs x hx

theorem exists_of_mapM_eq_error {l : List α} {f : α → Except ε β} {e : ε}
    (h : l.mapM f = .error e) : ∃ a ∈ l, f a = .error e := by
  induction l with
  | nil => cases h
  | cons a l ih =>
    rw [List.mapM_cons] at h
    rcases bind_eq_error.1 h with h | ⟨b, -, h⟩
    · exact ⟨a, List.mem_cons_self, h⟩
    · rcases bind_eq_error.1 h with h | ⟨bs, -, h⟩
      · obtain ⟨x, hx, hxe⟩ := ih h
        exact ⟨x, List.mem_cons_of_mem a hx, hxe⟩
      · cases h

theorem getElem?_of_mapM_eq_ok {l : List α} {f : α → Except ε β} {bs : List β}
    (h : l.mapM f = .ok bs) : bs.length = l.length ∧
      ∀ (i : Nat) (b : β), bs[i]? = some b → ∃ a, l[i]? = some a ∧ f a = .ok b := by
  induction l generalizing bs with
  | nil =>
    cases pure_eq_ok.1 h
    exact ⟨rfl, fun i b hb => absurd hb (by simp)⟩
  | cons a l ih =>
    rw [List.mapM_cons] at h
    obtain ⟨b, hb, h⟩ := bind_eq_ok.1 h
    obtain ⟨bs', hbs, h⟩ := bind_eq_ok.1 h
    cases pure_eq_ok.1 h
    obtain ⟨hlength, hget⟩ := ih hbs
    refine ⟨congrArg Nat.succ hlength, fun i b' hb' => ?_⟩
    cases i with
    | zero =>
      cases hb'
      exact ⟨a, rfl, hb⟩
    | succ i => exact hget i b' hb'

end Attempt

end TopCharts
