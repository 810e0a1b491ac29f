import TopCharts.Proofs.ChangeLog.Times

/-!
# Drains, entry by entry

A feed of a table has one entry at most for an identity under a key. It takes the old entry back
before it delivers the new one.

* `about key id us` : the updates about an identity under a key;
* `standing key id us` : the entry that they leave: the one that was added last, unless it has been
  taken back since;
* `turnover key old new` : the updates that put one entry in the place of another;
* `Delivers.about_eq` : updates that deliver the difference of two entries are a turnover, and the
  new entry is left standing after them (`standing_append`).
-/

namespace TopCharts

open Std (TransOrd)

variable {κ : Type} {key : κ} {id : Int64} {old new : Option Entry}

/-- The updates that put one entry in the place of another. -/
def turnover (key : κ) (old new : Option Entry) : List (Update κ) :=
  if old = new then [] else
    (old.map fun e => ⟨key, .remove, e⟩).toList ++ (new.map fun e => ⟨key, .add, e⟩).toList

theorem mem_turnover {u : Update κ} : u ∈ turnover key old new ↔ u.key = key ∧
    (u.change = .remove ∧ old = some u.entry ∧ new ≠ some u.entry ∨
      u.change = .add ∧ new = some u.entry ∧ old ≠ some u.entry) := by
  obtain ⟨ukey, change, e⟩ := u
  rw [turnover]
  split
  · rename_i heq
    subst heq
    refine iff_of_false List.not_mem_nil ?_
    rintro ⟨-, ⟨-, hold, hnew⟩ | ⟨-, hold, hnew⟩⟩ <;> exact hnew hold
  · rename_i hne
    simp only [List.mem_append, Option.mem_toList, Option.map_eq_some_iff, Update.mk.injEq]
    constructor
    · rintro (⟨_, hold, rfl, rfl, rfl⟩ | ⟨_, hnew, rfl, rfl, rfl⟩)
      · exact ⟨rfl, .inl ⟨rfl, hold, fun hnew => hne (hold.trans hnew.symm)⟩⟩
      · exact ⟨rfl, .inr ⟨rfl, hnew, fun hold => hne (hold.trans hnew.symm)⟩⟩
    · rintro ⟨rfl, ⟨rfl, hold, -⟩ | ⟨rfl, hnew, -⟩⟩
      · exact .inl ⟨e, hold, rfl, rfl, rfl⟩
      · exact .inr ⟨e, hnew, rfl, rfl, rfl⟩

theorem pairwise_turnover [Ord κ] [TransOrd κ] (key : κ) (old new : Option Entry) :
    (turnover key old new).Pairwise fun u v => compare u v = .lt := by
  have hsingle (change : Change) (o : Option Entry) :
      (o.map fun e => (⟨key, change, e⟩ : Update κ)).toList.Pairwise
        fun u v => compare u v = .lt := by
    cases o with
    | none => exact .nil
    | some e => exact List.pairwise_singleton _ _
  rw [turnover]
  split
  · exact .nil
  · refine List.pairwise_append.2 ⟨hsingle .remove old, hsingle .add new, ?_⟩
    intro u hu v hv
    obtain ⟨a, -, rfl⟩ := Option.map_eq_some_iff.1 (Option.mem_toList.1 hu)
    obtain ⟨b, -, rfl⟩ := Option.map_eq_some_iff.1 (Option.mem_toList.1 hv)
    show (compare key key).then _ = .lt
    rw [Std.ReflOrd.compare_self]
    rfl

variable [DecidableEq κ]

def about (key : κ) (id : Int64) (us : List (Update κ)) : List (Update κ) :=
  us.filter fun u => u.key = key ∧ u.entry.identity = id

/-- The entry that was added last, unless it has been taken back since. -/
def standing (key : κ) (id : Int64) (us : List (Update κ)) : Option Entry :=
  (about key id us).getLast?.bind fun u => if u.change = .add then some u.entry else none

/-- **Updates that deliver the difference of two entries** put one in the place of the other. -/
theorem Delivers.about_eq [Ord κ] [TransOrd κ] [Std.LawfulEqOrd κ] {us : List (Update κ)}
    {weight : κ → Entry → Int} (h : Delivers us weight) (hold : ∀ e ∈ old, e.identity = id)
    (hnew : ∀ e ∈ new, e.identity = id)
    (hweight : ∀ e : Entry, e.identity = id → weight key e =
      (if new = some e then 1 else 0) - if old = some e then 1 else 0) :
    about key id us = turnover key old new := by
  refine eq_of_pairwise_compare_lt (h.order.filter _) (pairwise_turnover key old new) fun u => ?_
  obtain ⟨ukey, change, e⟩ := u
  rw [about, List.mem_filter, decide_eq_true_iff, mem_turnover]
  dsimp only
  by_cases hkey : ukey = key
  · subst hkey
    by_cases hid : e.identity = id
    · have hweight := hweight e hid
      cases change with
      | remove =>
        rw [h.removed, hweight]
        by_cases ho : old = some e <;> by_cases hn : new = some e <;> simp [ho, hn, hid]
      | add =>
        rw [h.added, hweight]
        by_cases ho : old = some e <;> by_cases hn : new = some e <;> simp [ho, hn, hid]
    · refine iff_of_false (fun hu => hid hu.2.2) ?_
      rintro ⟨-, ⟨-, ho, -⟩ | ⟨-, hn, -⟩⟩
      · exact hid (hold e ho)
      · exact hid (hnew e hn)
  · exact iff_of_false (fun hu => hkey hu.2.1) fun hu => hkey hu.1

theorem standing_append {us vs : List (Update κ)}
    (h : about key id vs = turnover key (standing key id us) new) :
    standing key id (us ++ vs) = new := by
  have happend : about key id (us ++ vs) = about key id us ++ about key id vs :=
    List.filter_append us vs
  rw [standing, happend, h, turnover]
  split
  · rename_i heq
    rw [List.append_nil]
    exact heq
  · rename_i hne
    cases new with
    | some e => simp
    | none =>
      cases hold : standing key id us with
      | some e => simp
      | none => exact absurd hold hne

end TopCharts
