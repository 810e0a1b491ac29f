import Mathlib.Data.List.Range
import TopCharts.Demo.Generator
import TopCharts.Proofs.Attempt

/-!
# What is generated

* `Demo.generate_eq_mapM` : the records of an epoch are generated from its numbers in turn;
* `Demo.generate_eq_ok`, `Demo.exists_generate_iff` : so they are those of their numbers, as many as
  asked for, and they are there if the record of each number is;
* `Demo.pick_mem` : a name that is gone round to is one of the names.
-/

namespace TopCharts.Demo

open Attempt

theorem generate_eq_mapM {α : Type} (n : Nat) (record : UInt64 → Except Fault α) :
    generate n record = (List.range n).mapM fun i => record (UInt64.ofNat i) := by
  suffices hgo : ∀ n k done, generate.go record n (UInt64.ofNat k) done =
      ((List.range' k n).mapM fun i => record (UInt64.ofNat i)).map (done.reverse ++ ·) by
    rw [List.range_eq_range']
    refine (hgo n 0 []).trans ?_
    cases (List.range' 0 n).mapM fun i => record (UInt64.ofNat i) <;> rfl
  intro n
  induction n with
  | zero =>
    intro k done
    simp [generate.go, List.range', Except.map, pure, Except.pure]
  | succ n ih =>
    intro k done
    have hnext : UInt64.ofNat k + 1 = UInt64.ofNat (k + 1) := (UInt64.ofNat_add k 1).symm
    rw [generate.go, List.range'_succ, List.mapM_cons]
    cases record (UInt64.ofNat k) with
    | error e => rfl
    | ok a =>
      refine (congrArg (generate.go record n · (a :: done)) hnext).trans ?_
      rw [ih]
      cases (List.range' (k + 1) n).mapM fun i => record (UInt64.ofNat i) with
      | error e => simp [bind, Except.bind, Except.map]
      | ok l => simp [bind, Except.bind, Except.map, pure, Except.pure]

/-- Every generated record is the one of some number, and all are there. -/
theorem generate_eq_ok {α : Type} {n : Nat} {record : UInt64 → Except Fault α} {l : List α}
    (h : generate n record = .ok l) : l.length = n ∧
      ∀ (i : Nat) (a : α), l[i]? = some a → i < n ∧ record (UInt64.ofNat i) = .ok a := by
  rw [generate_eq_mapM] at h
  obtain ⟨hlength, hget⟩ := getElem?_of_mapM_eq_ok h
  refine ⟨hlength.trans List.length_range, fun i a ha => ?_⟩
  obtain ⟨k, hk, hrecord⟩ := hget i a ha
  obtain ⟨hi, rfl⟩ := List.getElem?_eq_some_iff.1 hk
  rw [List.length_range] at hi
  rw [List.getElem_range] at hrecord
  exact ⟨hi, hrecord⟩

theorem exists_generate_iff {α : Type} {n : Nat} {record : UInt64 → Except Fault α} :
    (∃ l, generate n record = .ok l) ↔ ∀ i < n, ∃ a, record (UInt64.ofNat i) = .ok a := by
  rw [generate_eq_mapM]
  constructor
  · rintro ⟨l, hl⟩ i hi
    exact exists_of_mapM_eq_ok hl i (List.mem_range.2 hi)
  · exact fun h => exists_mapM_eq_ok fun i hi => h i (List.mem_range.1 hi)

theorem pick_mem {names : List String} (h : names ≠ []) (n : UInt64) : pick names n ∈ names := by
  have hlt : n.toNat % names.length < names.length :=
    Nat.mod_lt _ (List.length_pos_iff.2 h)
  rw [pick, List.getD_eq_getElem?_getD, List.getElem?_eq_getElem hlt]
  exact List.getElem_mem hlt

end TopCharts.Demo
