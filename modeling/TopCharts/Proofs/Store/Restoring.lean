import TopCharts.Attempt
import TopCharts.Proofs.Store.PerKey

/-!
# Stores that travel as encodings

* `restore_eq_ok` : whole records set the chart of their key to what they are decoded to, which may
  be no chart; `restore_eq_error_iff` : any other bytes are refused;
* `Store.restoring` : restoring in place. `run_restoring` : it gives what `restore` gives, or the
  store unchanged;
* `Store.listed` : the chart of a key, if it ranks something. `Sound.decode_encode` : this is what
  is left of a chart that is encoded and decoded;
* `Store.copy` : restores in turn what another store has encoded. `Sound.exists_copy` : this sets
  the keys to what they list, in whatever order;
* `moved_by_encodings` : what becomes of a store that calls led to, moved as a whole or key by key,
  and which bytes no store takes.
-/

namespace TopCharts

open Std (TransOrd LawfulEqOrd)

variable {κ : Type} {k : Nat} [Ord κ] [TransOrd κ]

namespace Store

/-! ## Restoring -/

theorem restore_eq_error_iff {s : Store κ k} {key : κ} {bytes : List UInt8}
    {cause : CorruptEncoding} :
    s.restore key (some bytes) = .error cause ↔
      cause = ⟨bytes.length⟩ ∧ ¬ recordWidth ∣ bytes.length := by
  rw [restore, Attempt.bind_eq_error, Chart.decode_eq_error_iff, or_iff_left]
  rintro ⟨restored, -, h⟩
  cases restored with
  | none => cases h
  | some c => cases h

/-- Sets the chart of a key in place. The bytes are decoded before the store is touched. -/
def restoring (key : κ) (bytes : Option (List UInt8)) :
    EStateM CorruptEncoding (Store κ k) Bool := do
  match Chart.decode bytes with
  | .error cause => throw cause
  | .ok (some chart) =>
    modify fun s => ⟨s.charts.insert key chart⟩
    return true
  | .ok none =>
    modify fun s => ⟨s.charts.erase key⟩
    return false

/-- **Restoring is atomic**: it leads to what `restore` gives, and from a refusal back to the store
that there was. -/
theorem run_restoring (s : Store κ k) (key : κ) (bytes : Option (List UInt8)) :
    (restoring key bytes).run s =
      match s.restore key bytes with
      | .ok (set, t) => .ok set t
      | .error cause => .error cause s := by
  rw [restoring, restore]
  cases Chart.decode (k := k) bytes with
  | error cause => rfl
  | ok restored =>
    cases restored with
    | none => rfl
    | some c => rfl

/-! ## Encodings of a store -/

def listed (s : Store κ k) (key : κ) : Option (Chart k) :=
  (s.get? key).filter fun c => c.toList ≠ []

variable {s : Store κ k}

theorem listed_of_ne_nil {key : κ} {c : Chart k} (hkey : s.get? key = some c) (hc : c.toList ≠ []) :
    s.listed key = some c := by
  rw [listed, hkey, Option.filter_some, if_pos (decide_eq_true hc)]

theorem listed_of_nil {key : κ} {c : Chart k} (hkey : s.get? key = some c) (hc : c.toList = []) :
    s.listed key = none := by
  rw [listed, hkey, Option.filter_some, hc]
  rfl

theorem Sound.decode_encode (hs : s.Sound) (key : κ) :
    Chart.decode (s.encode key) = .ok (s.listed key) := by
  cases hkey : s.get? key with
  | none =>
    rw [encode, listed, hkey]
    rfl
  | some c =>
    rw [encode, hkey, Option.map_some, (hs.of_get? hkey).decode_encode]
    split
    · rename_i hc
      rw [listed_of_nil hkey hc]
    · rename_i hc
      rw [listed_of_ne_nil hkey hc]

/-- Restores in turn what `s` has encoded for keys. -/
def copy (s : Store κ k) (keys : List κ) (t : Store κ k) : Except CorruptEncoding (Store κ k) :=
  keys.foldlM (fun t key => Prod.snd <$> t.restore key (s.encode key)) t

/-! ## What is restored -/

variable [LawfulEqOrd κ] [DecidableEq κ]

theorem restore_eq_ok {key : κ} {bytes : Option (List UInt8)} {restored : Option (Chart k)}
    (h : Chart.decode bytes = .ok restored) (s : Store κ k) :
    ∃ t, s.restore key bytes = .ok (restored.isSome, t) ∧
      ∀ a, t.get? a = if key = a then restored else s.get? a := by
  refine ⟨s.call (.restore key bytes), ?_, fun a => ?_⟩
  · rw [call, restore, h]
    cases restored with
    | none => rfl
    | some c => rfl
  · rw [get?_restore, StoreCall.effect, h]

/-- What a store has encoded for keys is copied to these keys, in whatever order they come. -/
theorem Sound.exists_copy (hs : s.Sound) (keys : List κ) (t : Store κ k) :
    ∃ t', s.copy keys t = .ok t' ∧
      ∀ a, t'.get? a = if a ∈ keys then s.listed a else t.get? a := by
  induction keys generalizing t with
  | nil => exact ⟨t, rfl, fun a => (if_neg List.not_mem_nil).symm⟩
  | cons key keys ih =>
    obtain ⟨t₁, hfirst, hget₁⟩ := restore_eq_ok (hs.decode_encode key) t
    obtain ⟨t₂, hrest, hget₂⟩ := ih t₁
    refine ⟨t₂, ?_, fun a => ?_⟩
    · rw [copy, List.foldlM_cons, hfirst]
      exact hrest
    · rw [hget₂, hget₁]
      by_cases hkey : key = a
      · subst hkey
        simp
      · simp [hkey, Ne.symm hkey]

theorem Sound.restore_encode (hs : s.Sound) {key : κ} {c : Chart k} (hkey : s.get? key = some c)
    (hc : c.toList ≠ []) : s.restore key (s.encode key) = .ok (true, s) := by
  obtain ⟨t, hrestore, hget⟩ := restore_eq_ok (hs.decode_encode key) s
  rw [listed_of_ne_nil hkey hc] at hrestore hget
  have hsame : t = s := by
    apply ext_get?
    intro a
    rw [hget]
    by_cases ha : key = a
    · rw [if_pos ha, ← ha, hkey]
    · rw [if_neg ha]
  rw [hrestore, hsame]
  rfl

theorem Sound.restore_encode_of_nil (hs : s.Sound) {key : κ} {c : Chart k}
    (hkey : s.get? key = some c) (hc : c.toList = []) :
    ∃ t, s.restore key (s.encode key) = .ok (false, t) ∧
      ∀ a, t.get? a = if key = a then none else s.get? a := by
  obtain ⟨t, hrestore, hget⟩ := restore_eq_ok (hs.decode_encode key) s
  rw [listed_of_nil hkey hc] at hrestore hget
  exact ⟨t, hrestore, hget⟩

end Store

/-- **A store moves by its encodings.** Take a store that calls led to. What it has encoded for its
keys, restored in any order into an empty store, gives a store with the same charts, but without
the keys whose charts are empty. Restored into the store itself, the encoding of a key reports
`true` and changes nothing if the chart ranks something, and else reports `false` and drops this key
alone. Any store refuses just the bytes that are not whole records, and stays as it is. -/
theorem moved_by_encodings [LawfulEqOrd κ] [DecidableEq κ] (k : Nat) :
    (∀ calls : List (StoreCall κ),
      let s : Store κ k := Store.empty.calls calls
      (∀ order : List κ, order.Perm s.keys → ∃ t, s.copy order .empty = .ok t ∧
        ∀ key, t.get? key = (s.get? key).filter fun c => c.toList ≠ []) ∧
      ∀ key c, s.get? key = some c →
        (c.toList ≠ [] → s.restore key (s.encode key) = .ok (true, s)) ∧
        (c.toList = [] → ∃ t, s.restore key (s.encode key) = .ok (false, t) ∧
          ∀ a, t.get? a = if key = a then none else s.get? a)) ∧
    ∀ (s : Store κ k) (key : κ) (bytes : List UInt8),
      ((∃ cause, s.restore key (some bytes) = .error cause) ↔ ¬ 16 ∣ bytes.length) ∧
      ∀ cause, s.restore key (some bytes) = .error cause →
        (Store.restoring key (some bytes)).run s = .error cause s := by
  refine ⟨fun calls => ?_, fun s key bytes => ⟨?_, fun cause h => ?_⟩⟩
  · intro s
    have hs : s.Sound := Store.sound_calls calls
    refine ⟨fun order horder => ?_, fun key c hkey =>
      ⟨hs.restore_encode hkey, hs.restore_encode_of_nil hkey⟩⟩
    obtain ⟨t, ht, hget⟩ := hs.exists_copy order .empty
    refine ⟨t, ht, fun key => (hget key).trans ?_⟩
    by_cases hkey : key ∈ order
    · exact if_pos hkey
    · rw [if_neg hkey, Store.get?_empty]
      rw [horder.mem_iff, Store.mem_keys, Option.not_isSome_iff_eq_none] at hkey
      rw [hkey]
      rfl
  · constructor
    · rintro ⟨cause, h⟩
      exact (Store.restore_eq_error_iff.1 h).2
    · exact fun h => ⟨_, Store.restore_eq_error_iff.2 ⟨rfl, h⟩⟩
  · rw [Store.run_restoring, h]

/-- A store of three keys, one of which has become empty, is moved in an order that is not that of
its keys; and one byte less than a record. -/
theorem moved_by_encodings_emptied :
    let calls : List (StoreCall Nat) := [.apply 1 .add ⟨7, 5⟩, .apply 1 .add ⟨8, 9⟩,
      .apply 2 .add ⟨7, 5⟩, .replace 2 (some ⟨7, 5⟩) none, .apply 3 .add ⟨-4, -1⟩]
    let s : Store Nat 2 := Store.empty.calls calls
    [3, 1, 2].Perm s.keys ∧
      (∃ t, s.copy [3, 1, 2] .empty = .ok t ∧ t.get? 1 = s.get? 1 ∧ t.get? 2 = none) ∧
      s.restore 3 (s.encode 3) = .ok (true, s) ∧
      (∃ t, s.restore 2 (s.encode 2) = .ok (false, t) ∧ t.get? 2 = none ∧ t.get? 3 = s.get? 3) ∧
      ∃ cause, s.restore 1 (some (List.replicate 15 0)) = .error cause ∧
        (Store.restoring 1 (some (List.replicate 15 0))).run s = .error cause s := by
  intro calls s
  obtain ⟨hmoved, hrefused⟩ := moved_by_encodings (κ := Nat) 2
  obtain ⟨horders, hown⟩ := hmoved calls
  have horder : [3, 1, 2].Perm s.keys := by decide
  obtain ⟨t, ht, hget⟩ := horders [3, 1, 2] horder
  obtain ⟨u, hu, hdropped⟩ := (hown 2 _ rfl).2 (by decide)
  obtain ⟨hfails, hkept⟩ := hrefused s 1 (List.replicate 15 0)
  obtain ⟨cause, hcause⟩ := hfails.2 (by decide)
  refine ⟨horder, ⟨t, ht, (hget 1).trans ?_, (hget 2).trans ?_⟩, (hown 3 _ rfl).1 (by decide),
    ⟨u, hu, hdropped 2, hdropped 3⟩, cause, hcause, hkept cause hcause⟩
  · decide
  · decide

end TopCharts
