import TopCharts.Proofs.Chart.Codec
import TopCharts.Proofs.Chart.Listing

/-!
# Encodings of reachable charts

* `Chart.Reachable c` : some sequence of calls leads from the empty chart to `c`. Such a chart is
  sound (`Reachable.sound`), which is all that its encoding needs;
* `decode_encode_reachable` : what becomes of a reachable chart that is encoded and read back, also
  as a chart of another size, and that its encoding tells it from all others of its size.
-/

namespace TopCharts.Chart

variable {k n : Nat} {c d : Chart n}

/-- The charts that calls can lead to. -/
inductive Reachable : Chart k → Prop where
  | empty : Reachable .empty
  | call {c : Chart k} (h : Reachable c) (call : ChartCall) : Reachable (c.call call).2

theorem Reachable.replies (h : c.Reachable) (calls : List ChartCall) :
    (replies Chart.call c calls).2.Reachable := by
  induction calls generalizing c with
  | nil => exact h
  | cons call calls ih => exact ih (h.call call)

theorem Reachable.sound (h : c.Reachable) : c.Sound := by
  induction h with
  | empty => exact sound_empty
  | call _ call ih =>
    cases call with
    | add e => exact ih.add e
    | remove e => exact ih.remove e
    | replace old new => exact ih.replace old new

theorem Sound.encode_inj (hc : c.Sound) (hd : d.Sound) (h : c.encode = d.encode) : c = d := by
  refine hc.ext hd ?_
  have hlist : Entry.listOfBytes c.encode = Entry.listOfBytes d.encode := congrArg _ h
  rw [encode, encode, Entry.listOfBytes_flatMap_encode, Entry.listOfBytes_flatMap_encode] at hlist
  exact hlist

/-- **The round trip of a reachable chart.** Its encoding has 16 bytes for each entry. Read back as
a chart of any size `m` it is not computed if the chart was empty, and else shows the first `m` of
its entries. In its own size a chart that ranks something is restored as it was, and no other chart
has its encoding. -/
theorem decode_encode_reachable (h : c.Reachable) :
    c.encode.length = 16 * c.size ∧
      (∀ m, (c.toList = [] → decode (k := m) (some c.encode) = .ok none) ∧
        (c.toList ≠ [] → ∃ d : Chart m, decode (some c.encode) = .ok (some d) ∧
          d.toList = c.toList.take (min m c.size))) ∧
      (c.toList ≠ [] → decode (some c.encode) = .ok (some c)) ∧
      ∀ d : Chart n, d.Reachable → c.encode = d.encode → c = d := by
  refine ⟨length_encode c, fun m => ⟨fun hnil => ?_, fun hne => ?_⟩, fun hne => ?_, ?_⟩
  · rw [decode_encode, if_pos hnil]
  · refine ⟨ofList c.toList, ?_, ?_⟩
    · rw [decode_encode, if_neg hne]
    · rw [h.sound.toList_ofList]
      exact List.take_eq_take_min
  · rw [h.sound.decode_encode, if_neg hne]
  · exact fun d hd hencode => h.sound.encode_inj hd.sound hencode

/-- A chart with the least and the greatest words, ties and a raised score, read back in its own
size and in one that is too small for it. -/
theorem decode_encode_reachable_extremes :
    let c : Chart 3 := (replies Chart.call .empty [.add ⟨Int64.minValue, Int64.maxValue⟩,
      .add ⟨Int64.maxValue, Int64.minValue⟩, .add ⟨7, -1⟩, .add ⟨-1, -1⟩,
      .replace (some ⟨7, -1⟩) (some ⟨7, Int64.maxValue⟩)]).2
    c.Reachable ∧ c.toList = [⟨Int64.minValue, Int64.maxValue⟩, ⟨7, Int64.maxValue⟩, ⟨-1, -1⟩] ∧
      c.encode.length = 16 * c.size ∧
      (∃ d : Chart 2, decode (some c.encode) = .ok (some d) ∧
        d.toList = [⟨Int64.minValue, Int64.maxValue⟩, ⟨7, Int64.maxValue⟩]) ∧
      decode (some c.encode) = .ok (some c) := by
  intro c
  have hreach : c.Reachable := Reachable.empty.replies _
  have hlist : c.toList = [⟨Int64.minValue, Int64.maxValue⟩, ⟨7, Int64.maxValue⟩, ⟨-1, -1⟩] := by
    decide
  have hne : c.toList ≠ [] := by
    rw [hlist]
    exact List.cons_ne_nil _ _
  obtain ⟨hlength, hsizes, hsame, -⟩ := decode_encode_reachable hreach
  obtain ⟨d, hd, htake⟩ := (hsizes 2).2 hne
  refine ⟨hreach, hlist, hlength, ⟨d, hd, ?_⟩, hsame hne⟩
  rw [htake, hlist]
  rfl

end TopCharts.Chart
