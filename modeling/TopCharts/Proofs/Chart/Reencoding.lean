import TopCharts.Proofs.Chart.Rising

/-!
# Encodings of what was decoded

Bytes from elsewhere may repeat identities, be out of order, or hold more records than a chart has
places. Whole records are always decoded, by adding their entries in turn.

* `toList_ofList_iff` : the entries of a list are collected as they stand exactly if they all fit,
  are ranked, and have an identity each;
* `toList_ofList_ne_nil` : what is collected is not lost altogether, if there is a place for it;
* `Chart.Canonical k bytes` : the bytes are the encoding of a chart, and are read as that chart;
* `encode_after_decode` : which bytes are given back by the chart they are decoded to, that what
  else this chart is encoded to is canonical, and that the order of records with an identity each
  does not matter.
-/

namespace TopCharts.Chart

variable {k : Nat} {c : Chart k} {es : List Entry}

theorem toList_ofList_iff :
    (ofList es : Chart k).toList = es ↔
      es.length ≤ k ∧ Ranked es ∧ (es.map Entry.identity).Nodup := by
  constructor
  · intro h
    have hsound := sound_ofList (k := k) es
    have hlen := hsound.length_le
    have hranked := hsound.ranked
    have hnodup := hsound.nodup_identities
    change (ofList es : Chart k).ranking = es at h
    rw [h] at hlen hranked hnodup
    exact ⟨hlen, hranked, hnodup⟩
  · rintro ⟨hlen, hranked, hnodup⟩
    have hsort : es = es.toFinset.sort := Ranked.eq_sort hranked fun e => List.mem_toFinset.symm
    rw [(exact_ofList (.of_nodup hnodup)).toList_eq, best, ← hsort, List.take_of_length_le hlen]

theorem Sound.toList_add_ne_nil (h : c.Sound) (hk : 0 < k) (e : Entry) :
    (c.add e).2.toList ≠ [] := by
  have hmem : e ∈ e.insertRanked (e.others c.toList) := Entry.mem_insertRanked.2 (.inl rfl)
  rw [h.toList_add, ne_eq, List.take_eq_nil_iff, not_or]
  exact ⟨hk.ne', List.ne_nil_of_mem hmem⟩

theorem toList_ofList_ne_nil (hk : 0 < k) (hes : es ≠ []) : (ofList es : Chart k).toList ≠ [] := by
  obtain ⟨front, last, rfl⟩ := (List.eq_nil_or_concat' es).resolve_left hes
  rw [ofList, List.foldl_append]
  exact (sound_ofList front).toList_add_ne_nil hk last

/-- A chart is encoded as the records of the entries that it lists, and of no others. -/
theorem encode_eq_flatMap_iff : c.encode = es.flatMap Entry.encode ↔ c.toList = es := by
  constructor
  · intro h
    have hread := congrArg Entry.listOfBytes h
    rw [Entry.listOfBytes_flatMap_encode] at hread
    rw [← hread]
    exact (Entry.listOfBytes_flatMap_encode c.ranking).symm
  · rintro rfl
    rfl

/-- The bytes are not empty, and they encode the chart that they are decoded to. -/
def Canonical (k : Nat) (bytes : List UInt8) : Prop :=
  bytes ≠ [] ∧ ∃ c : Chart k, decode (some bytes) = .ok (some c) ∧ c.encode = bytes

theorem Sound.canonical_encode (h : c.Sound) (hne : c.toList ≠ []) : Canonical k c.encode := by
  refine ⟨fun hnil => hne (encode_eq_nil.1 hnil), c, ?_, rfl⟩
  rw [h.decode_encode, if_neg hne]

/-- **Encoding what was decoded.** One or more whole records are the encodings of some entries, and
are decoded to a chart. This chart gives the bytes back exactly if no more than `k` entries were
encoded, in strict rank order and with an identity each. Whatever the bytes were, if `k` is not zero
the encoding of the chart is canonical and is decoded to the same chart. And if the identities of
the records differ, the records in any other order are decoded to the same chart: the `k` best of
their entries. -/
theorem encode_after_decode (k : Nat) {bytes : List UInt8} (hne : bytes ≠ [])
    (hwhole : recordWidth ∣ bytes.length) :
    ∃ (es : List Entry) (c : Chart k), bytes = es.flatMap Entry.encode ∧
      decode (some bytes) = .ok (some c) ∧
      (c.encode = bytes ↔ es.length ≤ k ∧ Ranked es ∧ (es.map Entry.identity).Nodup) ∧
      (0 < k → Canonical k c.encode ∧ decode (some c.encode) = .ok (some c)) ∧
      ((es.map Entry.identity).Nodup → c.toList = best k es.toFinset ∧
        ∀ es' : List Entry, es'.Perm es →
          decode (some (es'.flatMap Entry.encode)) = .ok (some c)) := by
  have hbytes := Entry.flatMap_encode_listOfBytes hwhole
  have hes : Entry.listOfBytes bytes ≠ [] := by
    intro hnil
    rw [hnil] at hbytes
    exact hne hbytes.symm
  refine ⟨Entry.listOfBytes bytes, ofList (Entry.listOfBytes bytes), hbytes.symm,
    decode_of_dvd hne hwhole, ?_, fun hk => ?_, fun hnodup => ⟨?_, fun es' hperm => ?_⟩⟩
  · rw [← toList_ofList_iff, ← encode_eq_flatMap_iff, hbytes]
  · have hsound := sound_ofList (k := k) (Entry.listOfBytes bytes)
    have hlisted := toList_ofList_ne_nil hk hes
    refine ⟨hsound.canonical_encode hlisted, ?_⟩
    rw [hsound.decode_encode, if_neg hlisted]
  · exact (exact_ofList (.of_nodup hnodup)).toList_eq
  · have hlen := Entry.length_flatMap_encode es'
    have hne' : es'.flatMap Entry.encode ≠ [] := by
      rw [← List.length_pos_iff, hlen, hperm.length_eq]
      exact Nat.mul_pos (by decide) (List.length_pos_iff.2 hes)
    rw [decode_of_dvd hne' ⟨_, hlen⟩, Entry.listOfBytes_flatMap_encode, ofList_perm hnodup hperm]

/-- Three records for a chart of two places, with negative words and a tie, and in no order: their
chart is encoded to other bytes, and these are canonical. In the order of ranks they are decoded to
the same chart. -/
theorem encode_after_decode_unordered :
    let es : List Entry := [⟨1, -10⟩, ⟨-2, 20⟩, ⟨-3, 20⟩]
    let bytes := es.flatMap Entry.encode
    let ranked := [⟨-3, 20⟩, ⟨-2, 20⟩, ⟨1, -10⟩].flatMap Entry.encode
    (bytes ≠ [] ∧ recordWidth ∣ bytes.length ∧ 0 < 2) ∧ (es.map Entry.identity).Nodup ∧
      ∃ c : Chart 2, decode (some bytes) = .ok (some c) ∧ c.toList = [⟨-3, 20⟩, ⟨-2, 20⟩] ∧
        c.encode ≠ bytes ∧ Canonical 2 c.encode ∧ decode (some c.encode) = .ok (some c) ∧
        decode (some ranked) = .ok (some c) := by
  intro es bytes ranked
  have hne : bytes ≠ [] := by decide
  have hwhole : recordWidth ∣ bytes.length := by decide
  have hnodup : (es.map Entry.identity).Nodup := by decide
  obtain ⟨read, c, hbytes, hdecode, hsame, hcanonical, hbest⟩ := encode_after_decode 2 hne hwhole
  obtain rfl : es = read := by
    have hread := congrArg Entry.listOfBytes hbytes
    rwa [Entry.listOfBytes_flatMap_encode, Entry.listOfBytes_flatMap_encode] at hread
  obtain ⟨hlist, hperm⟩ := hbest hnodup
  have hsorted : es.toFinset.sort = [⟨-3, 20⟩, ⟨-2, 20⟩, ⟨1, -10⟩] := by
    refine (Ranked.eq_sort (by decide) fun e => ?_).symm
    simp only [es, List.mem_toFinset, List.mem_cons, List.not_mem_nil, or_false]
    tauto
  refine ⟨⟨hne, hwhole, by decide⟩, hnodup, c, hdecode, ?_, fun h => ?_,
    (hcanonical (by decide)).1, (hcanonical (by decide)).2, hperm _ (by decide)⟩
  · rw [hlist, best, hsorted]
    rfl
  · exact absurd (hsame.1 h).1 (by decide)

end TopCharts.Chart
