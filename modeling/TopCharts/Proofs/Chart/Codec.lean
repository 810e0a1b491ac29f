import TopCharts.Chart.Codec
import TopCharts.Proofs.Chart.Exact

/-!
# Reading charts back from their bytes

* `Entry.listOfBytes_flatMap_encode` : records are read back one by one;
  `Entry.flatMap_encode_listOfBytes` : and whole records are those of the entries read from them;
* `Sound.ext` : two sound charts that rank the same entries are equal;
* `Sound.toList_ofList` : adding the entries of a chart in turn keeps as many of the first as fit;
* `Sound.decode_encode` : an encoded chart is read back through such additions, also into a chart of
  another size. Only the empty chart is not told from one that is not computed;
* `decode_eq_error_iff`, `decode_of_dvd` : what any other bytes are read as. `sound_of_decode` :
  charts that are decoded are sound.
-/

namespace TopCharts

/-! ## Records -/

namespace Entry

theorem length_encode (e : Entry) : e.encode.length = recordWidth := by
  rw [encode, List.length_append, Bytes.length_bigEndian, Bytes.length_bigEndian]
  rfl

theorem ofBigEndian_word (n : Int64) :
    (UInt64.ofNat (Bytes.ofBigEndian (Bytes.bigEndian 8 n.toUInt64.toNat))).toInt64 = n := by
  rw [Bytes.ofBigEndian_bigEndian, Nat.mod_eq_of_lt n.toUInt64.toNat_lt, UInt64.ofNat_toNat]
  exact Int64.toInt64_toUInt64 n

theorem ofBytes_encode (e : Entry) : ofBytes e.encode = e := by
  have hlen : (Bytes.bigEndian 8 e.identity.toUInt64.toNat).length = 8 := Bytes.length_bigEndian ..
  rw [ofBytes, encode, List.take_left' hlen, List.drop_left' hlen]
  exact Entry.ext (ofBigEndian_word e.identity) (ofBigEndian_word e.score)

theorem listOfBytes_append {record : List UInt8} (h : record.length = recordWidth)
    (bytes : List UInt8) : listOfBytes (record ++ bytes) = ofBytes record :: listOfBytes bytes := by
  cases record with
  | nil => exact absurd h (by decide)
  | cons b bs =>
    have hbs : bs.length = recordWidth - 1 := Nat.succ.inj h
    rw [List.cons_append, listOfBytes, ← List.cons_append, List.take_left' h, List.drop_left' hbs]

theorem listOfBytes_flatMap_encode (es : List Entry) : listOfBytes (es.flatMap encode) = es := by
  induction es with
  | nil => rw [List.flatMap_nil, listOfBytes]
  | cons e es ih =>
    rw [List.flatMap_cons, listOfBytes_append (length_encode e), ofBytes_encode, ih]

theorem bigEndian_word {bytes : List UInt8} (h : bytes.length = 8) :
    Bytes.bigEndian 8 (UInt64.ofNat (Bytes.ofBigEndian bytes)).toInt64.toUInt64.toNat = bytes := by
  have hlt := Bytes.ofBigEndian_lt bytes
  rw [h] at hlt
  rw [UInt64.toUInt64_toInt64, UInt64.toNat_ofNat_of_lt' hlt, ← h, Bytes.bigEndian_ofBigEndian]

theorem encode_ofBytes {record : List UInt8} (h : record.length = recordWidth) :
    (ofBytes record).encode = record := by
  have htake : (record.take 8).length = 8 := by
    rw [List.length_take, h]
    rfl
  have hdrop : (record.drop 8).length = 8 := by
    rw [List.length_drop, h]
    rfl
  rw [encode, ofBytes, bigEndian_word htake, bigEndian_word hdrop, List.take_append_drop]

theorem flatMap_encode_listOfBytes {bytes : List UInt8} (h : recordWidth ∣ bytes.length) :
    (listOfBytes bytes).flatMap encode = bytes := by
  obtain ⟨n, hn⟩ := h
  induction n generalizing bytes with
  | zero =>
    obtain rfl := List.eq_nil_of_length_eq_zero hn
    rw [listOfBytes, List.flatMap_nil]
  | succ n ih =>
    rw [Nat.mul_succ] at hn
    have htake : (bytes.take recordWidth).length = recordWidth := by
      rw [List.length_take, hn, Nat.min_eq_left (Nat.le_add_left _ _)]
    have hdrop : (bytes.drop recordWidth).length = recordWidth * n := by
      rw [List.length_drop, hn, Nat.add_sub_cancel]
    have hread := listOfBytes_append htake (bytes.drop recordWidth)
    rw [List.take_append_drop] at hread
    rw [hread, List.flatMap_cons, encode_ofBytes htake, ih hdrop, List.take_append_drop]

theorem length_flatMap_encode (es : List Entry) :
    (es.flatMap encode).length = recordWidth * es.length := by
  induction es with
  | nil => rfl
  | cons e es ih =>
    rw [List.flatMap_cons, List.length_append, length_encode, ih, List.length_cons,
      Nat.mul_succ, Nat.add_comm]

end Entry

/-! ## Charts -/

namespace Chart

variable {k : Nat} {c d : Chart k}

theorem length_encode (c : Chart k) : c.encode.length = recordWidth * c.size :=
  Entry.length_flatMap_encode c.ranking

theorem encode_eq_nil : c.encode = [] ↔ c.toList = [] := by
  rw [← List.length_eq_zero_iff, length_encode, Nat.mul_eq_zero]
  exact (or_iff_right (by decide)).trans List.length_eq_zero_iff

theorem Sound.ext (hc : c.Sound) (hd : d.Sound) (h : c.toList = d.toList) : c = d := by
  obtain ⟨members, ranking⟩ := c
  obtain ⟨members', ranking'⟩ := d
  obtain rfl : ranking = ranking' := h
  have hmembers : members = members' := by
    refine Std.ExtTreeMap.ext_getElem? fun i => Option.ext fun e => ?_
    exact (hc.live i e).trans (hd.live i e).symm
  rw [hmembers]

theorem Sound.oneEach (h : c.Sound) : OneEach c.toList.toFinset := by
  intro a ha b hb hid
  exact h.live.eq_of_identity (List.mem_toFinset.1 ha) (List.mem_toFinset.1 hb) hid

theorem exact_ofList {es : List Entry} (h : OneEach es.toFinset) :
    (ofList es : Chart k).Exact es.toFinset := by
  have hunion : ∅ ∪ es.toFinset = es.toFinset := Finset.empty_union _
  have hexact := (exact_empty (k := k)).foldl_add es (hunion.symm ▸ h)
  rw [hunion] at hexact
  exact hexact

/-- Of the entries of a chart, added in turn to one of size `m`, the first `m` are kept. -/
theorem Sound.toList_ofList (h : c.Sound) (m : Nat) :
    (ofList c.toList : Chart m).toList = c.toList.take m := by
  have hsort : c.toList = c.toList.toFinset.sort :=
    Ranked.eq_sort h.ranked fun e => List.mem_toFinset.symm
  rw [(exact_ofList h.oneEach).toList_eq, best, ← hsort]

theorem Sound.ofList_toList (h : c.Sound) : (ofList c.toList : Chart k) = c := by
  refine (exact_ofList h.oneEach).sound.ext h ?_
  rw [h.toList_ofList]
  exact List.take_of_length_le h.length_le

theorem decode_encode (c : Chart k) (m : Nat) :
    decode (k := m) (some c.encode) =
      .ok (if c.toList = [] then none else some (ofList c.toList)) := by
  split
  · rename_i hnil
    rw [encode_eq_nil.2 hnil]
    rfl
  · rename_i hne
    have hbytes : c.encode ≠ [] := fun h => hne (encode_eq_nil.1 h)
    have hread : Entry.listOfBytes c.encode = c.toList := Entry.listOfBytes_flatMap_encode _
    have hlen : c.encode.length % recordWidth = 0 := by rw [length_encode, Nat.mul_mod_right]
    cases hb : c.encode with
    | nil => exact absurd hb hbytes
    | cons b bs =>
      rw [hb] at hread hlen
      rw [decode, if_pos hlen, hread]
      exact nofun

theorem sound_ofList (es : List Entry) : (ofList es : Chart k).Sound :=
  List.foldlRecOn es _ sound_empty fun _ h e _ => h.add e

theorem decode_eq_error_iff {bytes : List UInt8} {e : CorruptEncoding} :
    decode (k := k) (some bytes) = .error e ↔
      e = ⟨bytes.length⟩ ∧ ¬ recordWidth ∣ bytes.length := by
  cases bytes with
  | nil =>
    rw [decode]
    exact iff_of_false nofun fun h => h.2 (Nat.dvd_zero _)
  | cons b bs =>
    rw [decode, Nat.dvd_iff_mod_eq_zero]
    · split
      · rename_i hlen
        exact iff_of_false nofun fun h => h.2 hlen
      · rename_i hlen
        rw [Except.error.injEq, eq_comm, and_iff_left hlen]
    · exact nofun

/-- Whole records are decoded by adding their entries in turn. -/
theorem decode_of_dvd {bytes : List UInt8} (hne : bytes ≠ [])
    (hlen : recordWidth ∣ bytes.length) :
    decode (k := k) (some bytes) = .ok (some (ofList (Entry.listOfBytes bytes))) := by
  cases bytes with
  | nil => exact absurd rfl hne
  | cons b bs =>
    rw [decode, if_pos (Nat.mod_eq_zero_of_dvd hlen)]
    exact nofun

theorem sound_of_decode {bytes : Option (List UInt8)} (h : decode bytes = .ok (some c)) :
    c.Sound := by
  unfold decode at h
  split at h
  · cases h
  · cases h
  · split at h
    · cases h
      exact sound_ofList _
    · cases h

theorem Sound.decode_encode (h : c.Sound) :
    decode (some c.encode) = .ok (if c.toList = [] then none else some c) := by
  rw [Chart.decode_encode, h.ofList_toList]

end Chart

end TopCharts
