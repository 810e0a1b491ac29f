import TopCharts.Proofs.Json.Objects

/-!
# The accepted texts of a record

* `Spellings` : how the values of the fields may be spelled; `Fields.Spelled` : the texts that may
  stand under a name; `Fields.Accepts` : whether they are read as given values;
* `Record.ObjectOf` : the objects that hold some fields of a record once each, in any order, among
  members with unknown names; `Record.ArrayOf` : the arrays of its fields in order;
* `Record.takes_object`, `Record.takes_array` : both are read, what an object does not hold as its
  default;
* `Record.run_of_missing`, `Record.exists_run_of_repeated` : an object without a required field, or
  with a field twice, is refused with its name.
-/

namespace TopCharts.Json

open Attempt

/-- How the values of the fields may be spelled. -/
@[reducible] def Spellings : List Type → Type
  | [] => Unit
  | α :: αs => Spelling α × Spellings αs

namespace Fields

variable {αs : List Type}

/-- Whether a text may stand under a name, if the fields have the given values. Any value may stand
under an unknown one. -/
def Spelled : {αs : List Type} → Fields αs → Spellings αs → Values αs → (name : String) →
    List Char → Prop
  | _, nil, (), (), _, s => IsValue s
  | _, cons f fs, (spells, sps), (a, as), name, s =>
    if f.name = name then spells a s else fs.Spelled sps as name s

/-- Whether the spellings of the values `as` are read as the values `bs`. -/
def Accepts : {αs : List Type} → Fields αs → Spellings αs → (as bs : Values αs) → Prop
  | _, nil, (), (), () => True
  | _, cons f fs, (spells, sps), (a, as), (b, bs) =>
    (∀ {s}, spells a s → f.format.Takes s b) ∧ fs.Accepts sps as bs

theorem fits_of_spelled {fs : Fields αs} {sps : Spellings αs} {as bs : Values αs}
    (h : fs.Accepts sps as bs) {name : String} {s : List Char} (hs : fs.Spelled sps as name s) :
    fs.Fits name s := by
  induction fs with
  | nil => exact hs
  | cons f fs ih =>
    unfold Spelled at hs
    unfold Fits
    split at hs
    · rename_i hname
      rw [if_pos hname]
      exact ⟨bs.1, h.1 hs⟩
    · rename_i hname
      rw [if_neg hname]
      exact ih h.2 hs

theorem Takes.imp {fs : Fields αs} {p q : String → List Char → Prop} {as : Values αs}
    (h : ∀ name ∈ fs.names, ∀ s, p name s → q name s) (hq : fs.Takes q as) : fs.Takes p as := by
  induction fs with
  | nil => trivial
  | cons f fs ih =>
    obtain ⟨hname, hnames⟩ := List.forall_mem_cons.1 h
    exact ⟨fun s hs => hq.1 s (hname s hs), ih hnames hq.2⟩

theorem takes_of_accepts {fs : Fields αs} {sps : Spellings αs} {as bs : Values αs}
    (h : fs.Accepts sps as bs) (hdistinct : fs.names.Nodup) : fs.Takes (fs.Spelled sps as) bs := by
  induction fs with
  | nil => trivial
  | cons f fs ih =>
    obtain ⟨hnew, hdistinct⟩ := List.nodup_cons.1 hdistinct
    refine ⟨fun s hs => h.1 ?_, Takes.imp (fun name hname s hs => ?_) (ih h.2 hdistinct)⟩
    · unfold Spelled at hs
      rwa [if_pos rfl] at hs
    · have hne : f.name ≠ name := fun heq => hnew (heq ▸ hname)
      unfold Spelled at hs
      rwa [if_neg hne] at hs

/-! ## Arrays -/

theorem nextItem_first {u v : List Char} (hu : Blanks u) (hv : Starts v) (r : List Char) :
    nextItem true (u ++ (v ++ r)) = .ok (some (v ++ r)) := by
  obtain ⟨c, t, rfl, hc, hne⟩ := hv
  rw [nextItem, List.cons_append, skipBlanks_append_cons hu hc]
  split
  · rename_i heq
    cases heq
  · rename_i heq
    exact absurd (List.cons.inj heq).1 hne
  · rename_i heq
    cases heq
    rfl

theorem nextItem_comma {w u v : List Char} (hw : Blanks w) (hu : Blanks u) (hv : Starts v)
    (r : List Char) : nextItem false (w ++ ',' :: (u ++ (v ++ r))) = .ok (some (v ++ r)) := by
  obtain ⟨c, t, rfl, hc, hne⟩ := hv
  rw [nextItem, skipBlanks_append_cons hw rfl, List.cons_append]
  show (if false = true then _ else if ',' = ',' then _ else _) = _
  rw [if_neg (by decide), if_pos rfl, skipBlanks_append_cons hu hc]
  split
  · rename_i heq
    cases heq
  · rename_i heq
    exact absurd (List.cons.inj heq).1 hne
  · rfl

section

variable {record : String} {total index : Nat}

theorem readItems_of_some {α : Type} {f : Field α} {fs : Fields αs} {first : Bool}
    {s v r r' : List Char} {a : α} {as : Values αs} (hnext : nextItem first s = .ok (some (v ++ r)))
    (hv : f.format.Takes v a) (hr : Ends r)
    (hrest : fs.readItems record total (index + 1) false r = .ok (as, r')) :
    (cons f fs).readItems record total index first s = .ok ((a, as), r') :=
  bind_eq_ok.2 ⟨_, hnext, bind_eq_ok.2 ⟨_, hv.run_append Blanks.nil hr,
    bind_eq_ok.2 ⟨_, hrest, rfl⟩⟩⟩

theorem ends_items (ts : List (List Char)) (r : List Char) :
    Ends ((ts.flatMap fun t => ',' :: t) ++ ']' :: r) := by
  cases ts with
  | nil => exact ends_cons rfl (by decide)
  | cons t ts => exact ends_cons rfl (by decide)

/-- **The items after the first one are read as the fields in order.** -/
theorem exists_readItems_comma {fs : Fields αs} {p : String → List Char → Prop} {as : Values αs}
    (h : fs.Takes p as) {ts : List (List Char)}
    (hts : List.Forall₂ (fun name => Padded (p name)) fs.names ts) {w : List Char} (hw : Blanks w)
    (r : List Char) : ∃ w', Blanks w' ∧ fs.readItems record total index false
      (w ++ ((ts.flatMap fun t => ',' :: t) ++ ']' :: r)) = .ok (as, w' ++ ']' :: r) := by
  induction fs generalizing index ts w with
  | nil =>
    cases hts
    exact ⟨w, hw, rfl⟩
  | cons f fs ih =>
    obtain ⟨t, ts, ⟨u, v, u', hu, hv, hu', rfl⟩, htail, rfl⟩ := List.forall₂_cons_left_iff.1 hts
    obtain ⟨w', hw', hrest⟩ : ∃ w', Blanks w' ∧ fs.readItems record total (index + 1) false
        (u' ++ ((ts.flatMap fun t => ',' :: t) ++ ']' :: r)) = .ok (as.2, w' ++ ']' :: r) :=
      ih h.2 htail hu'
    have htakes := h.1 v hv
    have hnext := nextItem_comma hw hu htakes.starts
      (u' ++ ((ts.flatMap fun t => ',' :: t) ++ ']' :: r))
    refine ⟨w', hw', readItems_of_some (v := v) ?_ htakes
      ((ends_items ts r).append_blanks hu') hrest⟩
    simpa using hnext

/-- **The items of an array are read as the fields in order.** -/
theorem exists_readItems {fs : Fields αs} {p : String → List Char → Prop} {as : Values αs}
    (h : fs.Takes p as) {ts : List (List Char)}
    (hts : List.Forall₂ (fun name => Padded (p name)) fs.names ts) (r : List Char) :
    ∃ w, Blanks w ∧ fs.readItems record total index true ([','].intercalate ts ++ ']' :: r) =
      .ok (as, w ++ ']' :: r) := by
  cases fs with
  | nil =>
    cases hts
    exact ⟨[], Blanks.nil, rfl⟩
  | cons f fs =>
    obtain ⟨t, ts, ⟨u, v, u', hu, hv, hu', rfl⟩, htail, rfl⟩ := List.forall₂_cons_left_iff.1 hts
    obtain ⟨w', hw', hrest⟩ : ∃ w', Blanks w' ∧ fs.readItems record total (index + 1) false
        (u' ++ ((ts.flatMap fun t => ',' :: t) ++ ']' :: r)) = .ok (as.2, w' ++ ']' :: r) :=
      exists_readItems_comma h.2 htail hu' r
    have htakes := h.1 v hv
    have hnext := nextItem_first hu htakes.starts
      (u' ++ ((ts.flatMap fun t => ',' :: t) ++ ']' :: r))
    refine ⟨w', hw', readItems_of_some (v := v) ?_ htakes
      ((ends_items ts r).append_blanks hu') hrest⟩
    rw [intercalate_comma]
    simpa using hnext

end

end Fields

/-! ## Records -/

namespace Record

variable {α : Type} (d : Record α) (sps : Spellings d.types)

/-- The objects that hold the fields with the given names once each, in any order, with their values
in the record, among members with unknown names. -/
def ObjectOf (held : List String) (a : α) (s : List Char) : Prop :=
  ∃ ms, IsObject ms s ∧ (∀ m ∈ ms, m.Holds (d.fields.Spelled sps (d.toValues a))) ∧
    ∀ name ∈ d.fields.names, (ms.map Member.name).count name = if name ∈ held then 1 else 0

/-- The arrays of the fields of the record in order. -/
def ArrayOf (a : α) (s : List Char) : Prop :=
  ∃ ts, List.Forall₂ (fun name => Padded (d.fields.Spelled sps (d.toValues a) name))
    d.fields.names ts ∧ s = '[' :: ([','].intercalate ts ++ [']'])

theorem objectOf_empty (a : α) {w : List Char} (hw : Blanks w) :
    d.ObjectOf sps [] a ('\x7b' :: (w ++ ['\x7d'])) :=
  ⟨[], .empty hw, fun _ hm => absurd hm List.not_mem_nil, fun _ _ => rfl⟩

theorem run_array (r : List Char) : d.reader.run ('[' :: r) = (do
    let (values, r) ← d.fields.readItems d.name d.fields.count 0 true r
    return (d.ofValues values, ← Fields.takeBracket r)) := by
  rw [Record.reader]
  dsimp only
  rw [skipBlanks_cons rfl]
  rfl

variable {d sps}

theorem starts_of_isObject {ms : List Member} {s : List Char} (h : IsObject ms s) : Starts s := by
  cases h <;> exact ⟨_, _, rfl, by decide⟩

section

variable (hdistinct : d.fields.names.Nodup) {a : α} {bs : Values d.types}
  (haccepts : d.fields.Accepts sps (d.toValues a) bs)

include hdistinct haccepts

/-- The slots of the fields that are held are filled when the object ends. -/
theorem run_objectOf {held : List String} {s : List Char}
    (hs : d.ObjectOf sps held a s) : ∀ {w r}, Blanks w → d.reader.run (w ++ s ++ r) = (do
      return (d.ofValues (← d.fields.complete (d.fields.filled bs held)), r)) := by
  obtain ⟨ms, hobject, hms, honce⟩ := hs
  intro w r hw
  have hfits : ∀ m ∈ ms, m.Holds d.fields.Fits := fun m hm =>
    ⟨(hms m hm).label, (hms m hm).before, Fields.fits_of_spelled haccepts (hms m hm).value,
      (hms m hm).after⟩
  have htakes := Fields.takes_of_accepts haccepts hdistinct
  have hmeet : d.fields.meet d.fields.noSlots ms = .ok (d.fields.filled bs held) := by
    have hcount : ∀ name ∈ d.fields.names, ([] ++ ms.map Member.name).count name ≤ 1 := by
      intro name hname
      rw [List.nil_append, honce name hname]
      split <;> decide
    have hmem : ∀ name ∈ d.fields.names, name ∈ [] ++ ms.map Member.name ↔ name ∈ held := by
      intro name hname
      rw [List.nil_append, ← List.count_pos_iff, honce name hname]
      split <;> simp_all
    rw [← Fields.filled_nil d.fields bs, Fields.meet_filled htakes hdistinct hms hcount,
      Fields.filled_congr hmem]
  rw [d.run_members hobject hfits hw r, hmeet]
  rfl

/-- **An object with all required fields is read,** and what it does not hold has its default. -/
theorem takes_object {held : List String} {s : List Char} (hs : d.ObjectOf sps held a s)
    (hheld : ∀ name ∈ d.fields.required, name ∈ held) :
    d.format.Takes s (d.ofValues (d.fields.overlay held bs)) := by
  refine ⟨starts_of_isObject hs.choose_spec.1, fun {w r} hw _ => ?_⟩
  show d.reader.run _ = _
  rw [run_objectOf hdistinct haccepts hs hw, Fields.complete_filled hheld]
  rfl

/-- **An object without a required field is refused** with the name of the first one. -/
theorem run_of_missing {held : List String} {s : List Char} (hs : d.ObjectOf sps held a s)
    {name : String} (hname : d.fields.required.find? (· ∉ held) = some name) {w r : List Char}
    (hw : Blanks w) :
    d.reader.run (w ++ s ++ r) = .error (.mismatch (.missingField name)) := by
  rw [run_objectOf hdistinct haccepts hs hw, Fields.complete_of_missing hname]
  rfl

/-- **An array of all fields is read.** -/
theorem takes_array {s : List Char} (hs : d.ArrayOf sps a s) :
    d.format.Takes s (d.ofValues bs) := by
  obtain ⟨ts, hts, rfl⟩ := hs
  refine ⟨⟨'[', _, rfl, by decide⟩, fun {w r} hw _ => ?_⟩
  obtain ⟨w', hw', hread⟩ : ∃ w', Blanks w' ∧ d.fields.readItems d.name d.fields.count 0 true
      ([','].intercalate ts ++ ']' :: r) = .ok (bs, w' ++ ']' :: r) :=
    Fields.exists_readItems (Fields.takes_of_accepts haccepts hdistinct) hts r
  have hbracket : Fields.takeBracket (w' ++ ']' :: r) = .ok r := by
    rw [Fields.takeBracket, skipBlanks_append_cons hw' rfl]
    rfl
  show d.reader.run _ = _
  rw [List.append_assoc, d.run_blanks hw, List.cons_append, List.append_assoc, d.run_array]
  exact bind_eq_ok.2 ⟨_, hread, bind_eq_ok.2 ⟨_, hbracket, rfl⟩⟩

end

section

variable (hdistinct : d.fields.names.Nodup)
  (haccepts : ∀ a, d.fields.Accepts sps (d.toValues a) (d.toValues a))

include hdistinct haccepts

theorem takes_all {a : α} {s : List Char} (hs : d.ObjectOf sps d.fields.names a s) :
    d.format.Takes s a := by
  have htakes := takes_object hdistinct (haccepts a) hs fun name hname =>
    d.fields.required_subset hname
  rwa [Fields.overlay_of_subset (fun name hname => hname), d.ofValues_toValues] at htakes

theorem takes_items {a : α} {s : List Char} (hs : d.ArrayOf sps a s) : d.format.Takes s a := by
  have htakes := takes_array hdistinct (haccepts a) hs
  rwa [d.ofValues_toValues] at htakes

end

theorem takes_write (h : d.fields.Faithful) (a : α) : d.format.Takes (d.format.write a) a := by
  refine ⟨⟨'\x7b', _, rfl, by decide⟩, fun {w r} hw _ => ?_⟩
  rw [List.append_assoc]
  exact (d.run_blanks hw _).trans ((d.closed h).read_write a r)

/-- **An object with a field twice is refused** with the name of such a field. -/
theorem exists_run_of_repeated {ms : List Member} {s : List Char} (hs : IsObject ms s)
    (hms : ∀ m ∈ ms, m.Holds d.fields.Fits) {name : String} (hname : name ∈ d.fields.names)
    (h : 2 ≤ (ms.map Member.name).count name) :
    ∃ name ∈ d.fields.names, 2 ≤ (ms.map Member.name).count name ∧ ∀ {w r}, Blanks w →
      d.reader.run (w ++ s ++ r) = .error (.mismatch (.duplicateField name)) := by
  have hcount : 2 ≤ (ms.map Member.name).count name +
      (if d.fields.isMet d.fields.noSlots name then 1 else 0) := Nat.le_add_right_of_le h
  obtain ⟨name, hname, htwice, hmeet⟩ := Fields.exists_meet_of_repeated hms hname hcount
  rw [Fields.isMet_noSlots] at htwice
  refine ⟨name, hname, htwice, fun {w r} hw => ?_⟩
  rw [d.run_members hs hms hw r, hmeet]
  rfl

end Record

end TopCharts.Json
