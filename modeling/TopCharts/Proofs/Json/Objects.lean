import TopCharts.Proofs.Json.Record
import TopCharts.Proofs.Json.Spelling

/-!
# Objects with the members of a record

A record is read from every object with its members: in any order, among members with unknown
names, with blanks between all tokens.

* `Member` : a member as it is spelled; `IsObject ms s` : the text `s` is an object with the
  members `ms`;
* `Fields.Fits` : a text that may stand under a name, which is any value if the name is unknown;
* `Fields.put` : the value of a member goes into its slot; `Fields.meet` : so it is for a list of
  members, unless a field is met twice;
* `readMember_fits`, `readMembers_eq_meet`, `Record.run_members` : that is how objects are read;
* `Fields.filled` : the slots in which the fields with some names are filled; `meet_filled` : they
  are filled by members that hold these fields, in any order;
* `exists_meet_of_repeated` : a field that is held twice is refused;
* `complete_filled`, `complete_of_missing` : when the object ends, fields with a default get it, and
  the first of the other missing ones is reported.
-/

namespace TopCharts.Json

open Attempt

/-! ## Members -/

/-- A member as it is spelled in an object: its name, the text of the name with the blanks around
it, and the text of the value between blanks. -/
structure Member where
  name : String
  label : List Char
  before : List Char
  value : List Char
  after : List Char

def Member.text (m : Member) : List Char :=
  m.label ++ ':' :: (m.before ++ m.value ++ m.after)

/-- Whether a member is well spelled and its value may stand under its name. -/
structure Member.Holds (p : String → List Char → Prop) (m : Member) : Prop where
  label : Padded (SpellsText m.name) m.label
  before : Blanks m.before
  value : p m.name m.value
  after : Blanks m.after

inductive IsObject : List Member → List Char → Prop where
  | empty {w : List Char} (hw : Blanks w) : IsObject [] ('\x7b' :: (w ++ ['\x7d']))
  | full (m : Member) (ms : List Member) : IsObject (m :: ms)
      ('\x7b' :: ([','].intercalate ((m :: ms).map Member.text) ++ ['\x7d']))

def laterMembers (ms : List Member) : List Char :=
  ms.flatMap fun m => ',' :: m.text

theorem intercalate_text (m : Member) (ms : List Member) :
    [','].intercalate ((m :: ms).map Member.text) = m.text ++ laterMembers ms := by
  rw [List.map_cons, intercalate_comma, List.flatMap_map]
  rfl

theorem ends_laterMembers (ms : List Member) (r : List Char) :
    Ends (laterMembers ms ++ '\x7d' :: r) := by
  cases ms with
  | nil => exact ends_cons rfl (by decide)
  | cons m ms => exact ends_cons rfl (by decide)

/-! ## One member -/

theorem Format.Takes.value {α : Type} {f : Format α} {s : List Char} {a : α} (h : f.Takes s a) :
    (f.reader.run s).toOption.map Prod.fst = some a := by
  have hrun := h.run_append Blanks.nil ends_nil
  rw [List.nil_append, List.append_nil] at hrun
  rw [hrun]
  rfl

namespace Fields

variable {αs : List Type}


def Fits : {αs : List Type} → Fields αs → (name : String) → List Char → Prop
  | _, nil, _, s => IsValue s
  | _, cons f fs, name, s => if f.name = name then ∃ a, f.format.Takes s a else fs.Fits name s

def isMet : {αs : List Type} → Fields αs → Slots αs → (name : String) → Bool
  | _, nil, (), _ => false
  | _, cons f fs, (slot, slots), name =>
    if f.name = name then slot.isSome else fs.isMet slots name

/-- The slots with the value of a text in the slot of its name. -/
def put : {αs : List Type} → Fields αs → (name : String) → List Char → Slots αs → Slots αs
  | _, nil, _, _, () => ()
  | _, cons f fs, name, s, (slot, slots) =>
    if f.name = name then ((f.format.reader.run s).toOption.map Prod.fst, slots)
    else (slot, fs.put name s slots)

/-- **A member goes into its slot,** and is passed over if its name is unknown. -/
theorem readMember_fits {fs : Fields αs} {name : String} {s : List Char} (h : fs.Fits name s)
    {slots : Slots αs} (hmet : fs.isMet slots name = false) {w u r : List Char} (hw : Blanks w)
    (hu : Blanks u) (hr : Ends r) :
    fs.readMember name slots (w ++ ':' :: (u ++ s ++ r)) = .ok (fs.put name s slots, r) := by
  induction fs with
  | nil => exact bind_eq_ok.2 ⟨_, takeColon_append hw _, bind_eq_ok.2
      ⟨_, skipValue_append hu h hr, rfl⟩⟩
  | cons f fs ih =>
    obtain ⟨slot, slots⟩ := slots
    unfold Fits at h
    unfold isMet at hmet
    unfold readMember put
    split
    · rename_i hname
      rw [if_pos hname] at h hmet
      obtain ⟨a, ha⟩ := h
      rw [Option.isSome_eq_false_iff, Option.isNone_iff_eq_none] at hmet
      rw [hmet, ha.value]
      exact bind_eq_ok.2 ⟨_, takeColon_append hw _, bind_eq_ok.2
        ⟨_, ha.run_append hu hr, rfl⟩⟩
    · rename_i hname
      rw [if_neg hname] at h hmet
      exact bind_eq_ok.2 ⟨_, ih h hmet, rfl⟩

theorem readMember_of_isMet {fs : Fields αs} {slots : Slots αs} {name : String}
    (h : fs.isMet slots name) (s : List Char) :
    fs.readMember name slots s = .error (.mismatch (.duplicateField name)) := by
  induction fs with
  | nil => cases h
  | cons f fs ih =>
    obtain ⟨slot, slots⟩ := slots
    unfold isMet at h
    unfold readMember
    split
    · rename_i hname
      rw [if_pos hname] at h
      obtain ⟨a, rfl⟩ := Option.isSome_iff_exists.1 h
      rfl
    · rename_i hname
      rw [if_neg hname] at h
      rw [ih h]
      rfl

theorem isMet_noSlots (fs : Fields αs) (name : String) : fs.isMet fs.noSlots name = false := by
  induction fs with
  | nil => rfl
  | cons f fs ih =>
    unfold isMet noSlots
    split
    · rfl
    · exact ih

theorem mem_names_of_isMet {fs : Fields αs} {slots : Slots αs} {name : String}
    (h : fs.isMet slots name) : name ∈ fs.names := by
  induction fs with
  | nil => cases h
  | cons f fs ih =>
    unfold isMet at h
    split at h
    · rename_i hname
      exact hname ▸ List.mem_cons_self
    · exact List.mem_cons_of_mem f.name (ih h)

theorem isMet_put {fs : Fields αs} {name : String} {s : List Char} (h : fs.Fits name s)
    (slots : Slots αs) (n : String) :
    fs.isMet (fs.put name s slots) n = (fs.isMet slots n || (n = name && n ∈ fs.names)) := by
  induction fs with
  | nil => simp [isMet, names]
  | cons f fs ih =>
    obtain ⟨slot, slots⟩ := slots
    unfold Fits at h
    unfold put
    split at h
    · rename_i hname
      obtain ⟨a, ha⟩ := h
      rw [if_pos hname, ha.value]
      simp only [isMet, names, List.mem_cons]
      split <;> grind
    · rename_i hname
      rw [if_neg hname]
      have := ih h slots
      simp only [isMet, names, List.mem_cons]
      split <;> grind

/-! ## All members -/

/-- The slots after all members are met, unless one is met twice. -/
def meet (fs : Fields αs) : Slots αs → List Member → Except ReadError (Slots αs)
  | slots, [] => .ok slots
  | slots, m :: ms =>
    if fs.isMet slots m.name then .error (.mismatch (.duplicateField m.name))
    else fs.meet (fs.put m.name m.value slots) ms

theorem exists_nextMember_label {name : String} {label : List Char}
    (h : Padded (SpellsText name) label) {w : List Char} (hw : Blanks w) : ∃ w', Blanks w' ∧
      ∀ r, nextMember false (w ++ ',' :: (label ++ r)) = .ok (some name, w' ++ r) := by
  obtain ⟨u, t, w', hu, ⟨ps, hps, rfl⟩, hw', rfl⟩ := h
  refine ⟨w', hw', fun r => ?_⟩
  simp only [List.append_assoc, List.cons_append, List.nil_append]
  rw [nextMember, skipBlanks_append_cons hw rfl]
  show nextName (skipBlanks _) = _
  rw [skipBlanks_append_cons hu rfl]
  exact bind_eq_ok.2 ⟨_, readText_of_spells hps _, rfl⟩

/-- **The members of an object are met one after the other,** up to the brace that ends them. -/
theorem readMembers_eq_meet {fs : Fields αs} {ms : List Member} (hms : ∀ m ∈ ms, m.Holds fs.Fits)
    (slots : Slots αs) {w : List Char} (hw : Blanks w) (r : List Char) :
    fs.readMembers false slots (w ++ (laterMembers ms ++ '\x7d' :: r)) = (do
      let slots ← fs.meet slots ms
      return (slots, r)) := by
  induction ms generalizing slots w with
  | nil =>
    refine readMembers_of_none ?_
    rw [laterMembers, List.flatMap_nil, List.nil_append, nextMember, skipBlanks_append_cons hw rfl]
    rfl
  | cons m ms ih =>
    have hm := hms m List.mem_cons_self
    obtain ⟨w', hw', hlabel⟩ := exists_nextMember_label hm.label hw
    have hnext : nextMember false (w ++ (laterMembers (m :: ms) ++ '\x7d' :: r)) =
        .ok (some m.name, w' ++ ':' :: (m.before ++ m.value ++
          (m.after ++ (laterMembers ms ++ '\x7d' :: r)))) := by
      rw [← hlabel]
      simp [laterMembers, Member.text]
    rw [meet]
    split
    · rename_i hmet
      exact readMembers_of_member_error hnext (readMember_of_isMet hmet _)
    · rename_i hmet
      have hends := (ends_laterMembers ms r).append_blanks hm.after
      have hread := readMember_fits hm.value (Bool.not_eq_true _ ▸ hmet) hw' hm.before hends
      rw [readMembers_of_some hnext hread]
      exact ih (fun m' hm' => hms m' (List.mem_cons_of_mem m hm')) _ hm.after

end Fields

theorem Record.run_blanks {α : Type} (d : Record α) {w : List Char} (hw : Blanks w)
    (s : List Char) : d.reader.run (w ++ s) = d.reader.run s := by
  rw [Record.reader]
  dsimp only
  rw [skipBlanks_append hw]

/-- **An object is read by meeting its members,** whatever follows it. -/
theorem Record.run_members {α : Type} (d : Record α) {ms : List Member} {s : List Char}
    (hs : IsObject ms s) (hms : ∀ m ∈ ms, m.Holds d.fields.Fits) {w : List Char} (hw : Blanks w)
    (r : List Char) : d.reader.run (w ++ s ++ r) = (do
      let slots ← d.fields.meet d.fields.noSlots ms
      return (d.ofValues (← d.fields.complete slots), r)) := by
  rw [List.append_assoc, d.run_blanks hw]
  cases hs with
  | @empty u hu =>
    have hnext : Fields.nextMember true (u ++ '\x7d' :: r) = .ok (none, r) := by
      rw [Fields.nextMember, skipBlanks_append_cons hu rfl]
      rfl
    rw [List.cons_append, List.append_assoc, d.run_object]
    exact congrArg (· >>= _) (Fields.readMembers_of_none hnext)
  | full m ms =>
    have hquote : ∀ c ∈ (skipBlanks (m.text ++ laterMembers ms ++ '\x7d' :: r)).head?, c = '"' := by
      obtain ⟨u, t, u', hu, ⟨ps, -, rfl⟩, -, hlabel⟩ := (hms m List.mem_cons_self).label
      simp only [Member.text, hlabel, List.append_assoc, List.cons_append]
      rw [skipBlanks_append_cons hu rfl]
      exact fun c hc => (Option.some.inj hc).symm
    have hlater : ',' :: (m.text ++ laterMembers ms ++ '\x7d' :: r) =
        [] ++ (laterMembers (m :: ms) ++ '\x7d' :: r) := by
      simp [laterMembers]
    rw [List.cons_append, List.append_assoc, d.run_object, intercalate_text, List.singleton_append,
      Fields.readMembers_congr (Fields.nextMember_first hquote), hlater,
      Fields.readMembers_eq_meet hms d.fields.noSlots Blanks.nil r]
    simp only [bind_assoc, pure_bind]

/-! ## Fields that are held once -/

namespace Fields

variable {αs : List Type}

/-- The slots in which the fields with the given names are filled. -/
def filled : {αs : List Type} → Fields αs → Values αs → (met : List String) → Slots αs
  | _, nil, (), _ => ()
  | _, cons f fs, (a, as), met => (if f.name ∈ met then some a else none, fs.filled as met)

/-- Whether the texts under the names of the fields are read as the given values. -/
def Takes : {αs : List Type} → Fields αs → (p : String → List Char → Prop) → Values αs → Prop
  | _, nil, _, () => True
  | _, cons f fs, p, (a, as) => (∀ s, p f.name s → f.format.Takes s a) ∧ fs.Takes p as

theorem filled_nil (fs : Fields αs) (as : Values αs) : fs.filled as [] = fs.noSlots := by
  induction fs with
  | nil => rfl
  | cons f fs ih => exact congrArg (none, ·) (ih as.2)

theorem filled_congr {fs : Fields αs} {met met' : List String}
    (h : ∀ name ∈ fs.names, name ∈ met ↔ name ∈ met') (as : Values αs) :
    fs.filled as met = fs.filled as met' := by
  induction fs with
  | nil => rfl
  | cons f fs ih =>
    obtain ⟨hname, hnames⟩ := List.forall_mem_cons.1 h
    rw [filled, filled, ih hnames]
    simp only [hname]

theorem isMet_filled (fs : Fields αs) (as : Values αs) (met : List String) (name : String) :
    fs.isMet (fs.filled as met) name = (name ∈ fs.names && name ∈ met) := by
  induction fs with
  | nil => simp [isMet, names]
  | cons f fs ih =>
    simp only [isMet, filled, names, List.mem_cons]
    split <;> grind

theorem put_filled {fs : Fields αs} {p : String → List Char → Prop} {as : Values αs}
    (h : fs.Takes p as) (hdistinct : fs.names.Nodup) {name : String} {s : List Char}
    (hs : p name s) (met : List String) :
    fs.put name s (fs.filled as met) = fs.filled as (met ++ [name]) := by
  induction fs with
  | nil => rfl
  | cons f fs ih =>
    obtain ⟨a, as⟩ := as
    obtain ⟨hf, hfs⟩ := h
    obtain ⟨hnew, hdistinct⟩ := List.nodup_cons.1 hdistinct
    simp only [put, filled]
    split
    · rename_i hname
      subst hname
      have hmem : f.name ∈ met ++ [f.name] := List.mem_append_right met List.mem_cons_self
      have hrest : fs.filled as met = fs.filled as (met ++ [f.name]) := by
        refine filled_congr (fun n hn => ?_) as
        have hne : n ≠ f.name := fun h => hnew (h ▸ hn)
        simp [hne]
      rw [(hf s hs).value, if_pos hmem, hrest]
    · rename_i hname
      have hmet : f.name ∈ met ++ [name] ↔ f.name ∈ met := by simp [hname]
      simp only [ih hfs hdistinct, hmet]

/-- **Members that hold different fields fill them,** in any order. -/
theorem meet_filled {fs : Fields αs} {p : String → List Char → Prop} {as : Values αs}
    (h : fs.Takes p as) (hdistinct : fs.names.Nodup) {ms : List Member}
    (hms : ∀ m ∈ ms, m.Holds p) {met : List String}
    (honce : ∀ name ∈ fs.names, (met ++ ms.map Member.name).count name ≤ 1) :
    fs.meet (fs.filled as met) ms = .ok (fs.filled as (met ++ ms.map Member.name)) := by
  induction ms generalizing met with
  | nil => rw [List.map_nil, List.append_nil, meet]
  | cons m ms ih =>
    have hmet : fs.isMet (fs.filled as met) m.name = false := by
      rw [isMet_filled, Bool.and_eq_false_imp, decide_eq_false_iff_not]
      intro hname hmem
      have hcount := honce m.name (of_decide_eq_true hname)
      have hpos := List.count_pos_iff.2 hmem
      rw [List.count_append, List.map_cons, List.count_cons_self] at hcount
      omega
    have hnames : met ++ (m :: ms).map Member.name = met ++ [m.name] ++ ms.map Member.name := by
      simp
    rw [meet, if_neg (by rw [hmet]; decide),
      put_filled h hdistinct (hms m List.mem_cons_self).value, hnames]
    rw [hnames] at honce
    exact ih (fun m' hm' => hms m' (List.mem_cons_of_mem m hm')) honce

/-! ## Fields that are held twice -/

/-- **A field that is held twice is refused.** -/
theorem exists_meet_of_repeated {fs : Fields αs} {ms : List Member}
    (hms : ∀ m ∈ ms, m.Holds fs.Fits) {slots : Slots αs} {name : String} (hname : name ∈ fs.names)
    (h : 2 ≤ (ms.map Member.name).count name + (if fs.isMet slots name then 1 else 0)) :
    ∃ name ∈ fs.names, 2 ≤ (ms.map Member.name).count name +
      (if fs.isMet slots name then 1 else 0) ∧
        fs.meet slots ms = .error (.mismatch (.duplicateField name)) := by
  induction ms generalizing slots with
  | nil =>
    simp only [List.map_nil, List.count_nil] at h
    split at h <;> omega
  | cons m ms ih =>
    rw [meet]
    by_cases hmet : fs.isMet slots m.name
    · refine ⟨m.name, mem_names_of_isMet hmet, ?_, if_pos hmet⟩
      rw [List.map_cons, List.count_cons_self, if_pos hmet]
      omega
    · have hm := hms m List.mem_cons_self
      -- what is met by this member is not met by a later one
      have hmove : ∀ n ∈ fs.names, ((m :: ms).map Member.name).count n +
          (if fs.isMet slots n then 1 else 0) = (ms.map Member.name).count n +
            (if fs.isMet (fs.put m.name m.value slots) n then 1 else 0) := by
        intro n hn
        rw [isMet_put hm.value, List.map_cons, List.count_cons]
        grind
      rw [hmove name hname] at h
      obtain ⟨n, hn, htwice, hmeet⟩ := ih (fun m' hm' => hms m' (List.mem_cons_of_mem m hm')) h
      exact ⟨n, hn, hmove n hn ▸ htwice, by rw [if_neg hmet, hmeet]⟩

/-! ## The end of an object -/

/-- The names of the fields without a default. -/
def required : {αs : List Type} → Fields αs → List String
  | _, nil => []
  | _, cons f fs => if f.default.isSome then fs.required else f.name :: fs.required

/-- The values of the fields with the given names, and the defaults of the others. -/
def overlay : {αs : List Type} → Fields αs → (held : List String) → Values αs → Values αs
  | _, nil, _, () => ()
  | _, cons f fs, held, (a, as) =>
    (if f.name ∈ held then a else f.default.getD a, fs.overlay held as)

/-- Nothing is left to the defaults if all fields are held. -/
theorem overlay_of_subset {fs : Fields αs} {held : List String}
    (h : ∀ name ∈ fs.names, name ∈ held) (as : Values αs) : fs.overlay held as = as := by
  induction fs with
  | nil => rfl
  | cons f fs ih =>
    obtain ⟨hname, hnames⟩ := List.forall_mem_cons.1 h
    rw [overlay, if_pos hname, ih hnames]

theorem required_subset (fs : Fields αs) : fs.required ⊆ fs.names := by
  induction fs with
  | nil => exact List.Subset.refl _
  | cons f fs ih =>
    rw [required, names]
    split
    · exact List.subset_cons_of_subset f.name ih
    · exact List.cons_subset_cons f.name ih

theorem slot_or_default {α : Type} (f : Field α) (a : α) {held : List String}
    (h : f.name ∈ held ∨ f.default.isSome) :
    ((if f.name ∈ held then some a else none) <|> f.default) =
      some (if f.name ∈ held then a else f.default.getD a) := by
  by_cases hheld : f.name ∈ held
  · rw [if_pos hheld, if_pos hheld]
    rfl
  · obtain ⟨b, hb⟩ := Option.isSome_iff_exists.1 (h.resolve_left hheld)
    rw [if_neg hheld, if_neg hheld, hb]
    rfl

/-- **An object that holds all required fields is complete.** -/
theorem complete_filled {fs : Fields αs} {held : List String}
    (h : ∀ name ∈ fs.required, name ∈ held) (as : Values αs) :
    fs.complete (fs.filled as held) = .ok (fs.overlay held as) := by
  induction fs with
  | nil => rfl
  | cons f fs ih =>
    obtain ⟨a, as⟩ := as
    have hslot : f.name ∈ held ∨ f.default.isSome := by
      by_cases hdefault : f.default.isSome
      · exact .inr hdefault
      · exact .inl (h f.name (by rw [required, if_neg hdefault]; exact List.mem_cons_self))
    have hrest : ∀ name ∈ fs.required, name ∈ held := by
      intro name hname
      refine h name ?_
      rw [required]
      split
      · exact hname
      · exact List.mem_cons_of_mem f.name hname
    simp only [complete, filled, overlay, slot_or_default f a hslot]
    exact bind_eq_ok.2 ⟨_, ih hrest as, rfl⟩

/-- **The first required field that is missing is reported.** -/
theorem complete_of_missing {fs : Fields αs} {held : List String} {name : String}
    (h : fs.required.find? (· ∉ held) = some name) (as : Values αs) :
    fs.complete (fs.filled as held) = .error (.mismatch (.missingField name)) := by
  induction fs with
  | nil => cases h
  | cons f fs ih =>
    obtain ⟨a, as⟩ := as
    by_cases hslot : f.name ∈ held ∨ f.default.isSome
    · have hrest : fs.required.find? (· ∉ held) = some name := by
        rw [required] at h
        split at h
        · exact h
        · rename_i hdefault
          rwa [List.find?_cons_of_neg] at h
          simpa using hslot.resolve_right hdefault
      simp only [complete, filled, slot_or_default f a hslot, ih hrest]
      rfl
    · obtain ⟨hheld, hdefault⟩ := not_or.1 hslot
      rw [required, if_neg hdefault, List.find?_cons_of_pos (by simpa using hheld)] at h
      cases h
      rw [Bool.not_eq_true, Option.isSome_eq_false_iff, Option.isNone_iff_eq_none] at hdefault
      simp only [complete, filled, if_neg hheld, hdefault]
      rfl

end Fields

end TopCharts.Json
