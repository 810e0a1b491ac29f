import TopCharts.Json.Record
import TopCharts.Proofs.Json.Format

/-!
# Reading a written record back

* `Fields.Faithful` : the formats of the fields are faithful and their names differ;
* `Fields.met n as` : the slots in which the first `n` fields of a record are filled;
* `exists_readMember` : with `n` fields met, the member of the next field is read by the format of
  that field, and its value goes into the slot of that field;
* `readMember_write`, `readMember_of_cut` : so it is read back, and if it is cut it is refused, or
  nothing is left after it;
* `readMembers_write`, `readMembers_of_cut` : all members are read back, up to the brace that ends
  them, and they are refused if they are cut before it;
* `Record.closed` : written records are read back and show where they end.
-/

namespace TopCharts.Json

open Attempt

/-! ## Members -/

theorem intercalate_comma (t : List Char) (ts : List (List Char)) :
    [','].intercalate (t :: ts) = t ++ ts.flatMap fun t => ',' :: t := by
  induction ts generalizing t with
  | nil => simp
  | cons t' ts ih => rw [List.intercalate_cons_cons, ih, List.flatMap_cons, List.append_assoc]; rfl

def member (m : String × List Char) : List Char :=
  writeText m.1 ++ ':' :: m.2

def moreMembers (ms : List (String × List Char)) : List Char :=
  ms.flatMap fun m => ',' :: member m

theorem moreMembers_cons (m : String × List Char) (ms : List (String × List Char)) :
    moreMembers (m :: ms) = ',' :: (member m ++ moreMembers ms) :=
  rfl

theorem intercalate_members (m : String × List Char) (ms : List (String × List Char)) :
    [','].intercalate ((m :: ms).map member) = member m ++ moreMembers ms := by
  rw [List.map_cons, intercalate_comma, List.flatMap_map]
  rfl

theorem writeObject_eq (ms : List (String × List Char)) :
    writeObject ms = '\x7b' :: [','].intercalate (ms.map member) ++ ['\x7d'] :=
  rfl

theorem ends_moreMembers (ms : List (String × List Char)) (r : List Char) :
    Ends (moreMembers ms ++ '\x7d' :: r) := by
  cases ms with
  | nil => exact ends_cons rfl (by decide)
  | cons m ms => exact ends_cons rfl (by decide)

theorem Ends.of_cut {p s : List Char} (hs : Ends s) (hp : Cut p s) : Ends p := by
  obtain ⟨t, -, rfl⟩ := hp
  cases p with
  | nil => exact ends_nil
  | cons c p => exact hs

theorem printable_member {m : String × List Char} (h : ∀ c ∈ m.2, 0x20 ≤ c.toNat) :
    ∀ c ∈ member m, 0x20 ≤ c.toNat := by
  intro c hc
  rw [member, List.mem_append, List.mem_cons] at hc
  rcases hc with hc | rfl | hc
  · exact printable_writeText m.1 c hc
  · decide
  · exact h c hc

theorem printable_writeObject {ms : List (String × List Char)}
    (h : ∀ m ∈ ms, ∀ c ∈ m.2, 0x20 ≤ c.toNat) : ∀ c ∈ writeObject ms, 0x20 ≤ c.toNat := by
  have hmore : ∀ l : List (String × List Char), (∀ m ∈ l, ∀ c ∈ m.2, 0x20 ≤ c.toNat) →
      ∀ c ∈ moreMembers l, 0x20 ≤ c.toNat := by
    intro l hl c hc
    obtain ⟨m, hm, hc⟩ := List.mem_flatMap.1 hc
    rcases List.mem_cons.1 hc with rfl | hc
    · decide
    · exact printable_member (hl m hm) c hc
  have hmembers : ∀ c ∈ [','].intercalate (ms.map member), 0x20 ≤ c.toNat := by
    cases ms with
    | nil => exact fun c hc => absurd hc List.not_mem_nil
    | cons m ms =>
      rw [intercalate_members]
      intro c hc
      rcases List.mem_append.1 hc with hc | hc
      · exact printable_member (h m List.mem_cons_self) c hc
      · exact hmore ms (fun m' hm => h m' (List.mem_cons_of_mem m hm)) c hc
  intro c hc
  rw [writeObject_eq, List.mem_append, List.mem_cons, List.mem_singleton] at hc
  rcases hc with (rfl | hc) | rfl
  · decide
  · exact hmembers c hc
  · decide

namespace Fields

variable {αs : List Type}

/-! ## Fields met so far -/

def names : {αs : List Type} → Fields αs → List String
  | _, nil => []
  | _, cons f fs => f.name :: fs.names

def AllFaithful : {αs : List Type} → Fields αs → Prop
  | _, nil => True
  | _, cons f fs => f.format.Faithful ∧ fs.AllFaithful

structure Faithful (fs : Fields αs) : Prop where
  formats : fs.AllFaithful
  distinct : fs.names.Nodup

theorem Faithful.tail {α : Type} {f : Field α} {fs : Fields αs} (h : (cons f fs).Faithful) :
    fs.Faithful :=
  ⟨h.formats.2, (List.nodup_cons.1 h.distinct).2⟩

/-- The first `n` fields of a record. -/
def met : {αs : List Type} → (fs : Fields αs) → Nat → Values αs → Slots αs
  | _, nil, _, () => ()
  | _, cons _ fs, 0, _ => (none, fs.noSlots)
  | _, cons _ fs, n + 1, (a, as) => (some a, fs.met n as)

theorem met_zero (fs : Fields αs) (as : Values αs) : fs.met 0 as = fs.noSlots := by
  cases fs <;> rfl

theorem map_fst_write (fs : Fields αs) (as : Values αs) :
    (fs.write as).map Prod.fst = fs.names := by
  induction fs with
  | nil => rfl
  | cons f fs ih => exact congrArg (f.name :: ·) (ih as.2)

theorem complete_met (fs : Fields αs) {n : Nat} (as : Values αs) (h : (fs.write as).length ≤ n) :
    fs.complete (fs.met n as) = .ok as := by
  induction fs generalizing n with
  | nil => rfl
  | cons f fs ih =>
    obtain ⟨a, as⟩ := as
    cases n with
    | zero => exact absurd h (Nat.not_succ_le_zero _)
    | succ n =>
      have hrest := ih as (Nat.le_of_succ_le_succ h)
      exact bind_eq_ok.2 ⟨as, hrest, rfl⟩

theorem printable_write {fs : Fields αs} (h : fs.AllFaithful) (as : Values αs) :
    ∀ m ∈ fs.write as, ∀ c ∈ m.2, 0x20 ≤ c.toNat := by
  induction fs with
  | nil => exact fun m hm => absurd hm List.not_mem_nil
  | cons f fs ih =>
    obtain ⟨a, as⟩ := as
    intro m hm
    rcases List.mem_cons.1 hm with rfl | hm
    · exact h.1.printable a
    · exact ih h.2 as m hm

/-- With the fields before it met, a field's member is read by the format of the field. -/
theorem exists_readMember {fs : Fields αs} (h : fs.Faithful) {as : Values αs} {n : Nat}
    {name : String} {value : List Char} (hm : (fs.write as)[n]? = some (name, value)) :
    ∃ (α : Type) (f : Format α) (a : α) (fill : α → Slots αs), f.Faithful ∧ f.write a = value ∧
      fill a = fs.met (n + 1) as ∧ ∀ s, fs.readMember name (fs.met n as) s = (do
        let read ← f.reader.run (← takeColon s)
        return (fill read.1, read.2)) := by
  induction fs generalizing n with
  | nil => cases hm
  | @cons α αs f fs ih =>
    obtain ⟨a, as⟩ := as
    cases n with
    | zero =>
      cases hm
      refine ⟨α, f.format, a, fun b => (some b, fs.noSlots), h.formats.1, rfl, ?_, fun s => ?_⟩
      · exact congrArg (some a, ·) (met_zero fs as).symm
      · exact if_pos rfl
    | succ n =>
      have hm : (fs.write as)[n]? = some (name, value) := hm
      obtain ⟨β, g, b, fill, hg, hvalue, hfill, hread⟩ := ih h.tail hm
      have hne : f.name ≠ name := by
        rintro rfl
        have hmem := List.mem_map_of_mem (f := Prod.fst) (List.mem_of_getElem? hm)
        rw [map_fst_write] at hmem
        exact (List.nodup_cons.1 h.distinct).1 hmem
      refine ⟨β, g, b, fun b => (some a, fill b), hg, hvalue, congrArg (some a, ·) hfill,
        fun s => ?_⟩
      show (if f.name = name then _ else _) = _
      rw [if_neg hne, hread]
      simp

section

variable {fs : Fields αs} {as : Values αs} {n : Nat} {name : String} {value : List Char}

/-- **A member is read back,** whatever follows it. -/
theorem readMember_write (h : fs.Faithful) (hm : (fs.write as)[n]? = some (name, value))
    {r : List Char} (hr : Ends r) :
    fs.readMember name (fs.met n as) (':' :: value ++ r) = .ok (fs.met (n + 1) as, r) := by
  obtain ⟨α, f, a, fill, hf, rfl, hfill, hread⟩ := exists_readMember h hm
  rw [hread, List.cons_append, takeColon, skipBlanks_cons rfl, ← hfill]
  exact bind_eq_ok.2 ⟨_, rfl, bind_eq_ok.2 ⟨(a, r), hf.read_write a hr, rfl⟩⟩

/-- **A member that is cut** is refused, or nothing is left after it: a number may be read all the
same. -/
theorem readMember_of_cut (h : fs.Faithful) (hm : (fs.write as)[n]? = some (name, value))
    {p : List Char} (hp : Cut p (':' :: value)) :
    (∃ e, fs.readMember name (fs.met n as) p = .error e) ∨
      ∃ slots, fs.readMember name (fs.met n as) p = .ok (slots, []) := by
  obtain ⟨α, f, a, fill, hf, rfl, -, hread⟩ := exists_readMember h hm
  rcases hp.cons with rfl | ⟨q, rfl, hq⟩
  · left
    refine ⟨.truncated, ?_⟩
    rw [hread]
    rfl
  rw [hread, takeColon, skipBlanks_cons rfl]
  cases hrun : f.reader.run q with
  | error e =>
    refine .inl ⟨e, ?_⟩
    show (f.reader.run q >>= _) = _
    rw [hrun]
    rfl
  | ok next =>
    obtain ⟨b, r⟩ := next
    cases hf.read_cut a hq hrun
    exact .inr ⟨fill b, bind_eq_ok.2 ⟨_, rfl, bind_eq_ok.2 ⟨(b, []), hrun, rfl⟩⟩⟩

end

/-! ## Objects -/

theorem readMembers_of_error {fs : Fields αs} {first : Bool} {slots : Slots αs} {s : List Char}
    {e : ReadError} (h : nextMember first s = .error e) :
    fs.readMembers first slots s = .error e := by
  unfold readMembers
  split <;> simp_all

theorem readMembers_of_none {fs : Fields αs} {first : Bool} {slots : Slots αs} {s r : List Char}
    (h : nextMember first s = .ok (none, r)) : fs.readMembers first slots s = .ok (slots, r) := by
  unfold readMembers
  split <;> simp_all

theorem readMembers_of_some {fs : Fields αs} {first : Bool} {slots slots' : Slots αs}
    {name : String} {s r t : List Char} (h : nextMember first s = .ok (some name, r))
    (hm : fs.readMember name slots r = .ok (slots', t)) :
    fs.readMembers first slots s = fs.readMembers false slots' t := by
  rw [readMembers]
  split <;> simp_all
  split <;> simp_all

theorem readMembers_of_member_error {fs : Fields αs} {first : Bool} {slots : Slots αs}
    {name : String} {s r : List Char} {e : ReadError} (h : nextMember first s = .ok (some name, r))
    (hm : fs.readMember name slots r = .error e) :
    fs.readMembers first slots s = .error e := by
  rw [readMembers]
  split <;> simp_all
  split <;> simp_all

theorem nextMember_brace (first : Bool) (r : List Char) :
    nextMember first ('\x7d' :: r) = .ok (none, r) := by
  rw [nextMember, skipBlanks_cons rfl]
  rfl

theorem nextMember_comma (r : List Char) :
    nextMember false (',' :: r) = nextName (skipBlanks r) := by
  rw [nextMember, skipBlanks_cons rfl]
  rfl

theorem nextMember_comma_text (name : String) (r : List Char) :
    nextMember false (',' :: (writeText name ++ r)) = .ok (some name, r) := by
  rw [nextMember_comma, writeText_append, skipBlanks_quote, nextName, readText_flatMap_writeChar]
  rfl

theorem nextMember_comma_of_cut {name : String} {p : List Char} (hp : Cut p (writeText name)) :
    ∃ e, nextMember false (',' :: p) = .error e := by
  rw [nextMember_comma]
  rcases cut_writeText hp with rfl | ⟨q, rfl, e, he⟩
  · exact ⟨_, rfl⟩
  · refine ⟨e, ?_⟩
    rw [skipBlanks_quote, nextName, he]
    rfl

theorem nextMember_first {p : List Char} (hp : ∀ c ∈ (skipBlanks p).head?, c = '"') :
    nextMember true p = nextMember false (',' :: p) := by
  rw [nextMember_comma, nextMember]
  cases h : skipBlanks p with
  | nil => rfl
  | cons c r =>
    rw [h] at hp
    cases hp c rfl
    rfl

theorem readMembers_congr {fs : Fields αs} {first first' : Bool} {slots : Slots αs}
    {s s' : List Char} (h : nextMember first s = nextMember first' s') :
    fs.readMembers first slots s = fs.readMembers first' slots s' := by
  cases hn : nextMember first' s' with
  | error e => rw [readMembers_of_error hn, readMembers_of_error (h.trans hn)]
  | ok next =>
    obtain ⟨name | name, r⟩ := next
    · rw [readMembers_of_none hn, readMembers_of_none (h.trans hn)]
    · cases hm : fs.readMember name slots r with
      | error e => rw [readMembers_of_member_error hn hm,
          readMembers_of_member_error (h.trans hn) hm]
      | ok next => rw [readMembers_of_some hn hm, readMembers_of_some (h.trans hn) hm]

theorem getElem?_of_drop_eq_cons {α : Type} {xs l : List α} {x : α} {n : Nat}
    (h : xs.drop n = x :: l) : xs[n]? = some x ∧ xs.drop (n + 1) = l := by
  rw [← List.head?_drop, ← List.tail_drop, h]
  exact ⟨rfl, rfl⟩

theorem readMembers_more {fs : Fields αs} (h : fs.Faithful) (as : Values αs) (r : List Char)
    {l : List (String × List Char)} {n : Nat} (hl : (fs.write as).drop n = l) :
    fs.readMembers false (fs.met n as) (moreMembers l ++ '\x7d' :: r) =
      .ok (fs.met (n + l.length) as, r) := by
  induction l generalizing n with
  | nil => exact readMembers_of_none (nextMember_brace false r)
  | cons m l ih =>
    obtain ⟨name, value⟩ := m
    obtain ⟨hm, hl'⟩ := getElem?_of_drop_eq_cons hl
    have hnext : nextMember false (moreMembers ((name, value) :: l) ++ '\x7d' :: r) =
        .ok (some name, ':' :: value ++ (moreMembers l ++ '\x7d' :: r)) := by
      rw [moreMembers_cons, member]
      simpa using nextMember_comma_text name _
    have hvalue := readMember_write h hm (ends_moreMembers l r)
    rw [readMembers_of_some hnext hvalue, ih hl', List.length_cons, Nat.add_right_comm,
      Nat.add_assoc]

/-- Members that are cut before the closing brace are refused. -/
theorem readMembers_of_cut_more {fs : Fields αs} (h : fs.Faithful) (as : Values αs)
    {l : List (String × List Char)} {n : Nat} (hl : (fs.write as).drop n = l) {p : List Char}
    (hp : Cut p (moreMembers l ++ ['\x7d'])) :
    ∃ e, fs.readMembers false (fs.met n as) p = .error e := by
  induction l generalizing n p with
  | nil =>
    rcases hp.cons with rfl | ⟨q, -, hq⟩
    · exact ⟨_, readMembers_of_error rfl⟩
    · exact absurd hq (not_cut_nil q)
  | cons m l ih =>
    obtain ⟨name, value⟩ := m
    obtain ⟨hm, hl'⟩ := getElem?_of_drop_eq_cons hl
    have hp : Cut p (',' :: (writeText name ++
        (':' :: value ++ (moreMembers l ++ ['\x7d'])))) := by
      rw [moreMembers_cons, member] at hp
      simpa using hp
    rcases hp.cons with rfl | ⟨p', rfl, hp'⟩
    · exact ⟨_, readMembers_of_error rfl⟩
    rcases hp'.append with hname | ⟨p'', rfl, hp''⟩
    · obtain ⟨e, he⟩ := nextMember_comma_of_cut hname
      exact ⟨e, readMembers_of_error he⟩
    have hnext := nextMember_comma_text name p''
    rcases hp''.append with hmember | ⟨q, rfl, hq⟩
    · obtain ⟨e, hread⟩ | ⟨slots, hread⟩ := readMember_of_cut h hm hmember
      · exact ⟨e, readMembers_of_member_error hnext hread⟩
      · rw [readMembers_of_some hnext hread]
        exact ⟨_, readMembers_of_error rfl⟩
    · have hends : Ends q := (ends_moreMembers l []).of_cut hq
      rw [readMembers_of_some hnext (readMember_write h hm hends)]
      exact ih hl' hq

/-- **The members of a written record are read back.** -/
theorem readMembers_write {fs : Fields αs} (h : fs.Faithful) (as : Values αs) (r : List Char) :
    fs.readMembers true fs.noSlots ([','].intercalate ((fs.write as).map member) ++ '\x7d' :: r) =
      .ok (fs.met (fs.write as).length as, r) := by
  rw [← met_zero fs as]
  cases hl : fs.write as with
  | nil => exact readMembers_of_none (nextMember_brace true r)
  | cons m l =>
    have hfirst := nextMember_first (p := member m ++ moreMembers l ++ '\x7d' :: r)
      fun c hc => (Option.some.inj hc).symm
    have hmore := readMembers_more h as r (n := 0) hl
    rw [intercalate_members, readMembers_congr hfirst, ← hl]
    simpa [hl, moreMembers_cons] using hmore

/-- **The members of a written record are refused if they are cut.** -/
theorem readMembers_of_cut {fs : Fields αs} (h : fs.Faithful) (as : Values αs) {p : List Char}
    (hp : Cut p ([','].intercalate ((fs.write as).map member) ++ ['\x7d'])) :
    ∃ e, fs.readMembers true fs.noSlots p = .error e := by
  rw [← met_zero fs as]
  cases hl : fs.write as with
  | nil =>
    rw [hl] at hp
    rcases hp.cons with rfl | ⟨q, -, hq⟩
    · exact ⟨_, readMembers_of_error rfl⟩
    · exact absurd hq (not_cut_nil q)
  | cons m l =>
    rw [hl, intercalate_members] at hp
    have hquote : ∀ c ∈ (skipBlanks p).head?, c = '"' := by
      obtain ⟨t, -, ht⟩ := hp
      intro c hc
      cases p with
      | nil => cases hc
      | cons d p =>
        cases (List.cons.inj ht).1
        cases hc
        rfl
    have hcut : Cut (',' :: p) (moreMembers (m :: l) ++ ['\x7d']) := by
      obtain ⟨t, ht, hp⟩ := hp
      exact ⟨t, ht, congrArg (',' :: ·) hp⟩
    rw [readMembers_congr (nextMember_first hquote)]
    exact readMembers_of_cut_more h as (n := 0) hl hcut

end Fields

/-! ## Records -/

variable {α : Type}

theorem Record.run_object (d : Record α) (r : List Char) : d.reader.run ('\x7b' :: r) = (do
    let (slots, r) ← d.fields.readMembers true d.fields.noSlots r
    return (d.ofValues (← d.fields.complete slots), r)) := by
  rw [Record.reader]
  dsimp only
  rw [skipBlanks_cons rfl]
  rfl

/-- **Written records are read back, and refused if they are cut.** -/
theorem Record.closed (d : Record α) (h : d.fields.Faithful) : d.format.Closed where
  read_write a r := by
    show d.reader.run (writeObject (d.fields.write (d.toValues a)) ++ r) = _
    have hmembers := Fields.readMembers_write h (d.toValues a) r
    have hcomplete := d.fields.complete_met (d.toValues a) (Nat.le_refl _)
    rw [writeObject_eq, List.append_assoc, List.cons_append, d.run_object]
    refine bind_eq_ok.2 ⟨_, hmembers, bind_eq_ok.2 ⟨_, hcomplete, ?_⟩⟩
    rw [d.ofValues_toValues]
    rfl
  refuses_cut a p hp := by
    rcases hp.cons with rfl | ⟨q, rfl, hq⟩
    · exact ⟨.truncated, rfl⟩
    · obtain ⟨e, he⟩ := Fields.readMembers_of_cut h (d.toValues a) hq
      refine ⟨e, ?_⟩
      show d.reader.run _ = _
      rw [d.run_object, he]
      rfl
  printable a := printable_writeObject (Fields.printable_write h.formats (d.toValues a))
  edges a := ⟨'\x7b', _, '\x7d', rfl, .inr (.inl rfl), .inr (.inr rfl)⟩

end TopCharts.Json
