import TopCharts.Proofs.Feed.RoundTrip
import TopCharts.Proofs.Json.Accepted

/-!
# The accepted spellings of the records of feeds agree

* `Play.spellings`, …, `Update.spellings` : how the fields of plays, songs, play counts, page views,
  windows, entries and updates may be spelled. Numbers are written in one way, strings with any
  escapes, a change as a name or an object, and the entry of an update as an object or an array;
* `Feed.Decodes` : what becomes of a line with a text between blanks;
* `Feed.SpellingsAgree` : objects with all fields and arrays of all fields are read as the record,
  objects without a required field or with a field twice are refused with its name;
* `Feed.spellings_agree` : so it is for all records of feeds, and a play without a region, or a page
  view without flags, is read with empty ones.
-/

namespace TopCharts

open Json

/-! ## Spellings -/

def Play.spellings : Spellings Play.record.types :=
  (Written .int, Written (.word "u64"), SpellsText, ())

def Song.spellings : Spellings Song.record.types :=
  (Written .int, SpellsText, SpellsText, SpellsText, SpellsText, ())

def PlayCount.spellings : Spellings PlayCount.record.types :=
  (Written .int, Written .int, ())

def PageView.spellings : Spellings PageView.record.types :=
  (SpellsText, SpellsText, SpellsText, SpellsText, Written (.word "u64"), ())

def Window.spellings : Spellings Window.record.types :=
  (SpellsText, Written (.word "u64"), ())

def Entry.spellings : Spellings Entry.record.types :=
  (Written .int, Written .int, ())

/-- The spellings of an entry, as an object with all fields or an array of them. -/
def Entry.Spelled : Spelling Entry := fun e s =>
  Entry.record.ObjectOf Entry.spellings Entry.record.fields.names e s ∨
    Entry.record.ArrayOf Entry.spellings e s

def Update.spellings : Spellings Update.record.types :=
  (SpellsText, SpellsChoice Change.name, Entry.Spelled, ())

theorem Play.accepts (p : Play) : Play.record.fields.Accepts Play.spellings
    (Play.record.toValues p) (Play.record.toValues p) :=
  ⟨Format.accepts_int, Format.accepts_word _, Format.accepts_string, trivial⟩

theorem Song.accepts (s : Song) : Song.record.fields.Accepts Song.spellings
    (Song.record.toValues s) (Song.record.toValues s) :=
  have string {t u} (h : SpellsText t u) : Format.string.Takes u t := Format.accepts_string h
  ⟨Format.accepts_int, string, string, string, string, trivial⟩

theorem PlayCount.accepts (c : PlayCount) : PlayCount.record.fields.Accepts PlayCount.spellings
    (PlayCount.record.toValues c) (PlayCount.record.toValues c) :=
  ⟨Format.accepts_int, Format.accepts_int, trivial⟩

theorem PageView.accepts (v : PageView) : PageView.record.fields.Accepts PageView.spellings
    (PageView.record.toValues v) (PageView.record.toValues v) :=
  have string {t u} (h : SpellsText t u) : Format.string.Takes u t := Format.accepts_string h
  ⟨string, string, string, string, Format.accepts_word _, trivial⟩

theorem Window.accepts (w : Window) : Window.record.fields.Accepts Window.spellings
    (Window.record.toValues w) (Window.record.toValues w) :=
  ⟨Format.accepts_string, Format.accepts_word _, trivial⟩

theorem Entry.accepts (e : Entry) : Entry.record.fields.Accepts Entry.spellings
    (Entry.record.toValues e) (Entry.record.toValues e) :=
  ⟨Format.accepts_int, Format.accepts_int, trivial⟩

theorem Change.accepts : Change.format.Accepts (SpellsChoice Change.name) :=
  Format.accepts_choice fun a => by cases a <;> rfl

theorem Entry.accepts_spelled : Entry.record.format.Accepts Entry.Spelled := by
  have hdistinct : Entry.record.fields.names.Nodup := by decide
  rintro e s (hs | hs)
  · exact Record.takes_all hdistinct Entry.accepts hs
  · exact Record.takes_items hdistinct Entry.accepts hs

theorem Update.accepts (u : Update String) : Update.record.fields.Accepts Update.spellings
    (Update.record.toValues u) (Update.record.toValues u) :=
  ⟨Format.accepts_string, Change.accepts, Entry.accepts_spelled, trivial⟩

/-! ## Lines -/

namespace Feed

variable {α : Type}

/-- Whether a line with the text between blanks has the given record, or is refused so. -/
def Decodes (f : Format α) (s : List Char) (result : Except ReadError α) : Prop :=
  ∀ before after : List Char, before.all Text.isBlank → after.all Text.isBlank →
    decodeLine f (before ++ s ++ after) = result

/-- Whether the accepted spellings of the records of a type agree. -/
structure SpellingsAgree (d : Record α) (sps : Spellings d.types) : Prop where
  /-- All fields once each, in any order, among members with unknown names. -/
  object : ∀ {a s}, d.ObjectOf sps d.fields.names a s → Decodes d.format s (.ok a)
  /-- All fields in order. -/
  array : ∀ {a s}, d.ArrayOf sps a s → Decodes d.format s (.ok a)
  /-- The first required field that is missing is reported. -/
  missing : ∀ {held a s name}, d.ObjectOf sps held a s →
    d.fields.required.find? (· ∉ held) = some name →
      Decodes d.format s (.error (.mismatch (.missingField name)))
  /-- A field that is held twice is reported, whatever its values are. -/
  repeated : ∀ {ms s name}, IsObject ms s →
    (∀ m ∈ ms, m.Holds fun n t => ∃ a, d.fields.Spelled sps (d.toValues a) n t) →
      name ∈ d.fields.names → 2 ≤ (ms.map Member.name).count name →
        ∃ name ∈ d.fields.names, 2 ≤ (ms.map Member.name).count name ∧
          Decodes d.format s (.error (.mismatch (.duplicateField name)))

theorem decodes_of_parse {f : Format α} {s : List Char} {result : Except ReadError α}
    (hs : ∃ (b : Bracket) (m : List Char), s = b.opening :: (m ++ [b.closing]))
    (hresult : f.parse s = result) : Decodes f s result := by
  obtain ⟨b, m, rfl⟩ := hs
  intro before after hbefore hafter
  have hopening : Text.isBlank b.opening = false := by cases b <;> decide
  have hclosing : Text.isBlank b.closing = false := by cases b <;> decide
  rw [← hresult]
  exact decodeLine_between f hbefore hafter hopening hclosing

theorem bracketed_of_isObject {ms : List Member} {s : List Char} (h : IsObject ms s) :
    ∃ (b : Bracket) (m : List Char), s = b.opening :: (m ++ [b.closing]) := by
  cases h <;> exact ⟨.curly, _, rfl⟩

theorem bracketed_of_objectOf {d : Record α} {sps : Spellings d.types} {held : List String} {a : α}
    {s : List Char} : d.ObjectOf sps held a s →
      ∃ (b : Bracket) (m : List Char), s = b.opening :: (m ++ [b.closing]) :=
  fun ⟨_, h, _⟩ => bracketed_of_isObject h

theorem decodes_of_takes {f : Format α} {s : List Char} {a : α}
    (hs : ∃ (b : Bracket) (m : List Char), s = b.opening :: (m ++ [b.closing]))
    (h : f.Takes s a) : Decodes f s (.ok a) := by
  have hparse := h.parse Blanks.nil Blanks.nil
  rw [List.nil_append, List.append_nil] at hparse
  exact decodes_of_parse hs hparse

theorem decodes_of_run_error {f : Format α} {s : List Char} {e : ReadError}
    (hs : ∃ (b : Bracket) (m : List Char), s = b.opening :: (m ++ [b.closing]))
    (h : f.reader.run ([] ++ s ++ []) = .error e) : Decodes f s (.error e) := by
  rw [List.nil_append, List.append_nil] at h
  exact decodes_of_parse hs (Format.parse_of_error h)

/-- The spellings agree wherever those of the fields are read as their values. -/
theorem spellingsAgree_of_accepts {d : Record α} {sps : Spellings d.types}
    (hdistinct : d.fields.names.Nodup)
    (haccepts : ∀ a, d.fields.Accepts sps (d.toValues a) (d.toValues a)) :
    SpellingsAgree d sps where
  object hs := decodes_of_takes (bracketed_of_objectOf hs) (d.takes_all hdistinct haccepts hs)
  array hs := by
    obtain ⟨ts, -, rfl⟩ := id hs
    exact decodes_of_takes ⟨.square, _, rfl⟩ (d.takes_items hdistinct haccepts hs)
  missing {held a s name} hs hname := decodes_of_run_error (bracketed_of_objectOf hs)
    (d.run_of_missing hdistinct (haccepts a) hs hname Blanks.nil)
  repeated {ms s name} hs hms hname h := by
    have hfits : ∀ m ∈ ms, m.Holds d.fields.Fits := by
      intro m hm
      obtain ⟨hlabel, hbefore, ⟨a, hvalue⟩, hafter⟩ := hms m hm
      exact ⟨hlabel, hbefore, Fields.fits_of_spelled (haccepts a) hvalue, hafter⟩
    obtain ⟨name, hname, htwice, hrun⟩ := d.exists_run_of_repeated hs hfits hname h
    exact ⟨name, hname, htwice, decodes_of_run_error (bracketed_of_isObject hs) (hrun Blanks.nil)⟩

/-- **The accepted spellings of every record agree.** -/
theorem spellings_agree :
    SpellingsAgree Play.record Play.spellings ∧ SpellingsAgree Song.record Song.spellings ∧
      SpellingsAgree PlayCount.record PlayCount.spellings ∧
      SpellingsAgree PageView.record PageView.spellings ∧
      SpellingsAgree Window.record Window.spellings ∧
      SpellingsAgree Entry.record Entry.spellings ∧
      SpellingsAgree Update.record Update.spellings ∧
      (∀ (p : Play) (s : List Char),
        Play.record.ObjectOf Play.spellings ["song_id", "duration_ms"] p s →
          Decodes Play.record.format s (.ok { p with region := "" })) ∧
      ∀ (v : PageView) (s : List Char),
        PageView.record.ObjectOf PageView.spellings ["user", "page", "industry", "ts_ms"] v s →
          Decodes PageView.record.format s (.ok { v with flags := "" }) := by
  refine ⟨spellingsAgree_of_accepts (by decide) Play.accepts,
    spellingsAgree_of_accepts (by decide) Song.accepts,
    spellingsAgree_of_accepts (by decide) PlayCount.accepts,
    spellingsAgree_of_accepts (by decide) PageView.accepts,
    spellingsAgree_of_accepts (by decide) Window.accepts,
    spellingsAgree_of_accepts (by decide) Entry.accepts,
    spellingsAgree_of_accepts (by decide) Update.accepts, fun p s hs => ?_, fun v s hs => ?_⟩
  · have htakes := Play.record.takes_object (by decide) (Play.accepts p) hs (by decide)
    exact decodes_of_takes (bracketed_of_objectOf hs) htakes
  · have htakes := PageView.record.takes_object (by decide) (PageView.accepts v) hs (by decide)
    exact decodes_of_takes (bracketed_of_objectOf hs) htakes

/-- An update with its fields in reverse, an array in place of its entry, an object in place of its
change, an escape in a name, and a member with an unknown name; a play without a region; an entry
without its identity, one with two scores, and one as an array. -/
theorem spellings_agree_reversed :
    let update := "\x7b\"entry\":[7, -1] ,\"new\":[\x7b\x7d,-0.5E+3],".toList ++
      "\"op\":\x7b\"Remove\":null\x7d,\"\\u006bey\":\"all\"\x7d".toList
    let play := "\x7b\"duration_ms\":30000,\"song_id\":-1\x7d".toList
    (Update.record.ObjectOf Update.spellings Update.record.fields.names ⟨"all", .remove, ⟨7, -1⟩⟩
        update ∧
      decodeLine Update.record.format ("\u3000".toList ++ update ++ "\r".toList) =
        .ok ⟨"all", .remove, ⟨7, -1⟩⟩) ∧
    (Play.record.ObjectOf Play.spellings ["song_id", "duration_ms"] ⟨-1, 30000, "EU"⟩ play ∧
      decodeLine Play.record.format ([] ++ play ++ []) = .ok ⟨-1, 30000, ""⟩) ∧
    decodeLine Entry.record.format ([] ++ "\x7b\"score\":2\x7d".toList ++ []) =
      .error (.mismatch (.missingField "identity")) ∧
    decodeLine Entry.record.format ([] ++ "\x7b\"score\":2,\"score\":-1\x7d".toList ++ []) =
      .error (.mismatch (.duplicateField "score")) ∧
    decodeLine Entry.record.format ([] ++ "[7, -1]".toList ++ []) = .ok ⟨7, -1⟩ := by
  intro update play
  have padded {p : List Char → Prop} {t : List Char} (h : p t) : Padded p t :=
    ⟨[], t, [], Blanks.nil, h, Blanks.nil, by simp⟩
  have plain {p : String → List Char → Prop} {name : String} {value : List Char}
      (h : p name value) : Member.Holds p ⟨name, writeText name, [], value, []⟩ :=
    ⟨padded (spellsText_writeText name), Blanks.nil, h, Blanks.nil⟩
  have hnumber : IsNumeral "-0.5E+3".toList :=
    ⟨['-'], ['0'], ".5".toList, "E+3".toList, .inr rfl, ⟨⟨by decide, by decide⟩, by decide⟩,
      .inr ⟨['5'], ⟨by decide, by decide⟩, rfl⟩,
      .inr ⟨'E', ['+'], ['3'], .inr rfl, .inr (.inl rfl), ⟨by decide, by decide⟩, rfl⟩, rfl⟩
  have hunknown : IsValue "[\x7b\x7d,-0.5E+3]".toList :=
    .full (b := .square) (.more (.none Blanks.nil) (.empty .curly Blanks.nil) Blanks.nil
      (.last (.none Blanks.nil) (.scalar (.numeral hnumber)) Blanks.nil))
  have hkey : SpellsText "key" "\"\\u006bey\"".toList :=
    ⟨["\\u006b".toList, ['e'], ['y']],
      .cons (.code ⟨0, 0, 6, 11, by decide, by decide⟩)
        (.cons (.plain (by decide) (by decide) (by decide))
          (.cons (.plain (by decide) (by decide) (by decide)) .nil)), rfl⟩
  have hitems : Entry.record.ArrayOf Entry.spellings ⟨7, -1⟩ "[7, -1]".toList :=
    ⟨["7".toList, " -1".toList],
      .cons (padded rfl) (.cons ⟨[' '], "-1".toList, [], by decide, rfl, Blanks.nil, rfl⟩ .nil),
      rfl⟩
  have hop : SpellsChoice Change.name .remove "\x7b\"Remove\":null\x7d".toList := by
    have hname : Padded (SpellsText (Change.name .remove)) (writeText "Remove") :=
      padded (spellsText_writeText "Remove")
    have hnull : Padded (· = ['n', 'u', 'l', 'l']) "null".toList := padded rfl
    exact .member hname hnull
  have hupdate : Update.record.ObjectOf Update.spellings Update.record.fields.names
      ⟨"all", .remove, ⟨7, -1⟩⟩ update := by
    refine ⟨[⟨"entry", writeText "entry", [], "[7, -1]".toList, [' ']⟩,
      ⟨"new", writeText "new", [], "[\x7b\x7d,-0.5E+3]".toList, []⟩,
      ⟨"op", writeText "op", [], "\x7b\"Remove\":null\x7d".toList, []⟩,
      ⟨"key", "\"\\u006bey\"".toList, [], writeText "all", []⟩], .full _ _, ?_, by decide⟩
    simp only [List.forall_mem_cons, List.not_mem_nil, false_implies, implies_true, and_true]
    exact ⟨⟨padded (spellsText_writeText "entry"), Blanks.nil, .inr hitems, by decide⟩,
      plain hunknown, plain hop, ⟨padded hkey, Blanks.nil, spellsText_writeText "all", Blanks.nil⟩⟩
  have hplay : Play.record.ObjectOf Play.spellings ["song_id", "duration_ms"] ⟨-1, 30000, "EU"⟩
      play := by
    refine ⟨[⟨"duration_ms", writeText "duration_ms", [], "30000".toList, []⟩,
      ⟨"song_id", writeText "song_id", [], "-1".toList, []⟩], .full _ _, ?_, by decide⟩
    simp only [List.forall_mem_cons, List.not_mem_nil, false_implies, implies_true, and_true]
    exact ⟨plain rfl, plain rfl⟩
  have hscore : Entry.record.ObjectOf Entry.spellings ["score"] ⟨7, 2⟩
      "\x7b\"score\":2\x7d".toList := by
    refine ⟨[⟨"score", writeText "score", [], "2".toList, []⟩], .full _ _, ?_, by decide⟩
    simp only [List.forall_mem_cons, List.not_mem_nil, false_implies, implies_true, and_true]
    exact plain rfl
  have hscores : ∀ m ∈ [(⟨"score", writeText "score", [], "2".toList, []⟩ : Member),
      ⟨"score", writeText "score", [], "-1".toList, []⟩], m.Holds fun n t =>
        ∃ e, Entry.record.fields.Spelled Entry.spellings (Entry.record.toValues e) n t := by
    simp only [List.forall_mem_cons, List.not_mem_nil, false_implies, implies_true, and_true]
    exact ⟨plain ⟨⟨7, 2⟩, rfl⟩, plain ⟨⟨7, -1⟩, rfl⟩⟩
  obtain ⟨-, -, -, -, -, entries, updates, plays, -⟩ := spellings_agree
  refine ⟨⟨hupdate, updates.object hupdate _ _ (by decide) (by decide)⟩,
    ⟨hplay, plays _ _ hplay _ _ (by decide) (by decide)⟩,
    entries.missing hscore rfl _ _ (by decide) (by decide), ?_,
    entries.array hitems _ _ (by decide) (by decide)⟩
  have hname : "score" ∈ Entry.record.fields.names := by decide
  obtain ⟨name, hname, htwice, hdecodes⟩ := entries.repeated (.full _ _) hscores hname (by decide)
  have hcases : name = "identity" ∨ name = "score" := by
    simpa [Entry.record, Fields.names] using hname
  rcases hcases with rfl | rfl
  · exact absurd htwice (by decide)
  · exact hdecodes [] [] (by decide) (by decide)

/-- A page view needs all but its flags. -/
example : PageView.record.fields.required = ["user", "page", "industry", "ts_ms"] := rfl

end Feed

end TopCharts
