import TopCharts.Feed
import TopCharts.Metrics
import TopCharts.Proofs.Text.Line

/-!
# Feeds are read line by line

* `gather f lines` : the records of some lines, and the number of those left out; it adds up over
  lines (`gather_append`), and blanks at the ends of a line do not count (`gather_congr`);
* `read_eq_gather_splitOn` : so a feed can be read piece by piece between its line feeds;
* `read_append`, `read_withReturns` : a feed that goes on after a line feed is read as two, and
  carriage returns before the line feeds change nothing;
* `readFile` : reads the file of a feed with the counters of a run, on which every line that is left
  out is counted when it is met;
* `feeds_read_line_by_line` : all this, and that only a file without a text is an error.
-/

namespace TopCharts.Feed

open Json

variable {α : Type}

/-! ## Lines -/

/-- What some lines hold: the records of those that are no blanks, and the number of the others
among them. -/
def gather (f : Format α) (lines : List (List Char)) : Contents α :=
  let results := (lines.filter fun line => !line.all Text.isBlank).map (decodeLine f)
  ⟨results.filterMap Except.toOption, results.countP fun r => !r.isOk⟩

theorem read_eq_gather (f : Format α) (s : String) :
    read f s = gather f (Text.lines s.toList) :=
  rfl

theorem gather_append (f : Format α) (before after : List (List Char)) :
    gather f (before ++ after) = ⟨(gather f before).records ++ (gather f after).records,
      (gather f before).malformed + (gather f after).malformed⟩ := by
  simp only [gather, List.filter_append, List.map_append, List.filterMap_append,
    List.countP_append]

/-- Of a line only what is left of it between blanks counts. -/
theorem gather_congr (f : Format α) {lines lines' : List (List Char)}
    (h : lines.map Text.trim = lines'.map Text.trim) : gather f lines = gather f lines' := by
  have hkept : ∀ lines : List (List Char),
      (lines.filter fun line => !line.all Text.isBlank).map (decodeLine f) =
        ((lines.map Text.trim).filter fun line => !line.isEmpty).map f.parse := by
    intro lines
    rw [List.filter_map, List.map_map]
    refine congrArg (List.map _) (List.filter_congr fun line _ => ?_)
    rw [Function.comp, Bool.not_inj_iff, Bool.eq_iff_iff, List.isEmpty_iff, Text.trim_eq_nil_iff]
  rw [gather, gather, hkept, hkept, h]

theorem gather_nil_line (f : Format α) (lines : List (List Char)) :
    gather f (lines ++ [[]]) = gather f lines := by
  rw [gather_append]
  exact congrArg₂ Contents.mk (List.append_nil _) (Nat.add_zero _)

theorem read_eq_gather_splitOn (f : Format α) (s : String) :
    read f s = gather f (s.toList.splitOn '\n') := by
  have hlast := List.getLast?_eq_some_getLast (List.splitOn_ne_nil '\n' s.toList)
  rw [read_eq_gather, Text.lines]
  generalize s.toList.splitOn '\n' = pieces, List.getLast _ _ = last at hlast ⊢
  have hpieces := List.dropLast_append_getLast? last hlast
  have hends : gather f (pieces.dropLast.map Text.dropReturn) = gather f pieces.dropLast := by
    refine gather_congr f ?_
    rw [List.map_map]
    exact List.map_congr_left fun line _ => Text.trim_dropReturn line
  rw [hlast, gather_append, hends, ← gather_append]
  by_cases hnil : last = []
  · rw [Option.filter_some, if_neg (by simpa using hnil), ← hpieces, hnil, gather_nil_line,
      List.dropLast_concat]
    exact congrArg (gather f) (List.append_nil _)
  · rw [Option.filter_some, if_pos (by simpa using hnil)]
    exact congrArg (gather f) hpieces

theorem exists_decodeLine_eq_error (f : Format α) {line : List Char}
    (h : line.all Text.isBlank) : ∃ e, decodeLine f line = .error e := by
  rw [decodeLine, Text.trim_eq_nil_iff.2 h, Format.parse]
  cases hrun : f.reader.run [] with
  | error e => exact ⟨e, rfl⟩
  | ok next => exact absurd (f.reader.shrinks hrun) (Nat.not_lt_zero _)

theorem records_gather (f : Format α) (lines : List (List Char)) :
    (gather f lines).records = lines.filterMap fun line => (decodeLine f line).toOption := by
  rw [gather, List.filterMap_map, List.filterMap_filter]
  refine List.filterMap_congr fun line _ => ?_
  cases hblank : line.all Text.isBlank with
  | false => rfl
  | true =>
    obtain ⟨e, he⟩ := exists_decodeLine_eq_error f hblank
    rw [he]
    rfl

theorem length_gather (f : Format α) (lines : List (List Char)) :
    (gather f lines).records.length + (gather f lines).malformed =
      lines.countP fun line => !line.all Text.isBlank := by
  have hresults : ∀ results : List (Except ReadError α),
      (results.filterMap Except.toOption).length + results.countP (fun r => !r.isOk) =
        results.length := by
    intro results
    rw [List.length_filterMap_eq_countP, List.length_eq_countP_add_countP (fun r => r.isOk)]
    refine congrArg₂ (· + ·) (List.countP_congr fun r _ => ?_) (List.countP_congr fun r _ => ?_)
    · cases r <;> exact Iff.rfl
    · cases r.isOk <;> decide
  rw [gather, hresults, List.length_map, List.countP_eq_length_filter]

/-! ## Texts -/

/-- **A feed that goes on after a line feed** is read as two feeds. -/
theorem read_append (f : Format α) (a b : String) :
    read f (a ++ "\n" ++ b) = ⟨(read f a).records ++ (read f b).records,
      (read f a).malformed + (read f b).malformed⟩ := by
  have hsplit : (a ++ "\n" ++ b).toList.splitOn '\n' =
      a.toList.splitOn '\n' ++ b.toList.splitOn '\n' := by
    rw [String.toList_append, String.toList_append, List.append_assoc]
    exact List.splitOn_append_cons_self _ _
  rw [read_eq_gather_splitOn, hsplit, gather_append, ← read_eq_gather_splitOn,
    ← read_eq_gather_splitOn]

/-- **Carriage returns before the line feeds** change nothing. -/
theorem read_withReturns (f : Format α) (s : String) :
    read f (String.ofList (Text.withReturns s.toList)) = read f s := by
  rw [read_eq_gather_splitOn, read_eq_gather_splitOn, String.toList_ofList]
  refine (gather_congr f ?_).symm
  refine List.forall₂_eq_eq_eq ▸ List.forall₂_map_left_iff.2 (List.forall₂_map_right_iff.2 ?_)
  refine (Text.splitOn_withReturns s.toList).imp fun line line' h => ?_
  rcases h with rfl | rfl
  · rfl
  · exact (Text.trim_append (t := ['\r']) rfl line).symm

/-! ## Counting -/

/-- Takes a line to the records before it, or counts it if it is none. -/
def readLine (f : Format α) (state : List α × Metrics) (line : List Char) : List α × Metrics :=
  if line.all Text.isBlank then state
  else
    match decodeLine f line with
    | .ok a => (state.1 ++ [a], state.2)
    | .error _ => (state.1, state.2.count .eventsFiltered 1)

/-- The records of the file at `path`, with the counters of a run. -/
def readFile (f : Format α) (path : String) (file : File) (m : Metrics) :
    Except Failure (List α) × Metrics :=
  match file.text with
  | .error e => (.error ⟨s!"reading {path}", [e.message]⟩, m)
  | .ok s =>
    let state := (Text.lines s.toList).foldl (readLine f) ([], m)
    (.ok state.1, state.2)

theorem count_count (m : Metrics) (a b : Nat) :
    (m.count .eventsFiltered (UInt64.ofNat a)).count .eventsFiltered (UInt64.ofNat b) =
      m.count .eventsFiltered (UInt64.ofNat (a + b)) := by
  rw [UInt64.ofNat_add]
  simp only [Metrics.count, UInt64.add_assoc]

theorem readLine_eq (f : Format α) (records : List α) (m : Metrics) (line : List Char) :
    readLine f (records, m) line = (records ++ (gather f [line]).records,
      m.count .eventsFiltered (UInt64.ofNat (gather f [line]).malformed)) := by
  have hzero : m.count .eventsFiltered 0 = m := by simp [Metrics.count]
  rw [readLine, gather, List.filter_cons]
  cases hblank : line.all Text.isBlank with
  | true => simp [hzero]
  | false =>
    cases hline : decodeLine f line with
    | ok a => simp [hline, Except.toOption, Except.isOk, Except.toBool, hzero]
    | error e => simp [hline, Except.toOption, Except.isOk, Except.toBool]

theorem foldl_readLine (f : Format α) (lines : List (List Char)) (records : List α) (m : Metrics) :
    lines.foldl (readLine f) (records, m) = (records ++ (gather f lines).records,
      m.count .eventsFiltered (UInt64.ofNat (gather f lines).malformed)) := by
  induction lines generalizing records m with
  | nil => simp [gather, Metrics.count]
  | cons line lines ih =>
    rw [List.foldl_cons, readLine_eq, ih, count_count, List.append_assoc]
    exact congrArg (fun c : Contents α => (records ++ c.records,
      m.count .eventsFiltered (UInt64.ofNat c.malformed))) (gather_append f [line] lines).symm

theorem readFile_of_text {file : File} {s : String} (h : file.text = .ok s) (f : Format α)
    (path : String) (m : Metrics) : readFile f path file m = (.ok (read f s).records,
      m.count .eventsFiltered (UInt64.ofNat (read f s).malformed)) := by
  rw [readFile, h]
  dsimp only
  rw [foldl_readLine]
  rfl

/-! ## Files -/

theorem text_toUTF8 (s : String) : File.text (some s.toUTF8) = .ok s := by
  have hutf8 : String.fromUTF8? s.toUTF8 = some s := by
    rw [String.fromUTF8?, String.toUTF8_eq_toByteArray, dif_pos s.isValidUTF8]
    rfl
  rw [File.text, hutf8]

theorem text_eq_missing_iff {file : File} : file.text = .error .missing ↔ file = none := by
  cases file with
  | none => exact ⟨fun _ => rfl, fun _ => rfl⟩
  | some bytes =>
    rw [File.text]
    split <;> simp

theorem text_eq_notText_iff {file : File} :
    file.text = .error .notText ↔ ∃ bytes, file = some bytes ∧ ¬ bytes.IsValidUTF8 := by
  cases file with
  | none => simp [File.text]
  | some bytes =>
    rw [File.text, String.fromUTF8?]
    by_cases h : bytes.IsValidUTF8 <;> simp [h]

/-- **Feeds are read line by line, and nothing is lost.** The records are those of the lines that
decode, in turn, and every other line that is no blanks is counted. A feed that goes on after a line
feed is read as two, and carriage returns before the line feeds change nothing. A file that is
missing, or is not UTF-8, is an error; the counters are then as they were, and else they have the
lines that were left out. -/
theorem feeds_read_line_by_line (f : Format α) :
    (∀ s : String,
      (read f s).records =
        (Text.lines s.toList).filterMap (fun line => (decodeLine f line).toOption) ∧
      (read f s).records.length + (read f s).malformed =
        (Text.lines s.toList).countP (fun line => !line.all Text.isBlank)) ∧
    (∀ a b : String, read f (a ++ "\n" ++ b) =
      ⟨(read f a).records ++ (read f b).records, (read f a).malformed + (read f b).malformed⟩) ∧
    (∀ s : String, read f (String.ofList (Text.withReturns s.toList)) = read f s) ∧
    ∀ (path : String) (file : File) (m : Metrics),
      (∀ s, file = some s.toUTF8 → load f path file = .ok (read f s) ∧
        readFile f path file m = (.ok (read f s).records,
          m.count .eventsFiltered (UInt64.ofNat (read f s).malformed))) ∧
      ((∃ e, load f path file = .error e) ↔
        file = none ∨ ∃ bytes, file = some bytes ∧ ¬ bytes.IsValidUTF8) ∧
      ∀ e, load f path file = .error e → readFile f path file m = (.error e, m) := by
  refine ⟨fun s => ?_, read_append f, read_withReturns f, fun path file m => ?_⟩
  · rw [read_eq_gather]
    exact ⟨records_gather f _, length_gather f _⟩
  refine ⟨?_, ?_, ?_⟩
  · rintro s rfl
    have htext := text_toUTF8 s
    refine ⟨?_, readFile_of_text htext f path m⟩
    rw [load, htext]
  · rw [← text_eq_missing_iff, ← text_eq_notText_iff, load]
    cases file.text with
    | ok s => simp
    | error e => cases e <;> simp
  · intro e he
    rw [load] at he
    rw [readFile]
    cases htext : file.text with
    | ok s =>
      rw [htext] at he
      cases he
    | error e' =>
      rw [htext] at he
      cases he
      rfl

/-- A carriage return, a line of blanks that are no ASCII, a line that is no record, and no line feed
at the end; a file that is missing, and one that is not UTF-8. -/
theorem feeds_read_line_by_line_files :
    let s := "\"Add\"\r\n\u3000\nno\n\"Remove\""
    let m : Metrics := { eventsFiltered := 7 }
    readFile Change.format "feed" (some s.toUTF8) m =
        (.ok [.add, .remove], { eventsFiltered := 8 }) ∧
      readFile Change.format "feed" none m =
        (.error ⟨"reading feed", ["No such file or directory (os error 2)"]⟩, m) ∧
      readFile Change.format "feed" (some ⟨#[0xff]⟩) m =
        (.error ⟨"reading feed", ["stream did not contain valid UTF-8"]⟩, m) := by
  intro s m
  have hread : read Change.format s = ⟨[.add, .remove], 1⟩ := by decide +kernel
  have hfiles := (feeds_read_line_by_line Change.format).2.2.2 "feed"
  have hrecords := ((hfiles (some s.toUTF8) m).1 s rfl).2
  rw [hread] at hrecords
  exact ⟨hrecords, (hfiles none m).2.2 _ rfl, (hfiles (some ⟨#[0xff]⟩) m).2.2 _ (by decide +kernel)⟩

end TopCharts.Feed
