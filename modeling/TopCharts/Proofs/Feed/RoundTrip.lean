import TopCharts.Articles
import TopCharts.Feed
import TopCharts.Music
import TopCharts.Proofs.Json.Record
import TopCharts.Proofs.Text.Line

/-!
# Records are read back from their texts

* `Play.closed`, …, `Update.closed` : the formats of plays, songs, play counts, page views, windows,
  entries, changes and updates are closed;
* `RoundTrips f` : every value is read back from a line with its text between blanks;
* `records_round_trip` : so it is for all of them.
-/

namespace TopCharts

open Json

/-! ## Formats -/

theorem Play.closed : Play.record.format.Closed :=
  Play.record.closed {
    formats := ⟨Format.faithful_int, Format.faithful_word _, Format.closed_string.faithful, trivial⟩
    distinct := by decide }

theorem Song.closed : Song.record.format.Closed :=
  have string := Format.closed_string.faithful
  Song.record.closed {
    formats := ⟨Format.faithful_int, string, string, string, string, trivial⟩
    distinct := by decide }

theorem PlayCount.closed : PlayCount.record.format.Closed :=
  PlayCount.record.closed {
    formats := ⟨Format.faithful_int, Format.faithful_int, trivial⟩
    distinct := by decide }

theorem PageView.closed : PageView.record.format.Closed :=
  have string := Format.closed_string.faithful
  PageView.record.closed {
    formats := ⟨string, string, string, string, Format.faithful_word _, trivial⟩
    distinct := by decide }

theorem Window.closed : Window.record.format.Closed :=
  Window.record.closed {
    formats := ⟨Format.closed_string.faithful, Format.faithful_word _, trivial⟩
    distinct := by decide }

theorem Entry.closed : Entry.record.format.Closed :=
  Entry.record.closed {
    formats := ⟨Format.faithful_int, Format.faithful_int, trivial⟩
    distinct := by decide }

theorem Change.closed : Change.format.Closed :=
  Format.closed_choice fun a => by cases a <;> rfl

theorem Update.closed : Update.record.format.Closed :=
  Update.record.closed {
    formats := ⟨Format.closed_string.faithful, Change.closed.faithful, Entry.closed.faithful,
      trivial⟩
    distinct := by decide }

/-! ## Lines -/

namespace Feed

variable {α : Type}

theorem isBlank_of_isEdge {c : Char} (h : IsEdge c) : Text.isBlank c = false := by
  rcases h with rfl | rfl | rfl <;> decide

/-- Whether every value is read back from a line with its text between blanks. -/
def RoundTrips (f : Format α) : Prop :=
  ∀ (a : α) (before after : String), before.toList.all Text.isBlank →
    after.toList.all Text.isBlank → decodeLine f (before ++ f.text a ++ after).toList = .ok a

theorem parse_write {f : Format α} (h : f.Closed) (a : α) : f.parse (f.write a) = .ok a := by
  have hrun := h.read_write a []
  rw [List.append_nil] at hrun
  rw [Format.parse, hrun]
  rfl

/-- The blanks around a text that neither starts nor ends with one do not belong to its record. -/
theorem decodeLine_between (f : Format α) {before after m : List Char} {c d : Char}
    (hbefore : before.all Text.isBlank) (hafter : after.all Text.isBlank)
    (hc : Text.isBlank c = false) (hd : Text.isBlank d = false) :
    decodeLine f (before ++ (c :: m ++ [d]) ++ after) = f.parse (c :: m ++ [d]) := by
  have htrim : Text.trim (before ++ (c :: m ++ [d]) ++ after) = c :: m ++ [d] := by
    refine Text.trim_between (by simp) hbefore hafter ?_ ?_
    · intro x hx
      cases hx
      exact hc
    · intro x hx
      rw [List.getLast?_concat] at hx
      cases hx
      exact hd
  rw [decodeLine, htrim]

theorem roundTrips_of_closed {f : Format α} (h : f.Closed) : RoundTrips f := by
  intro a before after hbefore hafter
  obtain ⟨c, m, d, hwrite, hc, hd⟩ := h.edges a
  rw [String.toList_append, String.toList_append, Format.text, String.toList_ofList, hwrite,
    decodeLine_between f hbefore hafter (isBlank_of_isEdge hc) (isBlank_of_isEdge hd), ← hwrite,
    parse_write h]

/-- **Every record is read back from its text between blanks.** -/
theorem records_round_trip :
    RoundTrips Play.record.format ∧ RoundTrips Song.record.format ∧
      RoundTrips PlayCount.record.format ∧ RoundTrips PageView.record.format ∧
      RoundTrips Window.record.format ∧ RoundTrips Entry.record.format ∧
      RoundTrips Change.format ∧ RoundTrips Update.record.format :=
  ⟨roundTrips_of_closed Play.closed, roundTrips_of_closed Song.closed,
    roundTrips_of_closed PlayCount.closed, roundTrips_of_closed PageView.closed,
    roundTrips_of_closed Window.closed, roundTrips_of_closed Entry.closed,
    roundTrips_of_closed Change.closed, roundTrips_of_closed Update.closed⟩

/-- The limits of both words, and a key with quotes, escapes, a line separator and blanks at its
ends, on a line with blanks of several bytes at its ends. -/
theorem records_round_trip_limits :
    "\u3000\t\u2028".toList.all Text.isBlank ∧ "\u00a0\r\n".toList.all Text.isBlank ∧
      decodeLine PageView.record.format ("\u3000\t\u2028" ++ PageView.record.format.text
        ⟨"", "\u2028\\\"", "\x00\x1f\n", " ARTICLE ", 0xffffffffffffffff⟩ ++ "\u00a0\r\n").toList =
        .ok ⟨"", "\u2028\\\"", "\x00\x1f\n", " ARTICLE ", 0xffffffffffffffff⟩ ∧
      decodeLine Update.record.format ("\u3000\t\u2028" ++ Update.record.format.text
        ⟨" \"\\\x7f😀\r\n ", .remove, ⟨Int64.minValue, Int64.maxValue⟩⟩ ++ "\u00a0\r\n").toList =
        .ok ⟨" \"\\\x7f😀\r\n ", .remove, ⟨Int64.minValue, Int64.maxValue⟩⟩ := by
  have hbefore : "\u3000\t\u2028".toList.all Text.isBlank := by decide
  have hafter : "\u00a0\r\n".toList.all Text.isBlank := by decide
  obtain ⟨-, -, -, view, -, -, -, update⟩ := records_round_trip
  exact ⟨hbefore, hafter, view _ _ _ hbefore hafter, update _ _ _ hbefore hafter⟩

end Feed

end TopCharts
