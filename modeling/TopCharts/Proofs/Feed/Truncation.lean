import TopCharts.Proofs.Feed.Lines
import TopCharts.Proofs.Feed.RoundTrip

/-!
# Feeds that are cut

* `written f records` : a feed of records, each on a line of its own; `start f records i` is where
  the text of the record at `i` starts in it;
* `kept f records n`, `Inside f records n` : the records that lie before the place `n` with their
  whole texts, and whether the place is inside the text of a record;
* `read_written`, `read_of_cut` : the line of a record is read back, and a line that is cut is left
  out;
* `LosesOnlyTheLast f` : wherever a written feed is cut, what is left of it is read as the records
  that are whole, and one line is left out if the cut is inside a record;
* `cut_feeds_lose_only_the_last` : so it is for feeds of all records.
-/

namespace TopCharts.Feed

open Json

variable {α : Type}

/-! ## Written feeds -/

def written (f : Format α) (records : List α) : List Char :=
  records.flatMap fun a => f.write a ++ ['\n']

def start (f : Format α) (records : List α) (i : Nat) : Nat :=
  (written f (records.take i)).length

/-- The records whose whole texts lie before the place `n`. -/
def kept (f : Format α) (records : List α) (n : Nat) : List α :=
  (records.zipIdx.filter fun p => start f records p.2 + (f.write p.1).length ≤ n).map Prod.fst

/-- Whether the place `n` is inside the text of a record. -/
def Inside (f : Format α) (records : List α) (n : Nat) : Prop :=
  ∃ p ∈ records.zipIdx, start f records p.2 < n ∧ n < start f records p.2 + (f.write p.1).length

instance (f : Format α) (records : List α) (n : Nat) : Decidable (Inside f records n) :=
  inferInstanceAs (Decidable (∃ p ∈ records.zipIdx, _))

/-- Whether a feed that is cut is read as the records that are whole, with one line left out if the
cut is inside a record and none otherwise. -/
def LosesOnlyTheLast (f : Format α) : Prop :=
  ∀ (records : List α) (n : Nat) (path : String),
    load f path (some (String.ofList ((written f records).take n)).toUTF8) =
      .ok ⟨kept f records n, if Inside f records n then 1 else 0⟩

theorem written_cons (f : Format α) (a : α) (records : List α) :
    written f (a :: records) = f.write a ++ '\n' :: written f records := by
  simp [written]

theorem start_succ (f : Format α) (a : α) (records : List α) (i : Nat) :
    start f (a :: records) (i + 1) = (f.write a).length + 1 + start f records i := by
  rw [start, List.take_succ_cons, written_cons, List.length_append, List.length_cons, start]
  omega

theorem zipIdx_cons_succ (a : α) (records : List α) :
    (a :: records).zipIdx = (a, 0) :: records.zipIdx.map fun p => (p.1, p.2 + 1) :=
  List.zipIdx_cons'

/-! ## Places in a feed -/

/-- Before the end of the first line no other record counts. -/
theorem kept_cons_of_le (f : Format α) (a : α) (records : List α) {n : Nat}
    (h : n ≤ (f.write a).length) :
    kept f (a :: records) n = if n = (f.write a).length then [a] else [] := by
  have hrest : ∀ p ∈ records.zipIdx.map fun p => (p.1, p.2 + 1),
      ¬ (decide (start f (a :: records) p.2 + (f.write p.1).length ≤ n)) = true := by
    intro p hp
    obtain ⟨q, -, rfl⟩ := List.mem_map.1 hp
    rw [start_succ, decide_eq_true_eq]
    omega
  rw [kept, zipIdx_cons_succ, List.filter_cons, List.filter_eq_nil_iff.2 hrest]
  have hfirst : start f (a :: records) 0 = 0 := rfl
  by_cases hn : n = (f.write a).length
  · rw [if_pos hn, if_pos (by simp [hfirst, hn])]
    rfl
  · rw [if_neg hn, if_neg (by simp [hfirst]; omega)]
    rfl

theorem inside_cons_of_le (f : Format α) (a : α) (records : List α) {n : Nat}
    (h : n ≤ (f.write a).length) :
    Inside f (a :: records) n ↔ 0 < n ∧ n < (f.write a).length := by
  have hfirst : start f (a :: records) 0 = 0 := rfl
  rw [Inside, zipIdx_cons_succ]
  simp only [List.mem_cons, List.mem_map, exists_eq_or_imp, hfirst, Nat.zero_add]
  constructor
  · rintro (h' | ⟨-, ⟨q, -, rfl⟩, h', -⟩)
    · exact h'
    · rw [start_succ] at h'
      omega
  · exact .inl

/-- After the first line the places are those in the feed of the other records. -/
theorem kept_cons (f : Format α) (a : α) (records : List α) (n : Nat) :
    kept f (a :: records) ((f.write a).length + 1 + n) = a :: kept f records n := by
  have hfirst : start f (a :: records) 0 = 0 := rfl
  rw [kept, zipIdx_cons_succ, List.filter_cons_of_pos (by simp [hfirst]; omega), List.map_cons,
    List.filter_map, List.map_map, kept]
  congr 2
  refine List.filter_congr fun p hp => ?_
  simp only [Function.comp, start_succ, decide_eq_decide]
  omega

theorem inside_cons (f : Format α) (a : α) (records : List α) (n : Nat) :
    Inside f (a :: records) ((f.write a).length + 1 + n) ↔ Inside f records n := by
  have hfirst : start f (a :: records) 0 = 0 := rfl
  rw [Inside, Inside, zipIdx_cons_succ]
  simp only [List.mem_cons, List.mem_map, exists_eq_or_imp, hfirst, Nat.zero_add]
  constructor
  · rintro (⟨-, h⟩ | ⟨-, ⟨q, hq, rfl⟩, h⟩)
    · omega
    · rw [start_succ] at h
      dsimp only at h
      exact ⟨q, hq, by omega⟩
  · rintro ⟨q, hq, h⟩
    refine .inr ⟨_, ⟨q, hq, rfl⟩, ?_⟩
    rw [start_succ]
    dsimp only
    omega

/-! ## Reading a feed -/

variable {f : Format α}

theorem not_mem_of_printable {s : List Char} (h : ∀ c ∈ s, 0x20 ≤ c.toNat) {c : Char}
    (hc : c.toNat < 0x20) : c ∉ s :=
  fun hs => Nat.not_le.2 hc (h c hs)

theorem head?_write (h : f.Closed) (a : α) :
    ∃ c m, f.write a = c :: m ∧ Text.isBlank c = false := by
  obtain ⟨c, m, d, hwrite, hc, -⟩ := h.edges a
  exact ⟨c, m ++ [d], hwrite, isBlank_of_isEdge hc⟩

theorem decodeLine_write (h : f.Closed) (a : α) : decodeLine f (f.write a) = .ok a := by
  have := roundTrips_of_closed h a "" "" rfl rfl
  simpa [Format.text] using this

/-- A last line that is not ended is read as its record, or left out. -/
theorem read_last {line : List Char} (hend : '\n' ∉ line) (hblank : line.all Text.isBlank = false) :
    read f (String.ofList line) = match decodeLine f line with
      | .ok a => ⟨[a], 0⟩
      | .error _ => ⟨[], 1⟩ := by
  have hne : line ≠ [] := by
    rintro rfl
    cases hblank
  have hlines : (Text.lines line).filter (fun line => !line.all Text.isBlank) = [line] := by
    rw [Text.lines_of_not_mem hend, if_neg hne, List.filter_cons, hblank]
    rfl
  simp only [read, String.toList_ofList, hlines, List.map_cons, List.map_nil]
  cases decodeLine f line <;> rfl

theorem read_written (h : f.Closed) (a : α) (r : List Char) :
    read f (String.ofList (f.write a ++ '\n' :: r)) =
      ⟨a :: (read f (String.ofList r)).records, (read f (String.ofList r)).malformed⟩ := by
  obtain ⟨c, m, hwrite, hc⟩ := head?_write h a
  have hend : '\n' ∉ f.write a := not_mem_of_printable (h.printable a) (by decide)
  have hblank : (f.write a).all Text.isBlank = false := by
    rw [hwrite, List.all_cons, hc]
    rfl
  have hline : String.ofList (f.write a ++ '\n' :: r) =
      String.ofList (f.write a) ++ "\n" ++ String.ofList r := by
    rw [← String.toList_inj]
    simp
  rw [hline, read_append, read_last hend hblank, decodeLine_write h]
  simp

theorem decodeLine_of_cut (h : f.Closed) {a : α} {p : List Char} (hp : Cut p (f.write a)) :
    ∃ e, decodeLine f p = .error e := by
  obtain ⟨c, m, hwrite, hc⟩ := head?_write h a
  have hhead : ∀ d ∈ p.head?, Text.isBlank d = false := by
    rw [hwrite] at hp
    intro d hd
    rcases hp.cons with rfl | ⟨q, rfl, -⟩
    · cases hd
    · cases hd
      exact hc
  have htrim : Cut (Text.trim p) (f.write a) := by
    obtain ⟨t, ht⟩ := Text.trim_prefix hhead
    obtain ⟨u, hu, hp⟩ := hp
    refine ⟨t ++ u, List.append_ne_nil_of_right_ne_nil t hu, ?_⟩
    rw [← List.append_assoc, ht, hp]
  obtain ⟨e, he⟩ := h.refuses_cut a htrim
  refine ⟨e, ?_⟩
  rw [decodeLine, Format.parse, he]
  rfl

theorem read_of_cut (h : f.Closed) (a : α) {n : Nat} (hn : n ≤ (f.write a).length) :
    read f (String.ofList ((f.write a).take n)) =
      ⟨if n = (f.write a).length then [a] else [],
        if 0 < n ∧ n < (f.write a).length then 1 else 0⟩ := by
  obtain ⟨c, m, hwrite, hc⟩ := head?_write h a
  rcases Nat.eq_zero_or_pos n with rfl | hpos
  · rw [if_neg (by rw [hwrite]; exact Nat.zero_ne_add_one _), if_neg (by omega)]
    rfl
  · have hend : '\n' ∉ (f.write a).take n := fun hmem =>
      not_mem_of_printable (h.printable a) (by decide) (List.mem_of_mem_take hmem)
    have hblank : ((f.write a).take n).all Text.isBlank = false := by
      obtain ⟨k, rfl⟩ := Nat.exists_eq_succ_of_ne_zero (Nat.ne_of_gt hpos)
      rw [hwrite, List.take_succ_cons, List.all_cons, hc]
      rfl
    rw [read_last hend hblank]
    rcases Nat.eq_or_lt_of_le hn with rfl | hlt
    · rw [List.take_length, decodeLine_write h, if_pos rfl, if_neg (by omega)]
    · have hcut : Cut ((f.write a).take n) (f.write a) :=
        ⟨(f.write a).drop n, by simp [hlt], List.take_append_drop n _⟩
      obtain ⟨e, he⟩ := decodeLine_of_cut h hcut
      rw [he, if_neg (Nat.ne_of_lt hlt), if_pos ⟨hpos, hlt⟩]

/-! ## Feeds that are cut -/

theorem read_take_written (h : f.Closed) (records : List α) (n : Nat) :
    read f (String.ofList ((written f records).take n)) =
      ⟨kept f records n, if Inside f records n then 1 else 0⟩ := by
  induction records generalizing n with
  | nil =>
    have hinside : ¬ Inside f [] n := fun ⟨_, hp, _⟩ => absurd hp List.not_mem_nil
    rw [if_neg hinside, written, List.flatMap_nil, List.take_nil]
    rfl
  | cons a records ih =>
    rw [written_cons]
    rcases Nat.lt_or_ge (f.write a).length n with hlt | hle
    · obtain ⟨k, rfl⟩ := Nat.exists_eq_add_of_lt hlt
      have hplace : (f.write a).length + k + 1 = (f.write a).length + 1 + k := by omega
      rw [hplace, kept_cons]
      simp only [inside_cons]
      rw [Nat.add_assoc, List.take_length_add_append, Nat.add_comm 1 k, List.take_succ_cons,
        read_written h, ih]
    · rw [List.take_append_of_le_length hle, read_of_cut h a hle, kept_cons_of_le f a records hle]
      simp only [inside_cons_of_le f a records hle]

theorem losesOnlyTheLast_of_closed (h : f.Closed) : LosesOnlyTheLast f := by
  intro records n path
  rw [load, text_toUTF8, ← read_take_written h]

/-- **A feed that is cut loses at most its last record.** -/
theorem cut_feeds_lose_only_the_last :
    LosesOnlyTheLast Play.record.format ∧ LosesOnlyTheLast PageView.record.format ∧
      LosesOnlyTheLast Song.record.format ∧ LosesOnlyTheLast PlayCount.record.format ∧
      LosesOnlyTheLast Window.record.format ∧ LosesOnlyTheLast Entry.record.format ∧
      LosesOnlyTheLast Change.format ∧ LosesOnlyTheLast Update.record.format :=
  ⟨losesOnlyTheLast_of_closed Play.closed, losesOnlyTheLast_of_closed PageView.closed,
    losesOnlyTheLast_of_closed Song.closed, losesOnlyTheLast_of_closed PlayCount.closed,
    losesOnlyTheLast_of_closed Window.closed, losesOnlyTheLast_of_closed Entry.closed,
    losesOnlyTheLast_of_closed Change.closed, losesOnlyTheLast_of_closed Update.closed⟩

end TopCharts.Feed
