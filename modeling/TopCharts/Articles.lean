import Std.Data.ExtTreeMap
import TopCharts.Arithmetic
import TopCharts.Json.Record
import TopCharts.Shard
import TopCharts.Text.Line

/-!
# Page views, windows of time, and the pages

* `PageView` : a user saw a page; `PageView.isArticle` if one of its flags says so;
* `Window` : an industry within one window of time, the key of a chart. Windows of a given size
  follow each other without gaps from time zero; `windowStart` is the start of the one that holds a
  time;
* `retentionHorizon` : the start of the oldest window that is kept;
* `PageCatalog` : numbers for page names, in the order of their first mention.
-/

namespace TopCharts

open Std (ExtTreeMap TransOrd LawfulEqOrd)

def defaultWindowSizeMs : UInt64 := 3600000

/-! ## Views -/

structure PageView where
  user : String
  page : String
  industry : String
  flags : String
  timeMs : UInt64
  deriving DecidableEq, Repr

namespace PageView

/-- Page views as JSON; a view without flags has empty ones. -/
def record : Json.Record PageView where
  name := "PageView"
  types := [String, String, String, String, UInt64]
  fields := .cons ⟨"user", .string, none⟩ <| .cons ⟨"page", .string, none⟩ <|
    .cons ⟨"industry", .string, none⟩ <| .cons ⟨"flags", .string, some ""⟩ <|
    .cons ⟨"ts_ms", .word "u64", none⟩ .nil
  toValues v := (v.user, v.page, v.industry, v.flags, v.timeMs, ())
  ofValues := fun (user, page, industry, flags, timeMs, ()) =>
    { user, page, industry, flags, timeMs }

/-- Whether one of the flags, which commas separate, marks an article. -/
def isArticle (v : PageView) : Bool :=
  (v.flags.toList.splitOn ',').any fun flag => Text.trim flag = "ARTICLE".toList

end PageView

/-! ## Windows -/

/-- The start of the window that holds a time. A size of zero counts as one. -/
def windowStart (timeMs sizeMs : UInt64) : UInt64 :=
  timeMs - timeMs % max sizeMs 1

/-- The start of the oldest window that is kept when the clock shows `clockMs`: the current window
and `retained` before it are. -/
def retentionHorizon (clockMs sizeMs retained : UInt64) : UInt64 :=
  Saturating.sub (windowStart clockMs sizeMs) (Saturating.mul retained (max sizeMs 1))

@[ext] structure Window where
  industry : String
  startMs : UInt64
  deriving DecidableEq, Repr

namespace Window

def record : Json.Record Window where
  name := "WindowedIndustry"
  types := [String, UInt64]
  fields := .cons ⟨"industry", .string, none⟩ <|
    .cons ⟨"window_start_ms", .word "u64", none⟩ .nil
  toValues w := (w.industry, w.startMs, ())
  ofValues := fun (industry, startMs, ()) => { industry, startMs }

def ofView (v : PageView) (sizeMs : UInt64) : Window :=
  ⟨v.industry, windowStart v.timeMs sizeMs⟩

/-- The window as `industry@start`. -/
def text (w : Window) : String :=
  s!"{w.industry}@{w.startMs}"

instance : Ord Window where
  compare := compareLex (compareOn industry) (compareOn startMs)

instance : TransOrd Window :=
  inferInstanceAs (Std.TransCmp (compareLex (compareOn industry) (compareOn startMs)))

instance : LawfulEqOrd Window where
  eq_of_compare h := by
    obtain ⟨hi, hs⟩ := compareLex_eq_eq.1 h
    exact Window.ext (LawfulEqOrd.eq_of_compare hi) (LawfulEqOrd.eq_of_compare hs)

instance : ShardKey Window where
  hashBytes w := ShardKey.hashBytes w.industry ++ ShardKey.hashBytes w.startMs

end Window

/-! ## Pages -/

structure PageCatalog where
  ids : ExtTreeMap String Int64
  /-- The names by their numbers. -/
  pages : Array String

namespace PageCatalog

def empty : PageCatalog := ⟨∅, #[]⟩

instance : Inhabited PageCatalog := ⟨empty⟩

def intern (c : PageCatalog) (page : String) : Int64 × PageCatalog :=
  match c.ids[page]? with
  | some id => (id, c)
  | none =>
    let id := Int64.ofNat c.pages.size
    (id, ⟨c.ids.insert page id, c.pages.push page⟩)

def ofList (pages : List String) : PageCatalog :=
  pages.foldl (fun c page => (c.intern page).2) empty

def id? (c : PageCatalog) (page : String) : Option Int64 :=
  c.ids[page]?

def page? (c : PageCatalog) (id : Int64) : Option String :=
  if 0 ≤ id then c.pages[id.toInt.toNat]? else none

def size (c : PageCatalog) : Nat :=
  c.pages.size

def isEmpty (c : PageCatalog) : Bool :=
  c.pages.isEmpty

end PageCatalog

end TopCharts
