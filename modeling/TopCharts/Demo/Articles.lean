import TopCharts.Articles
import TopCharts.Demo.Generator

/-!
# Generated page views

* `Demo.pages` : the pages that are known beforehand;
* `Demo.views` : the views of an epoch, spread evenly over its span of time. Every fourth is not
  of an article.
-/

namespace TopCharts.Demo

def users : List String :=
  ["erica", "bob", "joe", "damian", "tania", "phil", "sam", "lauren", "joseph"]

def industries : List String :=
  ["engineering", "telco", "finance", "health", "science"]

def pages : List String :=
  ["index.html", "news.html", "contact.html", "about.html", "stuff.html"]

/-- View number `i` of the `count` views of an epoch. -/
def view (epoch count spanMs i : UInt64) : Except Fault PageView := do
  return {
    user := pick users (← Checked.add (← Checked.mul epoch 7) i)
    page := pick pages (← Checked.add (← Checked.mul i i) epoch)
    industry := pick industries (← Checked.add (← Checked.mul i 3) epoch)
    flags := if i % 4 = 3 then "" else "ARTICLE"
    timeMs := ← Checked.add (← Checked.mul epoch spanMs) ((← Checked.mul i spanMs) / count) }

/-- The first `take` of the views of an epoch, of which there is at least one. -/
def someViews (epoch viewsPerEpoch spanMs take : UInt64) : Except Fault (List PageView) :=
  let count := max viewsPerEpoch 1
  generate (min count take).toNat (view epoch count spanMs)

def views (epoch viewsPerEpoch spanMs : UInt64) : Except Fault (List PageView) :=
  someViews epoch viewsPerEpoch spanMs (max viewsPerEpoch 1)

end TopCharts.Demo
