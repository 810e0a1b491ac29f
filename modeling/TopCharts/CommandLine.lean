import TopCharts.Run.Articles
import TopCharts.Run.Music

/-!
# The command line

Both programs take the options `--config FILE`, `--workers N`, `--epochs N` and one that names the
feed to replay, `--plays FILE` or `--views FILE`. The value of an option is the next argument or
stands after an equals sign; it does not begin with a dash, and no option is given twice.
Arguments are read from left to right, and the first that is wrong, or asks for help, ends it.

* `Options`, `Options.parse` : the options given;
* `Program`, `Program.execute` : runs a program on arguments and files;
* `Exit` : how a program ends, with its exit code.
-/

namespace TopCharts

structure Options where
  config : Option String := none
  workers : Option UInt64 := none
  epochs : Option UInt64 := none
  /-- The feed to replay. -/
  feed : Option String := none
  deriving DecidableEq, Repr

inductive Stop where
  /-- Help was asked for. -/
  | help
  /-- An argument is wrong. -/
  | misuse
  deriving DecidableEq, Repr

/-- An unsigned word in decimal digits, perhaps after a plus sign. -/
def parseWord (s : String) : Option UInt64 :=
  let digits := match s.toList with
    | '+' :: r => r
    | r => r
  if digits.isEmpty || !digits.all Char.isDigit then none
  else
    let n := digits.foldl (fun n c => n * 10 + (c.toNat - 48)) 0
    if n < UInt64.size then some (UInt64.ofNat n) else none

namespace Options

/-- Sets an option by its name; `feedName` is the name of the one for the feed. -/
def set (o : Options) (feedName name value : String) : Except Stop Options :=
  let path (old : Option String) : Except Stop String :=
    if old.isSome || value.isEmpty then .error .misuse else .ok value
  let number (old : Option UInt64) : Except Stop UInt64 :=
    match old, parseWord value with
    | none, some n => .ok n
    | _, _ => .error .misuse
  if name = "--config" then do return { o with config := ← path o.config }
  else if name = "--workers" then do return { o with workers := ← number o.workers }
  else if name = "--epochs" then do return { o with epochs := ← number o.epochs }
  else if name = feedName then do return { o with feed := ← path o.feed }
  else .error .misuse

def isValue (arg : String) : Bool :=
  arg = "-" || !arg.startsWith "-"

/-- The options of a list of arguments, added to those already given. -/
def parse (feedName : String) (o : Options) : List String → Except Stop Options
  | [] => .ok o
  | "--" :: rest => if rest.isEmpty then .ok o else .error .misuse
  | arg :: rest =>
    if arg = "--help" || arg.startsWith "-h" then .error .help
    else
      let name := arg.toList.takeWhile (· ≠ '=')
      match arg.toList.dropWhile (· ≠ '=') with
      | _ :: value => do
        let o ← o.set feedName (String.ofList name) (String.ofList value)
        o.parse feedName rest
      | [] =>
        match rest with
        | value :: rest =>
          if isValue value then do
            let o ← o.set feedName arg value
            o.parse feedName rest
          else .error .misuse
        | [] => .error .misuse

/-- The run settings with the options in place of the settings of the file. -/
def override (o : Options) (s : RunSettings) : RunSettings where
  workers := o.workers.getD s.workers
  epochs := o.epochs.getD s.epochs

end Options

inductive Exit where
  | success (lines : List String)
  | failure (f : Failure)
  | stopped (s : Stop)

def Exit.code : Exit → UInt32
  | .success _ => 0
  | .failure _ => 1
  | .stopped .help => 0
  | .stopped .misuse => 2

inductive Program where
  | musicCharts
  | topArticles
  deriving DecidableEq, Repr

namespace Program

def name : Program → String
  | musicCharts => "music_charts"
  | topArticles => "top_articles"

def ofName? (s : String) : Option Program :=
  [musicCharts, topArticles].find? fun p => p.name = s

def feedName : Program → String
  | musicCharts => "--plays"
  | topArticles => "--views"

def options (p : Program) (args : List String) : Except Stop Options :=
  Options.parse p.feedName {} args

def loadFeed {α : Type} (f : Json.Format α) (o : Options) (files : String → File) :
    Except Failure (Feed.Contents α) :=
  match o.feed with
  | some path => Feed.load f path (files path)
  | none => .ok ⟨[], 0⟩

/-- The lines that a program prints. The settings are read before the feed. -/
def lines (p : Program) (o : Options) (files : String → File) : Except Failure (List String) := do
  let config := o.config.map fun path => (path, files path)
  match p with
  | musicCharts =>
    let s : MusicSettings ← Settings.load MusicSettings.record.format {} config
    let feed ← loadFeed Play.record.format o files
    Run.musicLines { s with run := o.override s.run } feed
  | topArticles =>
    let s : ArticleSettings ← Settings.load ArticleSettings.record.format {} config
    let feed ← loadFeed PageView.record.format o files
    Run.articleLines { s with run := o.override s.run } feed

/-- Runs a program on arguments; `files` are the files it may read. -/
def execute (p : Program) (args : List String) (files : String → File) : Exit :=
  match p.options args with
  | .error s => .stopped s
  | .ok o =>
    match p.lines o files with
    | .ok lines => .success lines
    | .error f => .failure f

end Program

end TopCharts
