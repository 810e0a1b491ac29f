import TopCharts.CommandLine

/-!
# The programs

`main` runs the program that the first argument names on the other arguments. The files that the
options name are read before, and the result is printed after.
-/

namespace TopCharts

def readFile (path : String) : IO File := do
  try return some (← IO.FS.readBinFile path)
  catch _ => return none

def usage : String :=
  "usage: (music_charts [--plays FILE] | top_articles [--views FILE])\n" ++
  "       [--config FILE] [--workers N] [--epochs N]"

/-- Prints how a program ended and returns its exit code. -/
def report (e : Exit) : IO UInt32 := do
  match e with
  | .success lines => lines.forM IO.println
  | .failure f =>
    IO.eprintln s!"Error: {f.message}"
    unless f.causes.isEmpty do
      IO.eprintln "\nCaused by:"
      f.causes.forM fun cause => IO.eprintln s!"    {cause}"
  | .stopped .help => IO.println usage
  | .stopped .misuse => IO.eprintln usage
  return e.code

def start (args : List String) : IO UInt32 := do
  match args.head? >>= Program.ofName? with
  | none => report (.stopped .misuse)
  | some p =>
    let args := args.drop 1
    let paths := match p.options args with
      | .ok o => o.config.toList ++ o.feed.toList
      | .error _ => []
    let files ← paths.mapM fun path => do return (path, ← readFile path)
    report (p.execute args fun path => (files.lookup path).join)

end TopCharts

def main (args : List String) : IO UInt32 :=
  TopCharts.start args
