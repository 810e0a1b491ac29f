/-!
# Workers

A job is done once by each of several workers, which know their own position and how many there
are. If one of them fails, the whole run fails.

* `Workers.run` : the results of the workers in order;
* `WorkerFailure` : what a failed run is reported as.
-/

namespace TopCharts

structure WorkerFailure where
  deriving DecidableEq, Repr

def WorkerFailure.message (_ : WorkerFailure) : String :=
  "timely worker failed: Any \x7b .. \x7d"

/-- The results of at least one worker, in order. -/
def Workers.run {ε α : Type} (workers : UInt64) (job : (index peers : UInt64) → Except ε α) :
    Except WorkerFailure (List α) :=
  let peers := max workers 1
  match (List.range peers.toNat).mapM fun i => job (UInt64.ofNat i) peers with
  | .ok results => .ok results
  | .error _ => .error {}

end TopCharts
