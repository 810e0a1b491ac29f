import TopCharts.Json.Format
import TopCharts.Store

/-!
# Routing queries to shards

A shard never hands out its store. It publishes a snapshot with every chart encoded, and a router
built from snapshots forwards each query to the shard that owns the key.

* `Snapshot` : the encoded charts of a shard; `Snapshot.capture` takes one of a store;
* `Router` : the published snapshots and a directory from keys to their shards;
* `Router.publish` refuses a shard that has published and a key that is owned (`RoutingError`);
* `ownerOf`, `topK`, `keys`, `discovery` : the queries; `discoveryText` is the latter as JSON.
-/

namespace TopCharts

open Std (ExtTreeMap TransOrd)

/-- Why a snapshot is refused or a query fails. -/
inductive RoutingError where
  | duplicateShard (shard : UInt64)
  | sharedKey (first second : UInt64)
  | corrupt (shard : UInt64) (cause : CorruptEncoding)
  deriving DecidableEq, Repr

def RoutingError.message : RoutingError → String
  | .duplicateShard shard => s!"shard {shard} already published"
  | .sharedKey first second => s!"key published by both shard {first} and shard {second}"
  | .corrupt shard cause => s!"shard {shard} holds a corrupt chart: {cause.message}"

structure Snapshot (κ : Type) [Ord κ] where
  shard : UInt64
  charts : ExtTreeMap κ (List UInt8)

def Snapshot.capture {κ : Type} [Ord κ] [TransOrd κ] {k : Nat} (shard : UInt64) (s : Store κ k) :
    Snapshot κ :=
  ⟨shard, s.charts.map fun _ chart => chart.encode⟩

/-- The published snapshots and the shard of each key. -/
structure Router (κ : Type) (k : Nat) [Ord κ] where
  shards : ExtTreeMap UInt64 (Snapshot κ)
  directory : ExtTreeMap κ UInt64

namespace Router

variable {κ : Type} [Ord κ] [TransOrd κ] {k : Nat}

def empty : Router κ k := ⟨∅, ∅⟩

instance : Inhabited (Router κ k) := ⟨empty⟩

def ownerOf (r : Router κ k) (key : κ) : Option UInt64 :=
  r.directory[key]?

/-- Adds a snapshot. Its shard must be new, and its keys without an owner. -/
def publish (r : Router κ k) (s : Snapshot κ) : Except RoutingError (Router κ k) :=
  if r.shards.contains s.shard then .error (.duplicateShard s.shard)
  else match s.charts.keys.findSome? r.ownerOf with
    | some first => .error (.sharedKey first s.shard)
    | none => .ok ⟨r.shards.insert s.shard s,
        s.charts.keys.foldl (fun directory key => directory.insert key s.shard) r.directory⟩

/-- The router of snapshots published in turn. -/
def ofSnapshots (snapshots : List (Snapshot κ)) : Except RoutingError (Router κ k) :=
  snapshots.foldlM publish empty

/-- The entries of a key's chart, highest rank first. A chart that travels as no bytes is empty. -/
def topK (r : Router κ k) (key : κ) : Except RoutingError (Option (List Entry)) :=
  match r.ownerOf key with
  | none => .ok none
  | some shard =>
    let bytes := r.shards[shard]? >>= fun s => s.charts[key]?
    match Chart.decode (k := k) bytes with
    | .ok chart => .ok (some ((chart.map Chart.toList).getD []))
    | .error cause => .error (.corrupt shard cause)

def keys (r : Router κ k) : List κ :=
  r.directory.keys

/-- The shards in order, each with the keys it serves. -/
def discovery (r : Router κ k) : List (UInt64 × List κ) :=
  r.shards.toList.map fun (shard, s) => (shard, s.charts.keys)

/-- The JSON text of the shards and their keys. -/
def discoveryText (r : Router κ k) (writeKey : κ → List Char) : String :=
  String.ofList <| Json.writeArray <| r.discovery.map fun (shard, keys) =>
    Json.writeObject [("shard", (toString shard).toList),
      ("keys", Json.writeArray (keys.map writeKey))]

end Router

end TopCharts
