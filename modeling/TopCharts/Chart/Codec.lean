import TopCharts.Bytes
import TopCharts.Chart.Basic

/-!
# The encoding of a chart

A chart is written as its ranking, highest rank first: one record of 16 bytes per entry, the
identity and then the score, each a big-endian signed word. There is no header.

* `Entry.encode`, `Entry.ofBytes` : one record;
* `Chart.encode` : the records of a ranking;
* `Chart.decode` : adds the records in turn to an empty chart. No bytes at all, or an absent value,
  stand for a chart that is *not computed*; a length that is not whole records is corrupt.
-/

namespace TopCharts

def recordWidth : Nat := 16

/-- An encoding of `length` bytes that is not a whole number of records. -/
structure CorruptEncoding where
  length : Nat
  deriving DecidableEq, Repr

def CorruptEncoding.message (e : CorruptEncoding) : String :=
  s!"corrupt encoding: {e.length} bytes is not a multiple of the {recordWidth}-byte record width"

namespace Entry

def encode (e : Entry) : List UInt8 :=
  Bytes.bigEndian 8 e.identity.toUInt64.toNat ++ Bytes.bigEndian 8 e.score.toUInt64.toNat

def ofBytes (record : List UInt8) : Entry :=
  let word (bytes : List UInt8) := (UInt64.ofNat (Bytes.ofBigEndian bytes)).toInt64
  ⟨word (record.take 8), word (record.drop 8)⟩

def listOfBytes : List UInt8 → List Entry
  | [] => []
  | b :: bs => ofBytes ((b :: bs).take recordWidth) :: listOfBytes (bs.drop (recordWidth - 1))
termination_by bs => bs.length
decreasing_by simp only [List.length_drop, List.length_cons]; omega

end Entry

namespace Chart

variable {k : Nat}

/-- The records of the ranking, highest rank first. -/
def encode (c : Chart k) : List UInt8 :=
  c.ranking.flatMap Entry.encode

/-- The chart that adding the encoded entries in turn gives; `none` when it is not computed. -/
def decode (bytes : Option (List UInt8)) : Except CorruptEncoding (Option (Chart k)) :=
  match bytes with
  | none | some [] => .ok none
  | some bytes =>
    if bytes.length % recordWidth = 0 then .ok (some (ofList (Entry.listOfBytes bytes)))
    else .error ⟨bytes.length⟩

end Chart

end TopCharts
