import TopCharts.Bytes

/-!
# Sharding keys

Every key belongs to one shard, picked by a hash of its bytes.

* `fnv1a` : the 64-bit FNV-1a hash of a list of bytes;
* `ShardKey` : keys with the bytes that are hashed. Text ends with a byte that no UTF-8 text
  holds, so that no key's bytes start another's; a number is its eight bytes, least first;
* `shardOf key n` : the shard of `key` among `n`.
-/

namespace TopCharts

/-- The 64-bit FNV-1a hash. -/
def fnv1a (bytes : List UInt8) : UInt64 :=
  bytes.foldl (fun hash b => (hash ^^^ b.toUInt64) * 0x100000001b3) 0xcbf29ce484222325

/-- Keys that are sharded, with the bytes their hash takes in. -/
class ShardKey (κ : Type) where
  hashBytes : κ → List UInt8

instance : ShardKey String where
  hashBytes s := s.toUTF8.toList ++ [0xff]

instance : ShardKey UInt64 where
  hashBytes n := Bytes.littleEndian 8 n.toNat

instance : ShardKey Int64 where
  hashBytes n := Bytes.littleEndian 8 n.toUInt64.toNat

def keyHash {κ : Type} [ShardKey κ] (key : κ) : UInt64 :=
  fnv1a (ShardKey.hashBytes key)

/-- The shard of `key` among `shards`; there is always one. -/
def shardOf {κ : Type} [ShardKey κ] (key : κ) (shards : UInt64) : UInt64 :=
  keyHash key % max shards 1

end TopCharts
